import Mathlib.Logic.Relation
import Mathlib.Data.List.Basic

/-! Runs of goroutines that share one `sync.RWMutex`: the states reachable by interleaving
their steps, Go's semantics of the mutex, and deadlock freedom for goroutines whose
critical sections do not nest. -/

namespace Amc

def Reachable {σ : Type} (step : σ → σ → Prop) (s₀ s : σ) : Prop :=
  Relation.ReflTransGen step s₀ s

theorem Reachable.invariant {σ : Type} {step : σ → σ → Prop} {I : σ → Prop} {s₀ s : σ}
    (h : Reachable step s₀ s) (h₀ : I s₀) (hstep : ∀ s s', I s → step s s' → I s') : I s := by
  induction h with
  | refl => exact h₀
  | tail _ hs ih => exact hstep _ _ ih hs

theorem Reachable.tail {σ : Type} {step : σ → σ → Prop} {s₀ s s' : σ}
    (h : Reachable step s₀ s) (hs : step s s') : Reachable step s₀ s' :=
  Relation.ReflTransGen.tail h hs

theorem Reachable.refl {σ : Type} (step : σ → σ → Prop) (s : σ) : Reachable step s s :=
  Relation.ReflTransGen.refl

theorem Reachable.head {σ : Type} {step : σ → σ → Prop} {s₀ s₁ s : σ}
    (hs : step s₀ s₁) (h : Reachable step s₁ s) : Reachable step s₀ s :=
  Relation.ReflTransGen.head hs h

theorem Reachable.trans {σ : Type} {step : σ → σ → Prop} {s₀ s₁ s : σ}
    (h₁ : Reachable step s₀ s₁) (h₂ : Reachable step s₁ s) : Reachable step s₀ s :=
  Relation.ReflTransGen.trans h₁ h₂

namespace Mutex

inductive Op where
  | rlock
  | runlock
  | lock
  | unlock
  deriving DecidableEq, Repr

/-- `sync.RWMutex`: how many readers hold it, and whether a writer holds its writer
mutex `w` (it has announced itself and waits for the readers, or it holds the lock). -/
structure RWMutex where
  readers : Nat
  writer : Bool
  deriving DecidableEq, Repr

structure Goroutine where
  prog : List Op
  announced : Bool
  deriving DecidableEq, Repr

structure Sys where
  gs : List Goroutine
  mu : RWMutex
  deriving DecidableEq, Repr

def Sys.init (progs : List (List Op)) : Sys := ⟨progs.map (⟨·, false⟩), ⟨0, false⟩⟩

/-- One step of one goroutine. `RLock` blocks while a writer holds `w`; `Lock` first takes
`w` (blocking other writers and every later `RLock`), then waits for the readers. -/
inductive Step : Sys → Sys → Prop where
  | rlock {pre post : List Goroutine} {k : List Op} {mu : RWMutex} (hw : mu.writer = false) :
      Step ⟨pre ++ ⟨.rlock :: k, false⟩ :: post, mu⟩
        ⟨pre ++ ⟨k, false⟩ :: post, { mu with readers := mu.readers + 1 }⟩
  | runlock {pre post : List Goroutine} {k : List Op} {mu : RWMutex} :
      Step ⟨pre ++ ⟨.runlock :: k, false⟩ :: post, mu⟩
        ⟨pre ++ ⟨k, false⟩ :: post, { mu with readers := mu.readers - 1 }⟩
  | announce {pre post : List Goroutine} {k : List Op} {mu : RWMutex} (hw : mu.writer = false) :
      Step ⟨pre ++ ⟨.lock :: k, false⟩ :: post, mu⟩
        ⟨pre ++ ⟨.lock :: k, true⟩ :: post, { mu with writer := true }⟩
  | acquire {pre post : List Goroutine} {k : List Op} {mu : RWMutex} (hr : mu.readers = 0) :
      Step ⟨pre ++ ⟨.lock :: k, true⟩ :: post, mu⟩ ⟨pre ++ ⟨k, false⟩ :: post, mu⟩
  | unlock {pre post : List Goroutine} {k : List Op} {mu : RWMutex} :
      Step ⟨pre ++ ⟨.unlock :: k, false⟩ :: post, mu⟩
        ⟨pre ++ ⟨k, false⟩ :: post, { mu with writer := false }⟩

def Enabled (mu : RWMutex) (g : Goroutine) : Bool :=
  match g.prog, g.announced with
  | .rlock :: _, false => !mu.writer
  | .runlock :: _, false => true
  | .lock :: _, false => !mu.writer
  | .lock :: _, true => mu.readers == 0
  | .unlock :: _, false => true
  | _, _ => false

theorem exists_step_iff (s : Sys) : (∃ s', Step s s') ↔ ∃ g ∈ s.gs, Enabled s.mu g := by
  constructor
  · rintro ⟨s', h⟩
    cases h <;> exact ⟨_, List.mem_append_right _ (List.mem_cons_self _ _), by simp_all [Enabled]⟩
  · rintro ⟨⟨prog, ann⟩, hg, hen⟩
    obtain ⟨pre, post, hs⟩ := List.append_of_mem hg
    obtain ⟨gs, mu⟩ := s
    simp only at hs hen
    subst hs
    rcases prog with _ | ⟨_ | _ | _ | _, k⟩ <;> rcases ann with _ | _ <;>
      simp only [Enabled, Bool.not_eq_true', beq_iff_eq, reduceCtorEq] at hen
    · exact ⟨_, .rlock hen⟩
    · exact ⟨_, .runlock⟩
    · exact ⟨_, .announce hen⟩
    · exact ⟨_, .acquire hen⟩
    · exact ⟨_, .unlock⟩

def Deadlocked (s : Sys) : Prop := (∃ g ∈ s.gs, g.prog ≠ []) ∧ ∀ s', ¬Step s s'

theorem deadlocked_iff (s : Sys) :
    Deadlocked s ↔ (∃ g ∈ s.gs, g.prog ≠ []) ∧ ∀ g ∈ s.gs, Enabled s.mu g = false := by
  refine and_congr_right fun _ => ?_
  rw [← not_exists, exists_step_iff]
  simp

instance (s : Sys) : Decidable (Deadlocked s) := decidable_of_iff _ (deadlocked_iff s).symm

/-! ### Critical sections that do not nest never deadlock -/

/-- A program of critical sections one after another, none inside another. -/
def flat : List Op → Bool
  | [] => true
  | .rlock :: .runlock :: k => flat k
  | .lock :: .unlock :: k => flat k
  | _ => false

def Goroutine.sound (g : Goroutine) : Bool :=
  match g.prog, g.announced with
  | .runlock :: k, false => flat k
  | .lock :: .unlock :: k, true => flat k
  | .unlock :: k, false => flat k
  | p, false => flat p
  | _, true => false

def Goroutine.reading (g : Goroutine) : Bool := g.prog.head? == some .runlock

def Goroutine.writing (g : Goroutine) : Bool := g.announced || g.prog.head? == some .unlock

structure Inv (s : Sys) : Prop where
  sound : ∀ g ∈ s.gs, g.sound
  readers : s.mu.readers = s.gs.countP Goroutine.reading
  writer : (if s.mu.writer then 1 else 0) = s.gs.countP Goroutine.writing

theorem countP_mid (p : Goroutine → Bool) (pre post : List Goroutine) (g : Goroutine) :
    (pre ++ g :: post).countP p = pre.countP p + post.countP p + if p g then 1 else 0 := by
  simp only [List.countP_append, List.countP_cons]
  omega

theorem sound_mid {pre post : List Goroutine} {g g' : Goroutine}
    (h : ∀ x ∈ pre ++ g :: post, x.sound) (hg' : g'.sound) : ∀ x ∈ pre ++ g' :: post, x.sound := by
  intro x hx
  rcases List.mem_append.mp hx with hx | hx
  · exact h x (List.mem_append_left _ hx)
  · rcases List.mem_cons.mp hx with rfl | hx
    · exact hg'
    · exact h x (List.mem_append_right _ (List.mem_cons_of_mem _ hx))

theorem idle_of_flat {k : List Op} (h : flat k) :
    (⟨k, false⟩ : Goroutine).sound ∧ (⟨k, false⟩ : Goroutine).reading = false ∧
      (⟨k, false⟩ : Goroutine).writing = false := by
  rcases k with _ | ⟨_ | _ | _ | _, k'⟩ <;>
    simp_all [Goroutine.sound, Goroutine.reading, Goroutine.writing, flat]

theorem inv_init {progs : List (List Op)} (h : ∀ p ∈ progs, flat p) : Inv (Sys.init progs) := by
  have hp : ∀ g ∈ (Sys.init progs).gs, g.sound ∧ g.reading = false ∧ g.writing = false := by
    simp only [Sys.init, List.mem_map]
    rintro _ ⟨p, hp, rfl⟩
    exact idle_of_flat (h p hp)
  refine ⟨fun g hg => (hp g hg).1, ?_, ?_⟩ <;>
    refine (List.countP_eq_zero.mpr fun g hg => ?_).symm <;> simp [(hp g hg).2.1, (hp g hg).2.2]

theorem sound_rlock {k : List Op} (h : (⟨.rlock :: k, false⟩ : Goroutine).sound) :
    ∃ k', k = .runlock :: k' ∧ flat k' := by
  rcases k with _ | ⟨_ | _ | _ | _, k'⟩ <;> simp_all [Goroutine.sound, flat]

theorem sound_runlock {k : List Op} (h : (⟨.runlock :: k, false⟩ : Goroutine).sound) : flat k := by
  simpa [Goroutine.sound] using h

theorem sound_announce {k : List Op} (h : (⟨.lock :: k, false⟩ : Goroutine).sound) :
    ∃ k', k = .unlock :: k' ∧ flat k' := by
  rcases k with _ | ⟨_ | _ | _ | _, k'⟩ <;> simp_all [Goroutine.sound, flat]

theorem sound_acquire {k : List Op} (h : (⟨.lock :: k, true⟩ : Goroutine).sound) :
    ∃ k', k = .unlock :: k' ∧ flat k' := by
  rcases k with _ | ⟨_ | _ | _ | _, k'⟩ <;> simp_all [Goroutine.sound, flat]

theorem sound_unlock {k : List Op} (h : (⟨.unlock :: k, false⟩ : Goroutine).sound) : flat k := by
  simpa [Goroutine.sound] using h

theorem Inv.step {s s' : Sys} (hi : Inv s) (h : Step s s') : Inv s' := by
  obtain ⟨hs, hr, hw⟩ := hi
  have hg : ∀ {pre post : List Goroutine} {g : Goroutine}, g ∈ pre ++ g :: post :=
    List.mem_append_right _ (List.mem_cons_self _ _)
  cases h with
  | rlock hwr =>
    obtain ⟨k', rfl, hk⟩ := sound_rlock (hs _ hg)
    refine ⟨sound_mid hs (by simpa [Goroutine.sound] using hk), ?_, ?_⟩ <;>
      simp only [countP_mid, Goroutine.reading, Goroutine.writing] at hr hw ⊢ <;> simp_all
  | runlock =>
    obtain ⟨hsd, hrd, hwr⟩ := idle_of_flat (sound_runlock (hs _ hg))
    refine ⟨sound_mid hs hsd, ?_, ?_⟩ <;> simp only [countP_mid, hrd, hwr] at hr hw ⊢ <;>
      simp_all [Goroutine.reading, Goroutine.writing]
  | announce hwr =>
    obtain ⟨k', rfl, hk⟩ := sound_announce (hs _ hg)
    refine ⟨sound_mid hs (by simpa [Goroutine.sound] using hk), ?_, ?_⟩ <;>
      simp only [countP_mid, Goroutine.reading, Goroutine.writing] at hr hw ⊢ <;> simp_all
  | acquire hrd =>
    obtain ⟨k', rfl, hk⟩ := sound_acquire (hs _ hg)
    refine ⟨sound_mid hs (by simpa [Goroutine.sound] using hk), ?_, ?_⟩ <;>
      simp only [countP_mid, Goroutine.reading, Goroutine.writing] at hr hw ⊢ <;> simp_all
  | unlock =>
    obtain ⟨hsd, hrd, hwr⟩ := idle_of_flat (sound_unlock (hs _ hg))
    refine ⟨sound_mid hs hsd, ?_, ?_⟩ <;> simp only [countP_mid, hrd, hwr] at hr hw ⊢ <;>
      simp_all [Goroutine.reading, Goroutine.writing]
    split at hw <;> omega

theorem enabled_of_inside {g : Goroutine} (mu : RWMutex) (h : g.sound)
    (hin : g.reading ∨ (g.writing ∧ g.announced = false)) : Enabled mu g := by
  rcases g with ⟨_ | ⟨_ | _ | _ | _, k⟩, _ | _⟩ <;>
    simp_all [Goroutine.sound, Goroutine.reading, Goroutine.writing, Enabled, flat]

theorem enabled_of_announced {g : Goroutine} {mu : RWMutex} (h : g.sound) (ha : g.announced)
    (hr : mu.readers = 0) : Enabled mu g := by
  rcases g with ⟨_ | ⟨_ | _ | _ | _, k⟩, _ | _⟩ <;>
    simp_all [Goroutine.sound, Enabled, flat]

theorem enabled_of_idle {g : Goroutine} {mu : RWMutex} (h : g.sound) (hne : g.prog ≠ [])
    (hw : g.writing = false) (hrd : g.reading = false) (hmu : mu.writer = false) :
    Enabled mu g := by
  rcases g with ⟨_ | ⟨_ | _ | _ | _, k⟩, _ | _⟩ <;>
    simp_all [Goroutine.sound, Goroutine.reading, Goroutine.writing, Enabled, flat]

theorem Inv.progress {s : Sys} (hi : Inv s) (hu : ∃ g ∈ s.gs, g.prog ≠ []) :
    ∃ g ∈ s.gs, Enabled s.mu g := by
  by_cases hread : ∃ g ∈ s.gs, g.reading
  · obtain ⟨g, hg, hr⟩ := hread
    exact ⟨g, hg, enabled_of_inside s.mu (hi.sound g hg) (.inl hr)⟩
  have hr0 : s.mu.readers = 0 := by
    rw [hi.readers, List.countP_eq_zero]
    simpa using hread
  by_cases hwrite : ∃ g ∈ s.gs, g.writing
  · obtain ⟨g, hg, hw⟩ := hwrite
    cases ha : g.announced
    · exact ⟨g, hg, enabled_of_inside s.mu (hi.sound g hg) (.inr ⟨hw, ha⟩)⟩
    · exact ⟨g, hg, enabled_of_announced (hi.sound g hg) ha hr0⟩
  have hw0 : s.mu.writer = false := by
    have h := hi.writer
    rw [List.countP_eq_zero.mpr (by simpa using hwrite)] at h
    simpa using h
  obtain ⟨g, hg, hne⟩ := hu
  exact ⟨g, hg, enabled_of_idle (hi.sound g hg) hne (by simpa using fun h => hwrite ⟨g, hg, h⟩)
    (by simpa using fun h => hread ⟨g, hg, h⟩) hw0⟩

/-- Under `sync.RWMutex` blocking, goroutines whose critical sections do not nest never
deadlock, in any interleaving. -/
theorem flat_deadlockFree {progs : List (List Op)} (h : ∀ p ∈ progs, flat p) {s : Sys}
    (hs : Reachable Step (Sys.init progs) s) : ¬Deadlocked s := by
  have hi : Inv s := hs.invariant (inv_init h) fun _ _ hi hst => hi.step hst
  rintro ⟨hu, hno⟩
  obtain ⟨g, hg, hen⟩ := hi.progress hu
  obtain ⟨s', hs'⟩ := (exists_step_iff s).mpr ⟨g, hg, hen⟩
  exact hno s' hs'

end Mutex
end Amc
