import AmcCluster.BackupRestore
import AmcCluster.Interleaving

/-! Concurrent starts of `Backup` (and, with the same body, `Restore`): a start reads
`c.activeBackup` afresh at each use and never takes `c.mutex`, so starts run one at a time are
safe, and two whose tests both come before either assignment both run their jobs. -/

namespace Amc.Models.BackupRace
open Amc

/-- Where a start request is. Request `i` builds job `i`. -/
inductive StartPc where
  | check
  | assign
  | save
  | execute
  | rejected
  | failed
  | started (job : Nat)
  | panicked
  deriving DecidableEq, Repr

structure Starts where
  active : Option Nat
  reqs : List StartPc
  finished : List Nat
  executed : List Nat
  replacedInProgress : Bool
  deriving DecidableEq, Repr

namespace Starts

def init : Starts := ⟨none, [], [], [], false⟩

def jobStatus (s : Starts) (j : Nat) : BackupStatus :=
  if j ∈ s.finished then .success else .inProgress

def inProgress (s : Starts) : Bool := s.active.any (s.jobStatus · = .inProgress)

def Running (s : Starts) (j : Nat) : Prop := j ∈ s.executed ∧ j ∉ s.finished

instance (s : Starts) (j : Nat) : Decidable (s.Running j) :=
  inferInstanceAs (Decidable (_ ∧ _))

def setPc (s : Starts) (i : Nat) (pc : StartPc) : Starts := { s with reqs := s.reqs.set i pc }

/-- One step of start request `i`; `saveOk` is whether its `Save()` succeeds. -/
def step (s : Starts) (i : Nat) (saveOk : Bool) : Starts :=
  match s.reqs[i]? with
  | some .check => s.setPc i (if s.inProgress then .rejected else .assign)
  | some .assign =>
    { s.setPc i .save with active := some i,
                           replacedInProgress := s.replacedInProgress || s.inProgress }
  | some .save =>
    match s.active with
    | none => s.setPc i .panicked
    | some _ => if saveOk then s.setPc i .execute else { s.setPc i .failed with active := none }
  | some .execute =>
    match s.active with
    | none => s.setPc i .panicked
    | some j => { s.setPc i (.started j) with executed := j :: s.executed }
  | _ => s

def request (s : Starts) : Starts := { s with reqs := s.reqs ++ [.check] }

def finish (s : Starts) (j : Nat) : Starts := { s with finished := j :: s.finished }

def startAlone (s : Starts) (i : Nat) (saveOk : Bool) : Starts :=
  (((s.step i saveOk).step i saveOk).step i saveOk).step i saveOk

@[simp] theorem setPc_active (s : Starts) (i : Nat) (pc : StartPc) :
    (s.setPc i pc).active = s.active := rfl

@[simp] theorem setPc_finished (s : Starts) (i : Nat) (pc : StartPc) :
    (s.setPc i pc).finished = s.finished := rfl

@[simp] theorem setPc_executed (s : Starts) (i : Nat) (pc : StartPc) :
    (s.setPc i pc).executed = s.executed := rfl

@[simp] theorem setPc_replacedInProgress (s : Starts) (i : Nat) (pc : StartPc) :
    (s.setPc i pc).replacedInProgress = s.replacedInProgress := rfl

@[simp] theorem setPc_reqs (s : Starts) (i : Nat) (pc : StartPc) :
    (s.setPc i pc).reqs = s.reqs.set i pc := rfl

@[simp] theorem inProgress_setPc (s : Starts) (i : Nat) (pc : StartPc) :
    (s.setPc i pc).inProgress = s.inProgress := rfl

end Starts

open Starts

inductive SStep : Starts → Starts → Prop
  | request (s : Starts) : SStep s s.request
  | step (s : Starts) (i : Nat) (saveOk : Bool) : SStep s (s.step i saveOk)
  | finish (s : Starts) (j : Nat) (hj : j ∈ s.executed) : SStep s (s.finish j)

/-! ## Starts that run one at a time -/

theorem startAlone_eq {s : Starts} {i : Nat} (h : s.reqs[i]? = some .check) (saveOk : Bool) :
    s.startAlone i saveOk =
      if s.inProgress then s.setPc i .rejected
      else if saveOk then
        { s with reqs := s.reqs.set i (.started i), active := some i,
                 executed := i :: s.executed }
      else { s with reqs := s.reqs.set i .failed, active := none } := by
  have hi : i < s.reqs.length := (List.getElem?_eq_some_iff.1 h).1
  unfold startAlone
  cases hp : s.inProgress
  · cases saveOk <;> simp [step, h, hp, hi]
  · simp [step, h, hp, hi]

theorem startAlone_active {s : Starts} {i : Nat} (h : s.reqs[i]? = some .check)
    (saveOk : Bool) (err : String) :
    (s.startAlone i saveOk).active =
      (startJob s.jobStatus s.active i (if saveOk then none else some err) none).2 := by
  rw [startAlone_eq h]
  by_cases hp : s.inProgress
  · simp [hp, startJob_inProgress _ _ _ hp]
  · cases saveOk
    · simp [hp, startJob_saveFailed _ _ (Bool.eq_false_iff.2 hp)]
    · simp [hp, startJob_saved _ _ (Bool.eq_false_iff.2 hp)]

inductive Serial : Starts → Starts → Prop
  | request (s : Starts) : Serial s s.request
  | start (s : Starts) (i : Nat) (saveOk : Bool) (h : s.reqs[i]? = some .check) :
    Serial s (s.startAlone i saveOk)
  | finish (s : Starts) (j : Nat) (hj : j ∈ s.executed) : Serial s (s.finish j)

theorem reachable_of_serial {s s' : Starts} (h : Reachable Serial s s') : Reachable SStep s s' := by
  induction h with
  | refl => exact Reachable.refl _ _
  | tail _ hs ih =>
    cases hs with
    | request => exact ih.tail (.request _)
    | start i saveOk =>
      exact ih.trans (.head (.step _ i saveOk) (.head (.step _ i saveOk)
        (.head (.step _ i saveOk) (.head (.step _ i saveOk) (Reachable.refl _ _)))))
    | finish j hj => exact ih.tail (.finish _ j hj)

structure SerialInv (s : Starts) : Prop where
  running_active : ∀ j, s.Running j → s.active = some j
  executed_started : ∀ j ∈ s.executed, s.reqs[j]? = some (.started j)
  finished_executed : ∀ j ∈ s.finished, j ∈ s.executed
  not_replaced : s.replacedInProgress = false

theorem SerialInv.not_running {s : Starts} (hi : SerialInv s) (hp : s.inProgress = false)
    (j : Nat) : ¬s.Running j := by
  intro hr
  have := hi.running_active j hr
  simp [inProgress, this, jobStatus, hr.2] at hp

theorem SerialInv.executed_set {s : Starts} (hi : SerialInv s) {i : Nat} (hfresh : i ∉ s.executed)
    (pc : StartPc) : ∀ j ∈ s.executed, (s.reqs.set i pc)[j]? = some (.started j) := fun j hj => by
  rw [List.getElem?_set_ne (fun (h : i = j) => hfresh (h ▸ hj)), hi.executed_started j hj]

theorem SerialInv.serial {s s' : Starts} (hi : SerialInv s) (h : Serial s s') : SerialInv s' := by
  cases h with
  | request =>
    refine ⟨hi.running_active, fun j hj => ?_, hi.finished_executed, hi.not_replaced⟩
    have hlt : j < s.reqs.length := (List.getElem?_eq_some_iff.1 (hi.executed_started j hj)).1
    simpa [request, List.getElem?_append_left hlt] using hi.executed_started j hj
  | finish j hj =>
    refine ⟨fun k hk => hi.running_active k ⟨hk.1, fun h => hk.2 (.tail _ h)⟩,
      hi.executed_started, fun k hk => ?_, hi.not_replaced⟩
    rcases List.mem_cons.1 hk with rfl | hk
    · exact hj
    · exact hi.finished_executed k hk
  | start i saveOk hc =>
    have hfresh : i ∉ s.executed := fun hx => by simp [hi.executed_started i hx] at hc
    have hset := hi.executed_set hfresh
    rw [startAlone_eq hc saveOk]
    by_cases hp : s.inProgress
    · simp only [hp, if_true]
      exact ⟨hi.running_active, hset _, hi.finished_executed, hi.not_replaced⟩
    · have hnr := hi.not_running (Bool.eq_false_iff.2 hp)
      cases saveOk
      · simp only [hp, if_false, Bool.false_eq_true]
        exact ⟨fun j hj => absurd hj (hnr j), hset _, hi.finished_executed, hi.not_replaced⟩
      · simp only [hp, if_false, if_true]
        refine ⟨fun j hj => ?_, ?_, fun j hj => .tail _ (hi.finished_executed j hj),
          hi.not_replaced⟩
        · rcases List.mem_cons.1 hj.1 with rfl | hj'
          · rfl
          · exact absurd ⟨hj', hj.2⟩ (hnr j)
        · rintro j (_ | ⟨_, hj⟩)
          · simp [(List.getElem?_eq_some_iff.1 hc).1]
          · exact hset _ j hj

theorem serial_starts_safe {s : Starts} (h : Reachable Serial Starts.init s) :
    s.replacedInProgress = false ∧ ∀ j₁ j₂, s.Running j₁ → s.Running j₂ → j₁ = j₂ := by
  have hi : SerialInv s := h.invariant ⟨nofun, nofun, nofun, rfl⟩ fun _ _ hi => hi.serial
  refine ⟨hi.not_replaced, fun j₁ j₂ h₁ h₂ => ?_⟩
  have := (hi.running_active j₁ h₁).symm.trans (hi.running_active j₂ h₂)
  exact Option.some.inj this

theorem serial_starts_safe_one :
    let s := Starts.init.request.startAlone 0 true
    Reachable Serial Starts.init s ∧
      s.replacedInProgress = false ∧ ∀ j₁ j₂, s.Running j₁ → s.Running j₂ → j₁ = j₂ :=
  have h : Reachable Serial Starts.init (Starts.init.request.startAlone 0 true) :=
    ((Reachable.refl _ _).tail (.request _)).tail (.start _ 0 true rfl)
  ⟨h, serial_starts_safe h⟩

/-! ## Two starts that interleave -/

/-- The schedule that breaks the guard: both requests pass the test before either assigns;
the first saves and executes its job, then the second replaces the handle and executes
its own. -/
def raced : Starts :=
  ((((((((Starts.init.request.request.step 0 true).step 1 true).step 0 true).step 0 true).step 0
    true).step 1 true).step 1 true).step 1 true)

theorem backup_starts_race :
    Reachable SStep Starts.init raced ∧ raced.reqs = [.started 0, .started 1] ∧
      raced.Running 0 ∧ raced.Running 1 ∧
      raced.jobStatus 0 = .inProgress ∧ raced.jobStatus 1 = .inProgress ∧
      raced.replacedInProgress = true := by
  refine ⟨.head (.request _) (.head (.request _) (.head (.step _ 0 true) (.head (.step _ 1 true)
    (.head (.step _ 0 true) (.head (.step _ 0 true) (.head (.step _ 0 true)
    (.head (.step _ 1 true) (.head (.step _ 1 true) (.head (.step _ 1 true)
    (Reachable.refl _ _)))))))))), ?_⟩
  decide

end Amc.Models.BackupRace
