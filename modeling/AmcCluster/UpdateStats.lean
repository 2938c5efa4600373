import AmcCluster.Interleaving
import Mathlib.Data.List.Nodup
import Mathlib.Data.List.Perm.Subperm

/-! `updateStats` against concurrent `AddNode` and `RemoveNodeByAddress`: it reads `c.nodes`
three times without `c.mutex` (`wg.Add`, the fan-out, the aggregation), and a `range` may or
may not visit an entry inserted meanwhile. Node keys are abstract (`κ`). -/

namespace Amc.Models.UpdateStats
open Amc

inductive Pc (κ : Type) where
  | add
  | fanOut
  | fanning (m : Nat) (start visited : List κ)
  | wait
  | aggregate
  | aggregating (m : Nat) (start visited : List κ)
  | swap
  | returned
  deriving DecidableEq, Repr

structure World (κ : Type) where
  heap : List (List κ)
  pc : Pc κ
  counter : Int
  workers : List κ
  added : Nat
  refreshed : List κ
  aggregated : List κ
  insertedMidRange : Bool
  deriving DecidableEq, Repr

variable {κ : Type} [DecidableEq κ]

def World.nodes (w : World κ) : List κ := w.heap.getLastD []

def World.cur (w : World κ) : Nat := w.heap.length - 1

def World.mapAt (w : World κ) (m : Nat) : List κ := w.heap.getD m []

def World.ranging (w : World κ) : Bool :=
  match w.pc with
  | .fanning m _ _ | .aggregating m _ _ => m == w.cur
  | _ => false

def World.spawning (w : World κ) : Bool :=
  match w.pc with
  | .fanning .. | .wait => true
  | _ => false

def World.init (nodes : List κ) : World κ := ⟨[nodes], .add, 0, [], 0, [], [], false⟩

inductive UStep : World κ → World κ → Prop
  | add (w : World κ) (h : w.pc = .add) :
    UStep w { w with pc := .fanOut, counter := w.counter + w.nodes.length,
                     added := w.added + w.nodes.length }
  | fanOut (w : World κ) (h : w.pc = .fanOut) : UStep w { w with pc := .fanning w.cur w.nodes [] }
  | spawn (w : World κ) {m : Nat} {start visited : List κ} (k : κ)
      (h : w.pc = .fanning m start visited) (hk : k ∈ w.mapAt m) (hv : k ∉ visited) :
    UStep w { w with pc := .fanning m start (k :: visited), workers := k :: w.workers,
                     refreshed := k :: w.refreshed }
  | fanEnd (w : World κ) {m : Nat} {start visited : List κ}
      (h : w.pc = .fanning m start visited) (hs : start ⊆ visited) :
    UStep w { w with pc := .wait }
  | done (w : World κ) (k : κ) (hk : k ∈ w.workers) :
    UStep w { w with workers := w.workers.erase k, counter := w.counter - 1 }
  | wait (w : World κ) (h : w.pc = .wait) (hc : w.counter = 0) : UStep w { w with pc := .aggregate }
  | aggregate (w : World κ) (h : w.pc = .aggregate) :
    UStep w { w with pc := .aggregating w.cur w.nodes [] }
  | apply (w : World κ) {m : Nat} {start visited : List κ} (k : κ)
      (h : w.pc = .aggregating m start visited) (hk : k ∈ w.mapAt m) (hv : k ∉ visited) :
    UStep w { w with pc := .aggregating m start (k :: visited), aggregated := k :: w.aggregated }
  | aggEnd (w : World κ) {m : Nat} {start visited : List κ}
      (h : w.pc = .aggregating m start visited) (hs : start ⊆ visited) :
    UStep w { w with pc := .swap }
  | swap (w : World κ) (h : w.pc = .swap) : UStep w { w with pc := .returned }

/-- A step of `updateStats`' goroutines, or an `AddNode` or a `RemoveNodeByAddress` run
concurrently. -/
inductive Step : World κ → World κ → Prop
  | upd {w w' : World κ} (h : UStep w w') : Step w w'
  | addNode (w : World κ) (k : κ) (hk : k ∉ w.nodes) :
    Step w { w with heap := w.heap.set w.cur (w.nodes ++ [k]),
                    insertedMidRange := w.insertedMidRange || w.ranging }
  | removeNode (w : World κ) (k : κ) (hk : k ∈ w.nodes) :
    Step w { w with heap := w.heap ++ [w.nodes.erase k] }

theorem reachable_step_of_upd {w w' : World κ} (h : Reachable UStep w w') : Reachable Step w w' :=
  Relation.ReflTransGen.mono (fun _ _ => Step.upd) h

/-! ## The `WaitGroup` counter -/

def Accounted (w : World κ) : Prop :=
  w.counter + w.refreshed.length = w.added + w.workers.length

theorem accounted_ustep {w w' : World κ} (hw : Accounted w) (h : UStep w w') : Accounted w' := by
  unfold Accounted at *
  cases h with
  | add => simp only [List.length]; push_cast; omega
  | spawn => simp only [List.length_cons]; push_cast; omega
  | done k hk =>
    have := List.length_pos_of_mem hk
    simp only [List.length_erase_of_mem hk]
    omega
  | _ => exact hw

/-! ## A wait that never returns -/

def Stuck (w : World κ) : Prop := w.pc = .wait ∧ w.workers = [] ∧ w.counter ≠ 0

theorem stuck_step {w w' : World κ} (hs : Stuck w) (h : Step w w') : Stuck w' := by
  obtain ⟨hpc, hwk, hc⟩ := hs
  cases h with
  | upd h =>
    cases h with
    | done k hk => simp [hwk] at hk
    | wait _ h0 => exact absurd h0 hc
    | _ => simp_all
  | _ => exact ⟨hpc, hwk, hc⟩

theorem stuck_forever {w w' : World κ} (hs : Stuck w) (h : Reachable Step w w') : Stuck w' :=
  h.invariant hs fun _ _ => stuck_step

/-! ## Runs in which the node map does not change -/

section Quiet

variable (nodes : List κ)

def PhaseOk (w : World κ) : Prop :=
  match w.pc with
  | .add => w.added = 0 ∧ w.refreshed = [] ∧ w.aggregated = []
  | .fanOut => w.added = nodes.length ∧ w.refreshed = [] ∧ w.aggregated = []
  | .fanning m start visited => m = 0 ∧ start = nodes ∧ w.refreshed = visited ∧
      visited.Nodup ∧ visited ⊆ nodes ∧ w.added = nodes.length ∧ w.aggregated = []
  | .wait | .aggregate => w.refreshed.Perm nodes ∧ w.added = nodes.length ∧ w.aggregated = []
  | .aggregating m start visited => m = 0 ∧ start = nodes ∧ w.aggregated = visited ∧
      visited.Nodup ∧ visited ⊆ nodes ∧ w.refreshed.Perm nodes ∧ w.added = nodes.length
  | .swap | .returned =>
      w.aggregated.Perm nodes ∧ w.refreshed.Perm nodes ∧ w.added = nodes.length

structure QuietInv (w : World κ) : Prop where
  heap : w.heap = [nodes]
  count : Accounted w
  idle : w.spawning = false → w.workers = []
  phase : PhaseOk nodes w

variable {nodes}

omit [DecidableEq κ] in
theorem PhaseOk.refreshed_le {w : World κ} (h : PhaseOk nodes w) :
    w.refreshed.length ≤ w.added := by
  unfold PhaseOk at h
  split at h
  · simp [h.2.1]
  · simp [h.2.1]
  · obtain ⟨-, -, hr, hnd, hsub, ha, -⟩ := h
    rw [hr, ha]
    exact (hnd.subperm hsub).length_le
  · rw [h.1.length_eq, h.2.1]
  · rw [h.1.length_eq, h.2.1]
  · obtain ⟨-, -, -, -, -, hr, ha⟩ := h
    rw [hr.length_eq, ha]
  · rw [h.2.1.length_eq, h.2.2]
  · rw [h.2.1.length_eq, h.2.2]

omit [DecidableEq κ] in
theorem perm_of_subset {visited : List κ} (hnd : nodes.Nodup) (hv : visited.Nodup)
    (h₁ : visited ⊆ nodes) (h₂ : nodes ⊆ visited) : visited.Perm nodes :=
  (hv.subperm h₁).antisymm (hnd.subperm h₂)

theorem QuietInv.ustep (hnd : nodes.Nodup) {w w' : World κ} (hi : QuietInv nodes w)
    (h : UStep w w') : QuietInv nodes w' := by
  obtain ⟨hheap, hcount, hidle, hphase⟩ := hi
  have hc := accounted_ustep hcount h
  have hnodes : w.nodes = nodes := by simp [World.nodes, hheap]
  have hcur : w.cur = 0 := by simp [World.cur, hheap]
  have hmap : w.mapAt 0 = nodes := by simp [World.mapAt, hheap]
  cases h with
  | fanEnd hpc hs =>
    simp only [PhaseOk, hpc] at hphase
    obtain ⟨-, rfl, hr, hnd', hsub, ha, hag⟩ := hphase
    exact ⟨hheap, hc, nofun, hr ▸ perm_of_subset hnd hnd' hsub hs, ha, hag⟩
  | done k hk => exact ⟨hheap, hc, fun hs => by simp [hidle hs] at hk, hphase⟩
  | wait hpc h0 =>
    simp only [PhaseOk, hpc] at hphase
    obtain ⟨hr, ha, hag⟩ := hphase
    have : w.workers.length = 0 := by
      unfold Accounted at hcount
      rw [hr.length_eq, ha, h0] at hcount
      omega
    exact ⟨hheap, hc, fun _ => List.eq_nil_of_length_eq_zero this, hr, ha, hag⟩
  | aggEnd hpc hs =>
    simp only [PhaseOk, hpc] at hphase
    obtain ⟨-, rfl, hag, hnd', hsub, hr, ha⟩ := hphase
    exact ⟨hheap, hc, fun _ => hidle (by simp [World.spawning, hpc]),
      hag ▸ perm_of_subset hnd hnd' hsub hs, hr, ha⟩
  | _ =>
    refine ⟨hheap, hc, ?_, ?_⟩ <;>
      simp_all [PhaseOk, World.spawning, List.cons_subset]

theorem quietInv_of_reachable (hnd : nodes.Nodup) {w : World κ}
    (h : Reachable UStep (World.init nodes) w) : QuietInv nodes w :=
  h.invariant ⟨rfl, rfl, fun _ => rfl, rfl, rfl, rfl⟩ fun _ _ hi => hi.ustep hnd

end Quiet

/-! ## Quiet runs return -/

def World.unvisited (w : World κ) (m : Nat) (visited : List κ) : Nat :=
  ((w.mapAt m).filter (· ∉ visited)).length

/-- What is left of `updateStats`: its own steps still to come, counting each entry the
fan-out has still to walk twice (the `go` and its `wg.Done()`), and the node goroutines
still running. -/
def World.work (w : World κ) : Nat :=
  w.workers.length + match w.pc with
  | .add => 7 + 3 * (w.mapAt w.cur).length
  | .fanOut => 6 + 3 * (w.mapAt w.cur).length
  | .fanning m _ visited => 5 + (w.mapAt w.cur).length + 2 * w.unvisited m visited
  | .wait => 4 + (w.mapAt w.cur).length
  | .aggregate => 3 + (w.mapAt w.cur).length
  | .aggregating m _ visited => 2 + w.unvisited m visited
  | .swap => 1
  | .returned => 0

theorem World.unvisited_nil (w : World κ) (m : Nat) : w.unvisited m [] = (w.mapAt m).length := by
  simp [World.unvisited]

theorem World.unvisited_cons_lt (w : World κ) {m : Nat} {k : κ} {visited : List κ}
    (hk : k ∈ w.mapAt m) (hv : k ∉ visited) : w.unvisited m (k :: visited) < w.unvisited m visited := by
  have e : (w.mapAt m).filter (· ∉ k :: visited) =
      ((w.mapAt m).filter (· ∉ visited)).filter (· ≠ k) := by
    simp only [List.filter_filter, List.mem_cons, not_or]
    congr 1
    funext x
    simp [and_comm]
  rw [World.unvisited, World.unvisited, e, List.length_filter_lt_length_iff_exists]
  exact ⟨k, List.mem_filter.mpr ⟨hk, by simpa using hv⟩, by simp⟩

theorem work_ustep {w w' : World κ} (h : UStep w w') : w'.work < w.work := by
  cases h with
  | add h => simp only [World.work, World.mapAt, World.cur, h]; omega
  | fanOut h => simp only [World.work, World.unvisited_nil, World.mapAt, World.cur, h]; omega
  | spawn k h hk hv =>
    have := w.unvisited_cons_lt hk hv
    simp only [World.work, World.unvisited, World.mapAt, World.cur, h, List.length_cons] at this ⊢
    omega
  | fanEnd h => simp only [World.work, World.mapAt, World.cur, h]; omega
  | done k hk =>
    have := List.length_pos_of_mem hk
    simp only [World.work, World.mapAt, World.cur, World.unvisited, List.length_erase_of_mem hk]
    omega
  | wait h => simp only [World.work, World.mapAt, World.cur, h]; omega
  | aggregate h => simp only [World.work, World.unvisited_nil, World.mapAt, World.cur, h]; omega
  | apply k h hk hv =>
    have := w.unvisited_cons_lt hk hv
    simp only [World.work, World.unvisited, World.mapAt, World.cur, h] at this ⊢
    omega
  | aggEnd h => simp only [World.work, h]; omega
  | swap h => simp only [World.work, h]; omega

theorem uStep_wellFounded : WellFounded (fun w' w : World κ => UStep w w') :=
  Subrelation.wf (fun h => work_ustep h) (measure World.work).wf

section Quiet

variable {nodes : List κ}

omit [DecidableEq κ] in
theorem exists_unvisited {start visited : List κ} (h : ¬start ⊆ visited) :
    ∃ k ∈ start, k ∉ visited := by
  simpa [List.subset_def] using h

omit [DecidableEq κ] in
theorem QuietInv.counter_wait {w : World κ} (hi : QuietInv nodes w) (hpc : w.pc = .wait) :
    w.counter = w.workers.length := by
  have hc := hi.count
  have hp := hi.phase
  simp only [PhaseOk, hpc] at hp
  unfold Accounted at hc
  rw [hp.1.length_eq, hp.2.1] at hc
  omega

theorem quiet_progress (hnd : nodes.Nodup) {w : World κ}
    (hr : Reachable UStep (World.init nodes) w) (hne : w.pc ≠ .returned) : ∃ w', UStep w w' := by
  have hi := quietInv_of_reachable hnd hr
  have hmap : w.mapAt 0 = nodes := by simp [World.mapAt, hi.heap]
  have hp := hi.phase
  match hpc : w.pc with
  | .add => exact ⟨_, .add w hpc⟩
  | .fanOut => exact ⟨_, .fanOut w hpc⟩
  | .fanning m start visited =>
    by_cases hs : start ⊆ visited
    · exact ⟨_, .fanEnd w hpc hs⟩
    obtain ⟨k, hk, hv⟩ := exists_unvisited hs
    simp only [PhaseOk, hpc] at hp
    obtain ⟨rfl, rfl, -⟩ := hp
    exact ⟨_, .spawn w k hpc (hmap ▸ hk) hv⟩
  | .wait =>
    match hw : w.workers with
    | k :: _ => exact ⟨_, .done w k (hw ▸ List.mem_cons_self k _)⟩
    | [] => exact ⟨_, .wait w hpc (by simpa [hw] using hi.counter_wait hpc)⟩
  | .aggregate => exact ⟨_, .aggregate w hpc⟩
  | .aggregating m start visited =>
    by_cases hs : start ⊆ visited
    · exact ⟨_, .aggEnd w hpc hs⟩
    obtain ⟨k, hk, hv⟩ := exists_unvisited hs
    simp only [PhaseOk, hpc] at hp
    obtain ⟨rfl, rfl, -⟩ := hp
    exact ⟨_, .apply w k hpc (hmap ▸ hk) hv⟩
  | .swap => exact ⟨_, .swap w hpc⟩
  | .returned => exact absurd hpc hne

theorem updateStats_quiet_returns (hnd : nodes.Nodup) :
    WellFounded (fun w' w : World κ => UStep w w') ∧
      ∀ w, Reachable UStep (World.init nodes) w →
        (w.workers.length : Int) ≤ w.counter ∧ (w.pc ≠ .returned → ∃ w', UStep w w') ∧
        (w.pc = .returned → w.workers = [] ∧ w.counter = 0 ∧ w.refreshed.Perm nodes ∧
          w.aggregated.Perm nodes) := by
  refine ⟨uStep_wellFounded, fun w hr => ?_⟩
  have hi := quietInv_of_reachable hnd hr
  have hc := hi.count
  have hle := hi.phase.refreshed_le
  unfold Accounted at hc
  refine ⟨by omega, quiet_progress hnd hr, fun hpc => ?_⟩
  have hidle := hi.idle (by simp [World.spawning, hpc])
  have hp := hi.phase
  simp only [PhaseOk, hpc] at hp
  rw [hidle, hp.2.1.length_eq, hp.2.2, List.length_nil] at hc
  exact ⟨hidle, by omega, hp.2.1, hp.1⟩

end Quiet

theorem updateStats_quiet_returns_two :
    ([0, 1] : List Nat).Nodup ∧ WellFounded (fun w' w : World Nat => UStep w w') ∧
      ∀ w, Reachable UStep (World.init [0, 1]) w →
        (w.workers.length : Int) ≤ w.counter ∧ (w.pc ≠ .returned → ∃ w', UStep w w') ∧
        (w.pc = .returned → w.workers = [] ∧ w.counter = 0 ∧ w.refreshed.Perm [0, 1] ∧
          w.aggregated.Perm [0, 1]) :=
  ⟨by decide, updateStats_quiet_returns (by decide)⟩

/-! ## The two loops, run to the end -/

theorem reach_spawn_all {m : Nat} {start : List κ} :
    ∀ (ks visited : List κ) (w : World κ), w.pc = .fanning m start visited → ks.Nodup →
      (∀ k ∈ ks, k ∈ w.mapAt m ∧ k ∉ visited) →
      Reachable UStep w { w with pc := .fanning m start (ks.reverse ++ visited),
                                 workers := ks.reverse ++ w.workers,
                                 refreshed := ks.reverse ++ w.refreshed }
  | [], _, w, h, _, _ => by
    simp only [List.reverse_nil, List.nil_append, ← h]
    exact Relation.ReflTransGen.refl
  | k :: ks, visited, w, h, hnd, hks => by
    rw [List.nodup_cons] at hnd
    have ih := reach_spawn_all ks (k :: visited)
      { w with pc := .fanning m start (k :: visited), workers := k :: w.workers,
               refreshed := k :: w.refreshed } rfl hnd.2 fun k' hk' =>
      ⟨(hks k' (.tail _ hk')).1, by
        simpa [(ne_of_mem_of_not_mem hk' hnd.1)] using (hks k' (.tail _ hk')).2⟩
    simp only [List.reverse_cons, List.append_assoc, List.singleton_append]
    exact .head (UStep.spawn w k h (hks k (.head _)).1 (hks k (.head _)).2) ih

theorem reach_apply_all {m : Nat} {start : List κ} :
    ∀ (ks visited : List κ) (w : World κ), w.pc = .aggregating m start visited → ks.Nodup →
      (∀ k ∈ ks, k ∈ w.mapAt m ∧ k ∉ visited) →
      Reachable UStep w { w with pc := .aggregating m start (ks.reverse ++ visited),
                                 aggregated := ks.reverse ++ w.aggregated }
  | [], _, w, h, _, _ => by
    simp only [List.reverse_nil, List.nil_append, ← h]
    exact Relation.ReflTransGen.refl
  | k :: ks, visited, w, h, hnd, hks => by
    rw [List.nodup_cons] at hnd
    have ih := reach_apply_all ks (k :: visited)
      { w with pc := .aggregating m start (k :: visited), aggregated := k :: w.aggregated }
      rfl hnd.2 fun k' hk' =>
      ⟨(hks k' (.tail _ hk')).1, by
        simpa [(ne_of_mem_of_not_mem hk' hnd.1)] using (hks k' (.tail _ hk')).2⟩
    simp only [List.reverse_cons, List.append_assoc, List.singleton_append]
    exact .head (UStep.apply w k h (hks k (.head _)).1 (hks k (.head _)).2) ih

theorem reach_done_all (rest : List κ) : ∀ (ks : List κ) (w : World κ), w.workers = ks ++ rest →
    Reachable UStep w { w with workers := rest, counter := w.counter - ks.length }
  | [], w, h => by
    rw [List.nil_append] at h
    have e : w.counter - (([] : List κ).length : Int) = w.counter := by simp
    rw [e, ← h]
    exact Relation.ReflTransGen.refl
  | k :: ks, w, h => by
    have ih := reach_done_all rest ks { w with workers := w.workers.erase k, counter := w.counter - 1 }
      (by rw [h]; exact List.erase_cons_head k _)
    have e : w.counter - ((k :: ks).length : Int) = w.counter - 1 - ks.length := by
      simp only [List.length_cons]; omega
    rw [e]
    exact .head (UStep.done w k (by rw [h]; exact .head _)) ih

/-! ## Interleavings that break `updateStats` -/

section Races

variable {nodes : List κ} (hnd : nodes.Nodup)
include hnd

theorem reach_counter_neg {k : κ} (hk : k ∉ nodes) :
    ∃ w, Reachable Step (World.init nodes) w ∧ w.counter < 0 := by
  have hnd' : (nodes ++ [k]).Nodup := by simpa using hnd.concat hk
  refine ⟨_, .head (.upd (.add _ rfl)) (.head (.addNode _ k hk) (.head (.upd (.fanOut _ rfl))
    (.trans (reachable_step_of_upd (reach_spawn_all (nodes ++ [k]) [] _ rfl hnd' ?_))
      (reachable_step_of_upd (reach_done_all [] _ _ (List.append_nil _).symm))))), ?_⟩
  · intro x hx
    exact ⟨by simpa [World.mapAt, World.cur, World.nodes, World.init] using hx, List.not_mem_nil x⟩
  · simp only [World.init, World.nodes, List.getLastD, List.getLast_singleton,
      List.length_append, List.length_reverse, List.length_singleton, List.length_nil]
    omega

theorem reach_stuck {a : κ} (ha : a ∈ nodes) :
    ∃ w, Reachable Step (World.init nodes) w ∧ Stuck w := by
  refine ⟨_, .head (.upd (.add _ rfl)) (.head (.removeNode _ a ha) (.head (.upd (.fanOut _ rfl))
    (.trans (reachable_step_of_upd (reach_spawn_all (nodes.erase a) [] _ rfl (hnd.erase a) ?_))
      (.head (.upd (.fanEnd _ rfl ?_))
        (reachable_step_of_upd (reach_done_all [] _ _ (List.append_nil _).symm)))))), ?_⟩
  · intro x hx
    exact ⟨by simpa [World.mapAt, World.cur, World.nodes, World.init] using hx, List.not_mem_nil x⟩
  · intro x hx
    simpa [World.nodes, World.init] using hx
  · have := List.length_pos_of_mem ha
    refine ⟨rfl, rfl, ?_⟩
    simp [World.nodes, World.init, List.length_erase_of_mem ha]
    omega

theorem reach_aggregates_unrefreshed {k : κ} (hk : k ∉ nodes) :
    ∃ w, Reachable Step (World.init nodes) w ∧ w.pc = .swap ∧ k ∈ w.aggregated ∧
      k ∉ w.refreshed := by
  have hnd' : (nodes ++ [k]).Nodup := by simpa using hnd.concat hk
  refine ⟨_, .head (.upd (.add _ rfl)) (.head (.upd (.fanOut _ rfl))
    (.trans (reachable_step_of_upd (reach_spawn_all nodes [] _ rfl hnd ?_))
    (.head (.upd (.fanEnd _ rfl ?_))
    (.trans (reachable_step_of_upd (reach_done_all [] _ _ (List.append_nil _).symm))
    (.head (.upd (.wait _ rfl ?_)) (.head (.addNode _ k hk) (.head (.upd (.aggregate _ rfl))
    (.trans (reachable_step_of_upd (reach_apply_all (nodes ++ [k]) [] _ rfl hnd' ?_))
    (.head (.upd (.aggEnd _ rfl ?_)) (Reachable.refl _ _)))))))))), rfl, ?_, ?_⟩
  all_goals simp [World.mapAt, World.cur, World.nodes, World.init, List.subset_def, hk, or_comm]

omit hnd in
theorem reach_insert_midRange (k : κ) (hk : k ∉ nodes) :
    ∃ w, Reachable Step (World.init nodes) w ∧ w.insertedMidRange = true :=
  ⟨_, .head (.upd (.add _ rfl)) (.head (.upd (.fanOut _ rfl))
    (.head (.addNode _ k hk) (Reachable.refl _ _))), rfl⟩

theorem updateStats_races (a k : κ) (ha : a ∈ nodes) (hk : k ∉ nodes) :
    (∃ w, Reachable Step (World.init nodes) w ∧ w.counter < 0) ∧
    (∃ w, Reachable Step (World.init nodes) w ∧ ∀ w', Reachable Step w w' → w'.pc = .wait) ∧
    (∃ w, Reachable Step (World.init nodes) w ∧ w.pc = .swap ∧ k ∈ w.aggregated ∧
      k ∉ w.refreshed) ∧
    ∃ w, Reachable Step (World.init nodes) w ∧ w.insertedMidRange = true := by
  obtain ⟨w, hw, hs⟩ := reach_stuck hnd ha
  exact ⟨reach_counter_neg hnd hk, ⟨w, hw, fun _ h => (stuck_forever hs h).1⟩,
    reach_aggregates_unrefreshed hnd hk, reach_insert_midRange k hk⟩

end Races

theorem updateStats_races_one_node :
    ([0] : List Nat).Nodup ∧ 0 ∈ [0] ∧ 1 ∉ [0] ∧
    ((∃ w, Reachable Step (World.init [0]) w ∧ w.counter < 0) ∧
    (∃ w, Reachable Step (World.init [0]) w ∧ ∀ w', Reachable Step w w' → w'.pc = .wait) ∧
    (∃ w, Reachable Step (World.init [0]) w ∧ w.pc = .swap ∧ 1 ∈ w.aggregated ∧
      1 ∉ w.refreshed) ∧
    ∃ w, Reachable Step (World.init [0]) w ∧ w.insertedMidRange = true) :=
  ⟨by decide, by decide, by decide, updateStats_races (by decide) 0 1 (by decide) (by decide)⟩

end Amc.Models.UpdateStats
