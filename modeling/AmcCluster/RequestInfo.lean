import AmcCluster.Cluster
import AmcCluster.Fold
import AmcCluster.Interleaving

/-! `RequestInfoAll(cmd)`: a fan-out over the `Nodes()` snapshot and a fan-in through a
channel buffered to its size. `node.RequestInfo` (`node.go`, not among the sources) is a
parameter, and the goroutines deliver in any order. A node is named by its key in
`c.nodes`, which never holds `nil`. -/

namespace Amc.Models.RequestInfo
open Amc
open scoped List

abbrev Outcome := Except String (AList (fun _ : String => String))

structure NodeCommand where
  node : Host
  res : Outcome

def errorText : Outcome → Option String
  | .error e => some e
  | .ok _ => none

/-- What the drain loop leaves in `res[r.Node]`: `""`, overwritten by the error's text, or by
`r.Res[cmd]` when the response and that entry are non-empty. -/
def resultText (cmd : String) : Outcome → String
  | .error e => e
  | .ok r =>
    if 0 < r.entries.length ∧ 0 < ((r.lookup cmd).getD "").length then (r.lookup cmd).getD ""
    else ""

theorem resultText_ok (cmd : String) (r : AList (fun _ : String => String)) :
    resultText cmd (.ok r) = (r.lookup cmd).getD "" := by
  rw [resultText]
  split_ifs with hg
  · rfl
  · cases hl : r.lookup cmd with
    | none => rfl
    | some v =>
      obtain ⟨_ | ⟨c, l⟩⟩ := v
      · rfl
      · refine (hg ⟨List.length_pos_of_mem (List.mem_dlookup_iff r.nodupKeys |>.mp hl), ?_⟩).elim
        simp [hl, String.length]

def drainStep (cmd : String) (acc : AList (fun _ : Host => String) × List String)
    (r : NodeCommand) : AList (fun _ : Host => String) × List String :=
  (acc.1.insert r.node (resultText cmd r.res), acc.2 ++ (errorText r.res).toList)

def joinErrors (errs : List String) : Option String :=
  if 0 < errs.length then some (", ".intercalate errs) else none

theorem errorText_eq_none {o : Outcome} : errorText o = none ↔ ∃ r, o = .ok r := by
  cases o <;> simp [errorText]

theorem joinErrors_eq_none (errs : List String) : joinErrors errs = none ↔ errs = [] := by
  cases errs <;> simp [joinErrors]

theorem joinErrors_eq_some {errs : List String} {t : String} (h : joinErrors errs = some t) :
    t = ", ".intercalate errs := by
  rw [joinErrors] at h
  split_ifs at h
  exact (Option.some.inj h).symm

/-! ### The drain loop -/

def NodeCommand.entry (r : NodeCommand) : Sigma fun _ : Host => Outcome := ⟨r.node, r.res⟩

theorem keys_map_entry (arr : List NodeCommand) :
    (arr.map NodeCommand.entry).keys = arr.map NodeCommand.node := by
  rw [List.keys, List.map_map]
  rfl

theorem drain_errs (cmd : String) (arr : List NodeCommand) (acc) :
    (arr.foldl (drainStep cmd) acc).2 = acc.2 ++ arr.filterMap (fun r => errorText r.res) := by
  induction arr generalizing acc with
  | nil => simp
  | cons r arr ih =>
    rw [List.foldl_cons, ih, List.filterMap_cons]
    cases h : errorText r.res <;> simp [drainStep, h]

theorem drain_res (cmd : String) (arr : List NodeCommand) (acc) :
    (arr.foldl (drainStep cmd) acc).1 =
      (arr.map NodeCommand.entry).foldl (fun d e => d.insert e.1 (resultText cmd e.2)) acc.1 := by
  induction arr generalizing acc with
  | nil => rfl
  | cons r arr ih => exact ih (drainStep cmd acc r)

section Drain
variable {cmd : String} {requestInfo : Host → Outcome} {nodes : List Host}
  {arr : List NodeCommand}

theorem drain_complete_lookup (hnd : nodes.Nodup) (hperm : arr.map NodeCommand.node ~ nodes)
    (hres : ∀ r ∈ arr, r.res = requestInfo r.node) (h : Host) :
    (arr.foldl (drainStep cmd) (∅, [])).1.lookup h =
      if h ∈ nodes then some (resultText cmd (requestInfo h)) else none := by
  have hkeys : (arr.map NodeCommand.entry).NodupKeys := by
    rw [List.NodupKeys, keys_map_entry]
    exact hperm.nodup_iff.mpr hnd
  rw [drain_res, lookup_foldl_keywise (fun d k v => d.insert k (resultText cmd v))
    (fun _ v => some (resultText cmd v)) (fun _ _ _ _ hk => AList.lookup_insert_ne hk)
    (fun _ _ _ => AList.lookup_insert _) _ hkeys]
  split_ifs with hh
  · obtain ⟨r, hr, rfl⟩ := List.mem_map.mp (hperm.mem_iff.mpr hh)
    rw [List.mem_dlookup hkeys (List.mem_map_of_mem NodeCommand.entry hr), hres r hr]
  · rw [List.dlookup_eq_none.mpr (by rwa [keys_map_entry, hperm.mem_iff])]
    rfl

theorem drain_complete_errs (hperm : arr.map NodeCommand.node ~ nodes)
    (hres : ∀ r ∈ arr, r.res = requestInfo r.node) :
    (arr.foldl (drainStep cmd) (∅, [])).2 ~ nodes.filterMap (fun h => errorText (requestInfo h)) := by
  rw [drain_errs, List.nil_append]
  have hmap : arr.filterMap (fun r => errorText r.res) =
      (arr.map NodeCommand.node).filterMap (fun h => errorText (requestInfo h)) := by
    rw [List.filterMap_map]
    exact List.filterMap_congr fun r hr => by simp [hres r hr]
  exact hmap ▸ hperm.filterMap _

end Drain

/-! ### The fan-out and the fan-in -/

inductive MainPc where
  | spawning (rest : List Host)
  | waiting
  | draining
  | returned
  deriving DecidableEq, Repr

def MainPc.pending : MainPc → List Host
  | .spawning rest => rest
  | _ => []

def MainPc.rank : MainPc → Nat
  | .spawning _ => 3
  | .waiting => 2
  | .draining => 1
  | .returned => 0

structure Fan where
  main : MainPc
  counter : Int
  workers : List Host
  buffer : List NodeCommand
  closed : Bool
  drained : AList (fun _ : Host => String) × List String
  received : List NodeCommand

def Fan.init (nodes : List Host) : Fan := ⟨.spawning nodes, 0, [], [], false, (∅, []), []⟩

section
variable (cmd : String) (requestInfo : Host → Outcome) (size : Nat)

/-- One step of `RequestInfoAll(cmd)` on a snapshot of `size` nodes, of the caller or of one
node's goroutine. `ch` holds `size` values, and a send waits while it is full. -/
inductive FStep : Fan → Fan → Prop
  | spawn (s : Fan) {h : Host} {rest : List Host} (hpc : s.main = .spawning (h :: rest)) :
    FStep s { s with main := .spawning rest, counter := s.counter + 1, workers := h :: s.workers }
  | rangeEnd (s : Fan) (hpc : s.main = .spawning []) : FStep s { s with main := .waiting }
  | send (s : Fan) {h : Host} (hw : h ∈ s.workers) (hroom : s.buffer.length < size) :
    FStep s { s with workers := s.workers.erase h, buffer := s.buffer ++ [⟨h, requestInfo h⟩],
                     counter := s.counter - 1 }
  | wait (s : Fan) (hpc : s.main = .waiting) (hzero : s.counter = 0) :
    FStep s { s with main := .draining, closed := true }
  | receive (s : Fan) {r : NodeCommand} {rest : List NodeCommand} (hpc : s.main = .draining)
      (hbuf : s.buffer = r :: rest) :
    FStep s { s with buffer := rest, drained := drainStep cmd s.drained r,
                     received := s.received ++ [r] }
  | drainEnd (s : Fan) (hpc : s.main = .draining) (hbuf : s.buffer = [])
      (hclosed : s.closed = true) :
    FStep s { s with main := .returned }

end

def Fan.places (s : Fan) : List Host :=
  (s.received ++ s.buffer).map NodeCommand.node ++ (s.workers ++ s.main.pending)

def Fan.work (s : Fan) : Nat :=
  3 * s.main.pending.length + 2 * s.workers.length + s.buffer.length + s.main.rank

def Delivered (cmd : String) (requestInfo : Host → Outcome) (s : Fan) : Prop :=
  (∀ r ∈ s.received ++ s.buffer, r.res = requestInfo r.node) ∧
    s.drained = s.received.foldl (drainStep cmd) (∅, [])

structure Phase (s : Fan) : Prop where
  counter : s.counter = s.workers.length
  closed : s.closed = true ↔ s.main = .draining ∨ s.main = .returned
  quiet : s.closed = true → s.workers = []
  drainedAll : s.main = .returned → s.buffer = []

section Steps
variable {cmd : String} {requestInfo : Host → Outcome} {size : Nat} {s s' : Fan}

theorem places_step (h : FStep cmd requestInfo size s s') : s'.places ~ s.places := by
  cases h with
  | spawn hpc =>
    simpa [Fan.places, hpc, MainPc.pending, List.perm_append_left_iff] using List.perm_middle.symm
  | send hw =>
    simpa [Fan.places, List.perm_append_left_iff] using
      ((List.perm_cons_erase hw).append_right _).symm
  | receive _ hbuf => simp [Fan.places, hbuf]
  | _ hpc => simp [Fan.places, hpc, MainPc.pending]

theorem work_step (h : FStep cmd requestInfo size s s') : s'.work < s.work := by
  cases h with
  | send hw =>
    have := List.length_pos_of_mem hw
    simp only [Fan.work, List.length_erase_of_mem hw, List.length_append, List.length_singleton]
    omega
  | spawn hpc =>
    simp only [Fan.work, hpc, MainPc.pending, MainPc.rank, List.length_cons]
    omega
  | receive _ hbuf => simp [Fan.work, hbuf]
  | _ hpc => simp [Fan.work, hpc, MainPc.pending, MainPc.rank]

theorem delivered_step (hs : Delivered cmd requestInfo s)
    (h : FStep cmd requestInfo size s s') : Delivered cmd requestInfo s' := by
  obtain ⟨hres, hdr⟩ := hs
  cases h with
  | send hw =>
    refine ⟨fun r hr => ?_, hdr⟩
    rcases List.mem_append.mp (List.append_assoc .. ▸ hr) with hr | hr
    · exact hres r hr
    · rw [List.eq_of_mem_singleton hr]
  | receive _ hbuf =>
    exact ⟨by simpa [hbuf] using hres, by simp [hdr, List.foldl_append]⟩
  | _ => exact ⟨hres, hdr⟩

theorem phase_step (hs : Phase s) (h : FStep cmd requestInfo size s s') : Phase s' := by
  obtain ⟨hc, hcl, hq, hd⟩ := hs
  cases h with
  | spawn hpc =>
    exact ⟨by simp [hc], by simp [hcl, hpc], fun h' => absurd (hcl.mp h') (by simp [hpc]), nofun⟩
  | rangeEnd hpc =>
    exact ⟨hc, by simp [hcl, hpc], fun h' => absurd (hcl.mp h') (by simp [hpc]), nofun⟩
  | send hw =>
    have hne := List.ne_nil_of_mem hw
    refine ⟨?_, hcl, fun h' => absurd (hq h') hne, fun h' => absurd (hq (hcl.mpr (.inr h'))) hne⟩
    have := List.length_pos_of_mem hw
    simp only [hc, List.length_erase_of_mem hw]
    omega
  | wait hpc hzero =>
    exact ⟨hc, by simp, fun _ => show s.workers = [] from List.length_eq_zero.mp (by omega), nofun⟩
  | receive hpc => exact ⟨hc, hcl, hq, by simp [hpc]⟩
  | drainEnd hpc hbuf hclosed => exact ⟨hc, by simp [hclosed], fun _ => hq hclosed, fun _ => hbuf⟩

end Steps

section Runs
variable {cmd : String} {requestInfo : Host → Outcome} {size : Nat} {nodes : List Host}
  {s : Fan}

theorem fStep_wellFounded : WellFounded (fun s' s => FStep cmd requestInfo size s s') :=
  Subrelation.wf (fun h => work_step h) (measure Fan.work).wf

theorem fan_invariant (h : Reachable (FStep cmd requestInfo size) (Fan.init nodes) s) :
    s.places ~ nodes ∧ Delivered cmd requestInfo s ∧ Phase s :=
  @Reachable.invariant _ _ (fun s => s.places ~ nodes ∧ Delivered cmd requestInfo s ∧ Phase s)
    _ _ h ⟨by simp [Fan.places, Fan.init, MainPc.pending], by simp [Delivered, Fan.init],
      ⟨rfl, by simp [Fan.init], nofun, nofun⟩⟩
    fun _ _ ⟨hp, hd, hph⟩ hs => ⟨(places_step hs).trans hp, delivered_step hd hs, phase_step hph hs⟩

theorem room_of_running (hp : s.places ~ nodes) {h : Host} (hw : h ∈ s.workers) :
    s.buffer.length < nodes.length := by
  have hlen := hp.length_eq
  have := List.length_pos_of_mem hw
  simp only [Fan.places, List.length_append, List.length_map] at hlen
  omega

theorem fan_progress (hr : Reachable (FStep cmd requestInfo nodes.length) (Fan.init nodes) s)
    (hne : s.main ≠ .returned) : ∃ s', FStep cmd requestInfo nodes.length s s' := by
  obtain ⟨hp, -, hph⟩ := fan_invariant hr
  match hm : s.main, hw : s.workers, hb : s.buffer with
  | .spawning (_ :: _), _, _ => exact ⟨_, .spawn s hm⟩
  | .spawning [], _, _ => exact ⟨_, .rangeEnd s hm⟩
  | .waiting, [], _ => exact ⟨_, .wait s hm (by rw [hph.counter, hw]; rfl)⟩
  | .waiting, h :: _, _ =>
    have hmem : h ∈ s.workers := by simp [hw]
    exact ⟨_, .send s hmem (room_of_running hp hmem)⟩
  | .draining, _, _ :: _ => exact ⟨_, .receive s hm hb⟩
  | .draining, _, [] => exact ⟨_, .drainEnd s hm hb (hph.closed.mpr (.inl hm))⟩
  | .returned, _, _ => exact absurd hm hne

theorem send_ready (hr : Reachable (FStep cmd requestInfo size) (Fan.init nodes) s) {h : Host}
    (hw : h ∈ s.workers) : s.buffer.length < nodes.length ∧ s.closed = false := by
  obtain ⟨hp, -, hph⟩ := fan_invariant hr
  exact ⟨room_of_running hp hw, Bool.eq_false_iff.mpr fun hcl => by simp [hph.quiet hcl] at hw⟩

theorem returned_result (hnd : nodes.Nodup)
    (hr : Reachable (FStep cmd requestInfo size) (Fan.init nodes) s) (hret : s.main = .returned) :
    (∀ h, s.drained.1.lookup h =
      if h ∈ nodes then some (resultText cmd (requestInfo h)) else none) ∧
    s.drained.2 ~ nodes.filterMap (fun h => errorText (requestInfo h)) := by
  obtain ⟨hp, ⟨hres, hdr⟩, hph⟩ := fan_invariant hr
  have hb := hph.drainedAll hret
  have hw := hph.quiet (hph.closed.mpr (.inr hret))
  have hperm : s.received.map NodeCommand.node ~ nodes := by
    simpa [Fan.places, hb, hw, hret, MainPc.pending] using hp
  have hres' : ∀ r ∈ s.received, r.res = requestInfo r.node :=
    fun r hr => hres r (List.mem_append_left _ hr)
  rw [hdr]
  exact ⟨drain_complete_lookup hnd hperm hres', drain_complete_errs hperm hres'⟩

end Runs

theorem requestInfoAll_spec (c : Cluster) (cmd : String) (requestInfo : Host → Outcome) :
    WellFounded (fun s' s => FStep cmd requestInfo c.Nodes.length s s') ∧
    ∀ s, Reachable (FStep cmd requestInfo c.Nodes.length) (Fan.init c.nodes.keys) s →
      (∀ h ∈ s.workers, s.buffer.length < c.Nodes.length ∧ s.closed = false) ∧
      (s.main ≠ .returned → ∃ s', FStep cmd requestInfo c.Nodes.length s s') ∧
      (s.main = .returned →
        (∀ h, h ∈ s.drained.1 ↔ h ∈ c.nodes.keys) ∧
        (∀ h ∈ c.nodes.keys, s.drained.1.lookup h = some (match requestInfo h with
          | .error e => e
          | .ok r => (r.lookup cmd).getD "")) ∧
        (joinErrors s.drained.2 = none ↔ ∀ h ∈ c.nodes.keys, ∃ r, requestInfo h = .ok r) ∧
        ∀ t, joinErrors s.drained.2 = some t → ∃ errs,
          errs ~ c.nodes.keys.filterMap (fun h => match requestInfo h with
            | .error e => some e
            | .ok _ => none) ∧
            t = ", ".intercalate errs) := by
  have hlen : c.Nodes.length = c.nodes.keys.length := by
    simp [Cluster.Nodes, AList.keys, List.keys]
  rw [hlen]
  refine ⟨fStep_wellFounded, fun s hr => ⟨fun _ => send_ready hr, fan_progress hr, fun hret => ?_⟩⟩
  obtain ⟨hlook, herrs⟩ := returned_result c.nodes.keys_nodup hr hret
  refine ⟨fun h => ?_, fun h hh => ?_, ?_, fun t ht => ⟨_, herrs, joinErrors_eq_some ht⟩⟩
  · rw [← AList.lookup_isSome, hlook]
    split_ifs with hh <;> simp [hh]
  · rw [hlook, if_pos hh]
    cases requestInfo h with
    | error e => rfl
    | ok r => rw [resultText_ok]
  · rw [joinErrors_eq_none, ← List.length_eq_zero, herrs.length_eq, List.length_eq_zero,
      List.filterMap_eq_nil_iff]
    exact forall₂_congr fun h _ => errorText_eq_none

end Amc.Models.RequestInfo
