import AmcCluster.Cluster
import AmcCluster.Interleaving

/-! `RemoveNodeByAddress` beside polls of the nodes: it tests the node's status, then takes
`c.mutex` and drops the node with no second test. -/

namespace Amc.Models.RemoveRace
open Amc

/-- The part of `RemoveNodeByAddress(address)` before `c.mutex.Lock()`: `FindNodeByAddress`
and the status test, as one step. On success it gives the key of the node found: Go keeps
the node's pointer, which no other key of the map holds. -/
def removeTest (c : Cluster) (address : String) : Except String Host :=
  match c.nodes.entries.find? (·.2.address = address) with
  | none => .error s!"Node {address} not found."
  | some ⟨h, node⟩ =>
    if node.status = .on then
      .error s!"Node {address} is active. Only inactive nodes can be removed."
    else .ok h

inductive RemovePc where
  | test
  | lock (h : Host)
  | returned (err : Option String)
  deriving DecidableEq, Repr

def RemovePc.ofTest : Except String Host → RemovePc
  | .error e => .returned (some e)
  | .ok h => .lock h

structure Removal where
  cluster : Cluster
  pc : RemovePc
  dropped : Option (Host × NodeStatus)

inductive RStep (address : String) : Removal → Removal → Prop
  | test {s : Removal} (hs : s.pc = .test) :
      RStep address s { s with pc := .ofTest (removeTest s.cluster address) }
  | drop {s : Removal} {h : Host} (hs : s.pc = .lock h) :
      RStep address s { cluster := { s.cluster with nodes := s.cluster.nodes.erase h },
                        pc := .returned none,
                        dropped := (s.cluster.nodes.lookup h).map fun n => (h, n.status) }
  | poll {s : Removal} {h : Host} {n : Node} (n' : Node)
      (hn : s.cluster.nodes.lookup h = some n) (haddr : n'.address = n.address) :
      RStep address s { s with cluster := { s.cluster with nodes := s.cluster.nodes.insert h n' } }

variable {c : Cluster} {address : String}

theorem removeNodeByAddress_fst (c : Cluster) (address : String) :
    (c.removeNodeByAddress address).1 =
      match removeTest c address with
      | .error e => some e
      | .ok _ => none := by
  simp only [Cluster.removeNodeByAddress, Cluster.findNodeByAddress, Cluster.Nodes,
    List.find?_map, Function.comp_def, removeTest]
  cases c.nodes.entries.find? (·.2.address = address) with
  | none => rfl
  | some e => by_cases hs : e.2.status = .on <;> simp [hs]

theorem removeTest_ok {h : Host} (ht : removeTest c address = .ok h) :
    ∃ n, c.nodes.lookup h = some n ∧ n.address = address ∧ n.status ≠ .on := by
  unfold removeTest at ht
  split at ht
  · cases ht
  · rename_i node he
    split at ht
    · cases ht
    · cases ht
      exact ⟨node, AList.mem_lookup_iff.mpr (List.mem_of_find?_eq_some he),
        by simpa using List.find?_some he, ‹_›⟩

theorem RemovePc.ofTest_eq_lock {r : Except String Host} {h : Host} :
    RemovePc.ofTest r = .lock h ↔ r = .ok h := by
  cases r <;> simp [RemovePc.ofTest]

structure Inv (c : Cluster) (address : String) (s : Removal) : Prop where
  addr : ∀ k n, s.cluster.nodes.lookup k = some n →
    ∃ m, c.nodes.lookup k = some m ∧ m.address = n.address
  gone : ∀ k ∈ c.nodes, k ∉ s.cluster.nodes → ∃ st, s.dropped = some (k, st)
  lock : ∀ h, s.pc = .lock h → ∃ n, s.cluster.nodes.lookup h = some n ∧ n.address = address
  dropped : ∀ k st, s.dropped = some (k, st) →
    s.pc = .returned none ∧ ∃ m, c.nodes.lookup k = some m ∧ m.address = address

theorem Inv.init (c : Cluster) (address : String) : Inv c address ⟨c, .test, none⟩ where
  addr _ n hn := ⟨n, hn, rfl⟩
  gone _ hk hk' := absurd hk hk'
  lock _ h := nomatch h
  dropped _ _ h := nomatch h

theorem Inv.rstep {s s' : Removal} (hi : Inv c address s) (h : RStep address s s') :
    Inv c address s' := by
  cases h with
  | test hs =>
    refine ⟨hi.addr, hi.gone, fun h hp => ?_,
      fun k st hd => absurd hs (by simp [hi.dropped k st hd])⟩
    obtain ⟨n, hn, ha, -⟩ := removeTest_ok (RemovePc.ofTest_eq_lock.mp hp)
    exact ⟨n, hn, ha⟩
  | @drop h hs =>
    obtain ⟨n, hn, ha⟩ := hi.lock h hs
    refine ⟨fun k m hk => ?_, fun k hk hk' => ?_, nofun, fun k st hd => ?_⟩
    · have hne : k ≠ h := fun e => by rw [e, AList.lookup_erase] at hk; cases hk
      exact hi.addr k m (by rwa [AList.lookup_erase_ne hne] at hk)
    · by_cases e : k = h
      · simp [e, hn]
      · obtain ⟨st, hd⟩ := hi.gone k hk fun hks => hk' (AList.mem_erase.mpr ⟨e, hks⟩)
        exact absurd hs (by simp [hi.dropped k st hd])
    · simp only [hn, Option.map_some', Option.some.injEq, Prod.mk.injEq] at hd
      obtain ⟨rfl, -⟩ := hd
      obtain ⟨m, hm, hma⟩ := hi.addr _ n hn
      exact ⟨rfl, m, hm, hma.trans ha⟩
  | @poll h n n' hn haddr =>
    refine ⟨fun k m hk => ?_, fun k hk hk' => ?_, fun h' hp => ?_, hi.dropped⟩
    · by_cases e : k = h
      · subst e
        simp only [AList.lookup_insert, Option.some.injEq] at hk
        obtain ⟨m₀, hm₀, ha⟩ := hi.addr k n hn
        exact ⟨m₀, hm₀, ha.trans (hk ▸ haddr.symm)⟩
      · exact hi.addr k m (by rwa [AList.lookup_insert_ne e] at hk)
    · exact hi.gone k hk fun hks => hk' (AList.mem_insert _ |>.mpr (.inr hks))
    · obtain ⟨m, hm, ha⟩ := hi.lock h' hp
      by_cases e : h' = h
      · subst e
        exact ⟨n', AList.lookup_insert _, haddr.trans ((Option.some.inj (hm.symm.trans hn)) ▸ ha)⟩
      · exact ⟨m, by rwa [AList.lookup_insert_ne e], ha⟩

theorem removeNodeByAddress_against_polls (c : Cluster) (address : String) :
    (∀ s, Reachable (RStep address) ⟨c, .test, none⟩ s →
      (∀ k n, s.cluster.nodes.lookup k = some n →
        ∃ m, c.nodes.lookup k = some m ∧ m.address = n.address) ∧
      ∀ k ∈ c.nodes, k ∉ s.cluster.nodes →
        s.pc = .returned none ∧ (∃ st, s.dropped = some (k, st)) ∧
          ∃ m, c.nodes.lookup k = some m ∧ m.address = address) ∧
    ∀ h, removeTest c address = .ok h →
      ∃ s, Reachable (RStep address) ⟨c, .test, none⟩ s ∧
        s.pc = .returned none ∧ s.dropped = some (h, .on) := by
  refine ⟨fun s hr => ?_, fun h ht => ?_⟩
  · have hi := hr.invariant (Inv.init c address) fun _ _ hi h => hi.rstep h
    refine ⟨hi.addr, fun k hk hk' => ?_⟩
    obtain ⟨st, hd⟩ := hi.gone k hk hk'
    exact ⟨(hi.dropped k st hd).1, ⟨st, hd⟩, (hi.dropped k st hd).2⟩
  · obtain ⟨n, hn, -, -⟩ := removeTest_ok ht
    let s₁ : Removal := ⟨c, .lock h, none⟩
    let s₂ : Removal :=
      { s₁ with cluster := { c with nodes := c.nodes.insert h { n with status := .on } } }
    have h₁ : RStep address ⟨c, .test, none⟩ s₁ := by
      have := @RStep.test address ⟨c, .test, none⟩ rfl
      rwa [ht] at this
    have h₂ : RStep address s₁ s₂ := RStep.poll (s := s₁) _ hn rfl
    refine ⟨_, ((Reachable.refl _ _).tail h₁ |>.tail h₂).tail (RStep.drop (s := s₂) rfl), rfl, ?_⟩
    simp [s₂]

theorem removeNodeByAddress_against_polls_pending :
    let h := newHost "10.0.0.1" 3000
    let c := newCluster "c1" 5 (some ⟨[h], true⟩) none [(h, Node.pending h)]
    removeTest c h.toString = .ok h ∧
      ∃ s, Reachable (RStep h.toString) ⟨c, .test, none⟩ s ∧
        s.pc = .returned none ∧ s.dropped = some (h, .on) :=
  ⟨rfl, (removeNodeByAddress_against_polls _ _).2 _ rfl⟩

end Amc.Models.RemoveRace
