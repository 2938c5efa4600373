import AmcCluster.Cluster

/-! `AddNode`: a user-added node is registered under the first address its host name
resolves to, unless one of the resolved addresses is already a key of the node map. -/

namespace Amc.Models
open Amc.Common

namespace Cluster

/-- `AddNode(address, port)`, given what `resolveHost(address)` returned. The guard
`err != nil || len(hostAddrList) == 0` returns `err`, which is `nil` for an empty list. -/
def addNode (c : Cluster) (resolved : Except String (List String)) (port : Int) :
    Except Panic (Option String × Cluster) :=
  match resolved with
  | .error err => .ok (some err, c)
  | .ok [] => .ok (none, c)
  | .ok (a :: rest) =>
    if (a :: rest).any fun l => newHost l port ∈ c.nodes then
      .ok (some "Node already exists", c)
    else
      match c.client with
      | none => .error .nilDereference
      | some cl =>
        let host := newHost a port
        .ok (none, { c with
          client := some { cl with seeds := cl.seeds ++ [host] }
          nodes := c.nodes.insert host (Node.pending host) })

variable {c : Cluster} {port : Int}

theorem addNode_empty (c : Cluster) (port : Int) : c.addNode (.ok []) port = .ok (none, c) := rfl

theorem addNode_exists {L : List String} (hL : ∃ l ∈ L, newHost l port ∈ c.nodes) :
    c.addNode (.ok L) port = .ok (some "Node already exists", c) := by
  obtain ⟨l, hl, hmem⟩ := hL
  match L, hl with
  | a :: rest, hl =>
    have hany : ((a :: rest).any fun l => newHost l port ∈ c.nodes) = true :=
      List.any_eq_true.mpr ⟨l, hl, decide_eq_true hmem⟩
    simp only [addNode, hany, if_true]

theorem addNode_ok_none {a : String} {rest : List String} {c' : Cluster}
    (h : c.addNode (.ok (a :: rest)) port = .ok (none, c')) :
    c'.nodes = c.nodes.insert (newHost a port) (Node.pending (newHost a port)) := by
  simp only [addNode] at h
  split at h
  · cases h
  · split at h
    · cases h
    · cases h
      rfl

theorem addNode_twice {L : List String} {c' : Cluster} (hL : L ≠ [])
    (h : c.addNode (.ok L) port = .ok (none, c')) :
    c'.addNode (.ok L) port = .ok (some "Node already exists", c') := by
  obtain ⟨a, rest, rfl⟩ := List.exists_cons_of_ne_nil hL
  refine addNode_exists ⟨a, List.mem_cons_self a rest, ?_⟩
  rw [addNode_ok_none h, AList.mem_insert]
  exact Or.inl rfl

theorem addNode_twice_fresh :
    let c := newCluster "c1" 5 (some ⟨[newHost "10.0.0.1" 3000], true⟩) none []
    ∃ c', c.addNode (.ok ["10.0.0.2"]) 3000 = .ok (none, c') ∧
      c'.addNode (.ok ["10.0.0.2"]) 3000 = .ok (some "Node already exists", c') :=
  ⟨_, rfl, addNode_twice (c := newCluster "c1" 5 (some ⟨[newHost "10.0.0.1" 3000], true⟩) none [])
    (by decide) rfl⟩

end Cluster
end Amc.Models
