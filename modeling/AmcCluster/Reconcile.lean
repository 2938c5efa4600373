import AmcCluster.Membership
import AmcCluster.Interleaving

/-! `updateCluster` over every run of `AddNode`, `RemoveNodeByAddress`, refreshes and polls:
nodes stay stored under the host their address names, and a refresh keeps every node but for
the client node it holds, which leaves it only by `Close()`. -/

namespace Amc.Models
open Amc Amc.Common

/-- Modelled from the spec: `newNode(c, n)` for a node the client reports: its address is its
host's, its id the node name, it holds `n`, and it has not been polled yet. -/
def Node.ofClient (n : ClientNode) : Node :=
  { origHost := none, origNode := some n, address := n.host.toString, id := n.name,
    status := .off, build := "", clusterName := "", disk := ∅, memory := ∅, namespaces := ∅ }

def Node.detached (n : Node) : Node := { n with origNode := none }

theorem Node.address_of_detached {n n' : Node} (h : n'.detached = n.detached) :
    n'.address = n.address :=
  (congrArg Node.address h :)

theorem Node.id_of_detached {n n' : Node} (h : n'.detached = n.detached) : n'.id = n.id :=
  (congrArg Node.id h :)

def ClientNode.entry (n : ClientNode) : Host × Node := (n.host, Node.ofClient n)

namespace Cluster

def findNodeById (c : Cluster) (id : String) : Option Node := c.Nodes.find? fun n => n.id = id

def registerNode (c : Cluster) (h : Host) (n : Node) : Cluster :=
  { c with nodes := c.nodes.insert h n }

def foundFor (c : Cluster) (n : ClientNode) : Option (Σ _ : Host, Node) :=
  (c.nodes.entries.find? (·.2.address = n.host.toString)).or
    (c.nodes.entries.find? (·.2.id = n.name))

/-- The found branch on the node stored under `h`: unless it holds `n` already,
`origNode.Close()` on the client node it holds, if any, and `node.setOrigNode(n)`. -/
def swapOrigNode (c : Cluster) (h : Host) (node : Node) (n : ClientNode) :
    Cluster × List ClientNode :=
  if node.origNode = some n then (c, [])
  else ({ c with nodes := c.nodes.insert h { node with origNode := some n } }, node.origNode.toList)

def reconcileNode (c : Cluster) (n : ClientNode) : Cluster × List ClientNode :=
  match c.foundFor n with
  | some e => c.swapOrigNode e.1 e.2 n
  | none => (c.registerNode n.host (Node.ofClient n), [])

def reconcileStep (acc : Cluster × List ClientNode) (n : ClientNode) : Cluster × List ClientNode :=
  ((acc.1.reconcileNode n).1, acc.2 ++ (acc.1.reconcileNode n).2)

/-- `updateCluster()`, given what `c.client.GetNodes()` returns, with the client nodes it
closed; `GetNodes` on a `nil` client panics. -/
def updateCluster (c : Cluster) (clientNodes : List ClientNode) :
    Except Panic (Cluster × List ClientNode) :=
  match c.client with
  | none => .error .nilDereference
  | some _ => .ok (clientNodes.foldl reconcileStep (c, []))

def handles (c : Cluster) : List ClientNode := c.Nodes.filterMap Node.origNode

def Addressed (c : Cluster) : Prop := ∀ h n, c.nodes.lookup h = some n → n.address = h.toString

def Keeps (c c' : Cluster) : Prop :=
  ∀ h n, c.nodes.lookup h = some n → ∃ n', c'.nodes.lookup h = some n' ∧ n'.detached = n.detached

def Tracks (c : Cluster) (n : ClientNode) : Prop :=
  (c.findNodeByAddress n.host.toString).isSome ∨ (c.findNodeById n.name).isSome

end Cluster

inductive MStep : Cluster → Cluster → Prop
  | addNode {c c' : Cluster} (resolved : Except String (List String)) (port : Int)
      (msg : Option String) (h : c.addNode resolved port = .ok (msg, c')) : MStep c c'
  | removeNode (c : Cluster) (address : String) : MStep c (c.removeNodeByAddress address).2
  | updateCluster {c c' : Cluster} (clientNodes : List ClientNode) {closed : List ClientNode}
      (h : c.updateCluster clientNodes = .ok (c', closed)) : MStep c c'
  | poll (c : Cluster) {h : Host} {n : Node} (n' : Node) (hn : c.nodes.lookup h = some n)
      (haddr : n'.address = n.address) : MStep c { c with nodes := c.nodes.insert h n' }

namespace Cluster

variable {c : Cluster}

theorem mem_Nodes_iff {node : Node} : node ∈ c.Nodes ↔ ∃ h, c.nodes.lookup h = some node := by
  simp only [Nodes, List.mem_map, AList.lookup, ← List.mem_dlookup_iff c.nodes.nodupKeys]
  constructor
  · rintro ⟨⟨h, n⟩, hm, rfl⟩
    exact ⟨h, hm⟩
  · rintro ⟨h, hm⟩
    exact ⟨⟨h, node⟩, hm, rfl⟩

theorem mem_handles {x : ClientNode} :
    x ∈ c.handles ↔ ∃ h node, c.nodes.lookup h = some node ∧ node.origNode = some x := by
  simp only [handles, List.mem_filterMap, mem_Nodes_iff]
  exact ⟨fun ⟨node, ⟨h, hl⟩, hx⟩ => ⟨h, node, hl, hx⟩, fun ⟨h, node, hl, hx⟩ => ⟨node, ⟨h, hl⟩, hx⟩⟩

theorem findNodeByAddress_isSome {a : String} :
    (c.findNodeByAddress a).isSome ↔ ∃ node ∈ c.Nodes, node.address = a := by
  simp [findNodeByAddress, List.find?_isSome]

theorem findNodeById_isSome {id : String} :
    (c.findNodeById id).isSome ↔ ∃ node ∈ c.Nodes, node.id = id := by
  simp [findNodeById, List.find?_isSome]

theorem foundFor_isSome {n : ClientNode} : (c.foundFor n).isSome ↔ c.Tracks n := by
  simp only [foundFor, Tracks, findNodeByAddress, findNodeById, Nodes, List.find?_map,
    Option.isSome_map', Function.comp_def]
  cases c.nodes.entries.find? (·.2.address = n.host.toString) <;> simp

theorem lookup_foundFor {n : ClientNode} {e : Σ _ : Host, Node} (he : c.foundFor n = some e) :
    c.nodes.lookup e.1 = some e.2 := by
  rw [foundFor, Option.or_eq_some] at he
  exact AList.mem_lookup_iff.mpr
    (he.elim List.mem_of_find?_eq_some fun h => List.mem_of_find?_eq_some h.2)

theorem Keeps.refl (c : Cluster) : c.Keeps c := fun _ n h => ⟨n, h, rfl⟩

theorem Keeps.trans {c₁ c₂ c₃ : Cluster} (h₁ : c₁.Keeps c₂) (h₂ : c₂.Keeps c₃) : c₁.Keeps c₃ :=
  fun h n hn =>
    let ⟨n₂, hn₂, e₂⟩ := h₁ h n hn
    let ⟨n₃, hn₃, e₃⟩ := h₂ h n₂ hn₂
    ⟨n₃, hn₃, e₃.trans e₂⟩

theorem Keeps.tracks {c' : Cluster} (hk : c.Keeps c') {n : ClientNode} (ht : c.Tracks n) :
    c'.Tracks n := by
  have hsub : ∀ node ∈ c.Nodes, ∃ node' ∈ c'.Nodes, node'.address = node.address ∧
      node'.id = node.id := fun node hn => by
    obtain ⟨h, hl⟩ := mem_Nodes_iff.mp hn
    obtain ⟨node', hl', hd⟩ := hk h node hl
    exact ⟨node', mem_Nodes_iff.mpr ⟨h, hl'⟩, Node.address_of_detached hd, Node.id_of_detached hd⟩
  unfold Tracks at *
  simp only [findNodeByAddress_isSome, findNodeById_isSome] at *
  refine ht.imp (fun ⟨node, hn, he⟩ => ?_) (fun ⟨node, hn, he⟩ => ?_)
  · obtain ⟨node', hn', ha, -⟩ := hsub node hn
    exact ⟨node', hn', ha.trans he⟩
  · obtain ⟨node', hn', -, hi⟩ := hsub node hn
    exact ⟨node', hn', hi.trans he⟩

theorem Addressed.insert (hc : c.Addressed) {c' : Cluster} {h : Host} {n : Node}
    (hn : n.address = h.toString) (he : c'.nodes = c.nodes.insert h n) : c'.Addressed := by
  intro k m hk
  rw [he] at hk
  by_cases e : k = h
  · subst e
    simp only [AList.lookup_insert, Option.some.injEq] at hk
    exact hk ▸ hn
  · simp only [AList.lookup_insert_ne e] at hk
    exact hc k m hk

theorem Addressed.tracks_key (hc : c.Addressed) {h : Host} (hh : h ∈ c.nodes) :
    (c.findNodeByAddress h.toString).isSome := by
  obtain ⟨n, hn⟩ := Option.isSome_iff_exists.mp (AList.lookup_isSome.mpr hh)
  exact findNodeByAddress_isSome.mpr ⟨n, mem_Nodes_iff.mpr ⟨h, hn⟩, hc h n hn⟩

theorem Addressed.of_keeps {c' : Cluster} (hc : c.Addressed) (hk : c'.Keeps c) : c'.Addressed :=
  fun h n hn =>
    let ⟨m, hm, hd⟩ := hk h n hn
    (Node.address_of_detached hd).symm.trans (hc h m hm)

theorem Addressed.foldl_insert (hc : c.Addressed) (ns : List ClientNode) :
    ({ c with nodes := (ns.map ClientNode.entry).foldl (fun m hn => m.insert hn.1 hn.2) c.nodes } :
      Cluster).Addressed := by
  induction ns generalizing c with
  | nil => exact hc
  | cons n ns ih => exact ih (hc.insert rfl rfl : (c.registerNode n.host (Node.ofClient n)).Addressed)

theorem reconcileNode_cases (hc : c.Addressed) (n : ClientNode) :
    (∃ e, c.foundFor n = some e ∧ c.reconcileNode n = c.swapOrigNode e.1 e.2 n) ∨
      (n.host ∉ c.nodes ∧ c.reconcileNode n = (c.registerNode n.host (Node.ofClient n), [])) := by
  unfold reconcileNode
  cases hf : c.foundFor n with
  | some e => exact .inl ⟨e, rfl, rfl⟩
  | none =>
    exact .inr ⟨fun hh => absurd (foundFor_isSome.mpr (.inl (hc.tracks_key hh))) (by simp [hf]), rfl⟩

theorem mem_handles_insert {h : Host} (v : Node) {x : ClientNode} (hx : x ∈ c.handles) :
    x ∈ ({ c with nodes := c.nodes.insert h v } : Cluster).handles ∨
      ∃ m, c.nodes.lookup h = some m ∧ m.origNode = some x := by
  obtain ⟨k, m, hk, hm⟩ := mem_handles.mp hx
  by_cases e : k = h
  · exact .inr ⟨m, e ▸ hk, hm⟩
  · exact .inl (mem_handles.mpr ⟨k, m, by rwa [AList.lookup_insert_ne e], hm⟩)

theorem swapOrigNode_keeps {h : Host} {node : Node} (hl : c.nodes.lookup h = some node)
    (n : ClientNode) :
    c.Keeps (c.swapOrigNode h node n).1 ∧ (c.swapOrigNode h node n).1.Keeps c := by
  unfold swapOrigNode
  split
  · exact ⟨Keeps.refl c, Keeps.refl c⟩
  refine ⟨fun k m hk => ?_, fun k m hk => ?_⟩ <;> by_cases e : k = h
  · subst e
    rw [hl, Option.some.injEq] at hk
    exact ⟨_, AList.lookup_insert _, hk ▸ rfl⟩
  · exact ⟨m, by rwa [AList.lookup_insert_ne e], rfl⟩
  · subst e
    simp only [AList.lookup_insert, Option.some.injEq] at hk
    exact ⟨node, hl, hk ▸ rfl⟩
  · exact ⟨m, by rwa [AList.lookup_insert_ne e] at hk, rfl⟩

theorem registerNode_keeps {h : Host} (hfresh : h ∉ c.nodes) (node : Node) :
    c.Keeps (c.registerNode h node) := by
  intro k m hk
  have hne : k ≠ h := fun e => hfresh (e ▸ AList.lookup_isSome.mp (by simp [hk]))
  exact ⟨m, by rwa [registerNode, AList.lookup_insert_ne hne], rfl⟩

theorem Addressed.reconcileNode (hc : c.Addressed) (n : ClientNode) :
    (c.reconcileNode n).1.Addressed := by
  rcases reconcileNode_cases hc n with ⟨e, he, hr⟩ | ⟨-, hr⟩ <;> rw [hr]
  · exact hc.of_keeps (swapOrigNode_keeps (lookup_foundFor he) n).2
  · exact hc.insert rfl rfl

theorem reconcileNode_keeps (hc : c.Addressed) (n : ClientNode) :
    c.Keeps (c.reconcileNode n).1 := by
  rcases reconcileNode_cases hc n with ⟨e, he, hr⟩ | ⟨hfresh, hr⟩ <;> rw [hr]
  · exact (swapOrigNode_keeps (lookup_foundFor he) n).1
  · exact registerNode_keeps hfresh _

theorem reconcileNode_tracks (hc : c.Addressed) (n : ClientNode) :
    (c.reconcileNode n).1.Tracks n := by
  rcases reconcileNode_cases hc n with ⟨e, he, hr⟩ | ⟨-, hr⟩ <;> rw [hr]
  · exact (swapOrigNode_keeps (lookup_foundFor he) n).1.tracks (foundFor_isSome.mp (by simp [he]))
  · exact .inl ((hc.insert rfl rfl).tracks_key (AList.mem_insert _ |>.mpr (.inl rfl)))

theorem reconcileNode_handles (hc : c.Addressed) (n : ClientNode) {x : ClientNode}
    (hx : x ∈ c.handles) : x ∈ (c.reconcileNode n).1.handles ∨ x ∈ (c.reconcileNode n).2 := by
  rcases reconcileNode_cases hc n with ⟨e, he, hr⟩ | ⟨hfresh, hr⟩ <;> rw [hr]
  · unfold swapOrigNode
    split
    · exact .inl hx
    rcases mem_handles_insert _ hx with h | ⟨m, hm, hmx⟩
    · exact .inl h
    · rw [lookup_foundFor he, Option.some.injEq] at hm
      subst hm
      exact .inr (by simp [hmx])
  · rcases mem_handles_insert _ hx with h | ⟨m, hm, -⟩
    · exact .inl h
    · exact absurd (AList.lookup_isSome.mp (by simp [hm])) hfresh

theorem foldl_reconcileStep (ns : List ClientNode) (hc : c.Addressed) (closed₀ : List ClientNode) :
    let r := ns.foldl reconcileStep (c, closed₀)
    r.1.Addressed ∧ c.Keeps r.1 ∧ (∀ n ∈ ns, r.1.Tracks n) ∧
      ∀ x, x ∈ c.handles ∨ x ∈ closed₀ → x ∈ r.1.handles ∨ x ∈ r.2 := by
  induction ns generalizing c closed₀ with
  | nil => exact ⟨hc, Keeps.refl c, nofun, fun _ h => h⟩
  | cons n ns ih =>
    obtain ⟨ha, hk, ht, hh⟩ := ih (hc.reconcileNode n) (closed₀ ++ (c.reconcileNode n).2)
    refine ⟨ha, (reconcileNode_keeps hc n).trans hk, ?_, fun x hx => hh x ?_⟩
    · rintro m (_ | ⟨_, hm⟩)
      · exact hk.tracks (reconcileNode_tracks hc n)
      · exact ht m hm
    · rcases hx with hx | hx
      · exact (reconcileNode_handles hc n hx).imp_right (List.mem_append_right _)
      · exact .inr (List.mem_append_left _ hx)

theorem foldl_reconcileStep_held (ns : List ClientNode) (closed₀ : List ClientNode)
    (ht : ∀ n ∈ ns, ∃ e, c.foundFor n = some e ∧ e.2.origNode = some n) :
    ns.foldl reconcileStep (c, closed₀) = (c, closed₀) := by
  induction ns with
  | nil => rfl
  | cons n ns ih =>
    obtain ⟨e, he, ho⟩ := ht n (.head _)
    have hr : c.reconcileNode n = (c, []) := by simp [reconcileNode, he, swapOrigNode, ho]
    simp only [List.foldl_cons, reconcileStep, hr, List.append_nil]
    exact ih fun m hm => ht m (.tail _ hm)

theorem updateCluster_ok {ns : List ClientNode} {r : Cluster × List ClientNode}
    (h : c.updateCluster ns = .ok r) : r = ns.foldl reconcileStep (c, []) := by
  unfold updateCluster at h
  split at h <;> cases h
  rfl

theorem addNode_nodes {resolved : Except String (List String)} {port : Int} {msg : Option String}
    {c' : Cluster} (h : c.addNode resolved port = .ok (msg, c')) :
    c'.nodes = c.nodes ∨ ∃ host, c'.nodes = c.nodes.insert host (Node.pending host) := by
  unfold addNode at h
  split at h
  · cases h; exact .inl rfl
  · cases h; exact .inl rfl
  · split at h
    · cases h; exact .inl rfl
    · split at h
      · cases h
      · cases h; exact .inr ⟨_, rfl⟩

theorem removeNodeByAddress_keeps (address : String) :
    (c.removeNodeByAddress address).2.Keeps c := by
  intro h n hn
  refine ⟨n, ?_, rfl⟩
  unfold removeNodeByAddress at hn
  split at hn
  · exact hn
  · split at hn
    · exact hn
    · rw [AList.lookup_to_alist] at hn
      exact List.mem_dlookup_iff c.nodes.nodupKeys |>.mpr
        (List.mem_of_mem_filter (List.of_mem_dlookup hn))

theorem Addressed.mstep {c' : Cluster} (hc : c.Addressed) (h : MStep c c') : c'.Addressed := by
  cases h with
  | addNode resolved port msg h =>
    rcases addNode_nodes h with e | ⟨host, e⟩
    · exact fun k n hk => hc k n (e ▸ hk)
    · exact hc.insert rfl e
  | removeNode address => exact hc.of_keeps (removeNodeByAddress_keeps address)
  | updateCluster ns h =>
    have ha := (foldl_reconcileStep ns hc []).1
    rwa [← updateCluster_ok h] at ha
  | poll n' hn haddr => exact hc.insert (haddr.trans (hc _ _ hn)) rfl

end Cluster

open Cluster

theorem addressed_newCluster (uuid : String) (updateInterval : Int) (client : Option Client)
    (aliasName : Option String) (ns : List ClientNode) :
    (newCluster uuid updateInterval client aliasName (ns.map ClientNode.entry)).Addressed := by
  cases client with
  | none => simp [Addressed, newCluster]
  | some cl =>
    exact Addressed.foldl_insert (c := { newCluster uuid updateInterval (some cl) aliasName [] with
      nodes := ∅ }) (by simp [Addressed]) ns

theorem addressed_of_reachable {uuid : String} {updateInterval : Int} {client : Option Client}
    {aliasName : Option String} {ns₀ : List ClientNode} {c : Cluster}
    (hr : Reachable MStep (newCluster uuid updateInterval client aliasName (ns₀.map ClientNode.entry)) c) :
    c.Addressed ∧ ∀ h ∈ c.nodes, (c.findNodeByAddress h.toString).isSome := by
  have hc : c.Addressed :=
    hr.invariant (addressed_newCluster uuid updateInterval client aliasName ns₀)
      fun _ _ hc h => hc.mstep h
  exact ⟨hc, fun _ hh => hc.tracks_key hh⟩

theorem addressed_of_reachable_created :
    let c := newCluster "c1" 5 (some ⟨[newHost "10.0.0.1" 3000], true⟩) none
      ([⟨0, newHost "10.0.0.1" 3000, "BB9"⟩].map ClientNode.entry)
    Reachable MStep c c ∧ c.Addressed ∧ ∀ h ∈ c.nodes, (c.findNodeByAddress h.toString).isSome :=
  ⟨Reachable.refl _ _, addressed_of_reachable (Reachable.refl _ _)⟩

theorem updateCluster_reconciles {uuid : String} {updateInterval : Int} {client : Option Client}
    {aliasName : Option String} {ns₀ : List ClientNode} {c : Cluster}
    (hr : Reachable MStep (newCluster uuid updateInterval client aliasName (ns₀.map ClientNode.entry)) c)
    {ns : List ClientNode} {c' : Cluster} {closed : List ClientNode}
    (h : c.updateCluster ns = .ok (c', closed)) :
    c.Keeps c' ∧ (∀ n ∈ ns, c'.Tracks n) ∧ (∀ x ∈ c.handles, x ∈ c'.handles ∨ x ∈ closed) ∧
      ((∀ n ∈ ns, ∃ e, c.foundFor n = some e ∧ e.2.origNode = some n) → c' = c ∧ closed = []) := by
  have e := updateCluster_ok h
  obtain ⟨-, hk, ht, hh⟩ := foldl_reconcileStep ns (addressed_of_reachable hr).1 []
  rw [← e] at hk ht hh
  refine ⟨hk, ht, fun x hx => hh x (.inl hx), fun hheld => ?_⟩
  rwa [foldl_reconcileStep_held ns [] hheld, Prod.mk.injEq] at e

theorem updateCluster_reconciles_new_node :
    let c := newCluster "c1" 5 (some ⟨[newHost "10.0.0.1" 3000], true⟩) none
      ([⟨0, newHost "10.0.0.1" 3000, "BB9"⟩].map ClientNode.entry)
    let ns : List ClientNode :=
      [⟨0, newHost "10.0.0.1" 3000, "BB9"⟩, ⟨1, newHost "10.0.0.2" 3000, "BB8"⟩]
    let r := ns.foldl reconcileStep (c, [])
    Reachable MStep c c ∧ c.updateCluster ns = .ok (r.1, r.2) ∧
      (c.Keeps r.1 ∧ (∀ n ∈ ns, r.1.Tracks n) ∧ (∀ x ∈ c.handles, x ∈ r.1.handles ∨ x ∈ r.2) ∧
        ((∀ n ∈ ns, ∃ e, c.foundFor n = some e ∧ e.2.origNode = some n) → r.1 = c ∧ r.2 = [])) :=
  ⟨Reachable.refl _ _, rfl, updateCluster_reconciles (Reachable.refl _ _) rfl⟩

end Amc.Models
