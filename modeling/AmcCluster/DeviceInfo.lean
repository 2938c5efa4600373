import AmcCluster.Cluster
import AmcCluster.Fold

/-! `NamespaceDeviceInfo(namespace)`: each node's storage type and engine for the namespace,
grouped by value, with no check that the node reports the namespace. `StatsAttr`
(`namespace.go`, not among the sources) is a parameter, given `none` for a nil receiver. -/

namespace Amc.Models
open Amc Amc.Common

abbrev Groups := AList (fun _ : String => List String)

/-- `if v != nil { m[v.(string)] = append(m[v.(string)], node.Address()) }`. -/
def groupAttr (m : Groups) (v : Option Value) (address : String) : Except Panic Groups :=
  match v with
  | none => .ok m
  | some (.str s) => .ok (m.insert s ((m.lookup s).getD [] ++ [address]))
  | some _ => .error .typeAssertion

structure DeviceInfo where
  clusterStatus : String
  synced : Bool
  storage : Groups
  devices : Groups

section
variable (statsAttr : Option Stats → String → Except Panic (Option Value))

def deviceStep («namespace» : String) (acc : Groups × Groups) (node : Node) :
    Except Panic (Groups × Groups) := do
  let ns := node.namespaceByName «namespace»
  let storageType ← statsAttr ns "type"
  let storageTypes ← groupAttr acc.1 storageType node.address
  let storageDevice ← statsAttr ns "storage-engine"
  let storageDevices ← groupAttr acc.2 storageDevice node.address
  pure (storageTypes, storageDevices)

def namespaceDeviceInfoOf (nodes : List Node) («namespace» : String) : Except Panic DeviceInfo := do
  let (storageTypes, storageDevices) ← nodes.foldlM (deviceStep statsAttr «namespace») (∅, ∅)
  pure ⟨"on", decide (storageTypes.entries.length ≤ 1), storageTypes, storageDevices⟩

def Cluster.namespaceDeviceInfo (c : Cluster) («namespace» : String) : Except Panic DeviceInfo :=
  namespaceDeviceInfoOf statsAttr c.Nodes «namespace»

end

theorem namespaceDeviceInfo_nil_namespace
    (statsAttr : Option Stats → String → Except Panic (Option Value))
    (hnil : ∀ a, statsAttr none a = .error .nilDereference) (c : Cluster) («namespace» : String)
    (node : Node) (hn : node ∈ c.Nodes) (hmissing : node.namespaceByName «namespace» = none) :
    ∃ p, c.namespaceDeviceInfo statsAttr «namespace» = .error p := by
  have hstep : ∀ acc, ∃ p, deviceStep statsAttr «namespace» acc node = .error p :=
    fun _ => ⟨.nilDereference, by simp only [deviceStep, hmissing, hnil]; rfl⟩
  obtain ⟨p, hp⟩ := foldlM_error_of_mem _ hstep c.Nodes hn (∅, ∅)
  exact ⟨p, by simp only [Cluster.namespaceDeviceInfo, namespaceDeviceInfoOf, hp]; rfl⟩

theorem namespaceDeviceInfo_nil_namespace_pending :
    let h := newHost "10.0.0.1" 3000
    let statsAttr : Option Stats → String → Except Panic (Option Value) := fun o a =>
      match o with
      | none => .error .nilDereference
      | some st => .ok (st.lookup a)
    let c := newCluster "c1" 5 (some ⟨[h], true⟩) none [(h, Node.pending h)]
    (∀ a, statsAttr none a = .error .nilDereference) ∧ Node.pending h ∈ c.Nodes ∧
      (Node.pending h).namespaceByName "test" = none ∧
      ∃ p, c.namespaceDeviceInfo statsAttr "test" = .error p :=
  ⟨fun _ => rfl, List.mem_singleton_self _, rfl,
    namespaceDeviceInfo_nil_namespace _ (fun _ => rfl) _ _ _ (List.mem_singleton_self _) rfl⟩

/-! ### The value returned when every call returns -/

def groupPure (m : Groups) (v : Option String) (address : String) : Groups :=
  match v with
  | none => m
  | some s => m.insert s ((m.lookup s).getD [] ++ [address])

theorem groupAttr_map_str (m : Groups) (v : Option String) (address : String) :
    groupAttr m (v.map .str) address = .ok (groupPure m v address) := by
  cases v <;> rfl

theorem length_le_one_iff_of_nodup {α : Type} {l : List α} (hl : l.Nodup) :
    l.length ≤ 1 ↔ ∀ a ∈ l, ∀ b ∈ l, a = b := by
  match l, hl with
  | [], _ => simp
  | [a], _ => simp
  | a :: b :: t, hl =>
    simp only [List.length_cons, List.mem_cons]
    refine ⟨fun h => by omega, fun h => absurd (h a (.inl rfl) b (.inr (.inl rfl))) ?_⟩
    simp only [List.nodup_cons, List.mem_cons, not_or] at hl
    exact hl.1.1

section Grouping
variable (key : Node → Option String)

theorem lookup_foldl_groupPure (l : List Node) (m : Groups) (t : String) :
    ((l.foldl (fun m n => groupPure m (key n) n.address) m).lookup t).getD [] =
      (m.lookup t).getD [] ++ (l.filter (key · = some t)).map Node.address := by
  induction l generalizing m with
  | nil => simp
  | cons n l ih =>
    rw [List.foldl_cons, ih, List.filter_cons]
    cases hk : key n with
    | none => simp [groupPure]
    | some s =>
      by_cases hst : s = t
      · subst hst
        simp [groupPure, AList.lookup_insert]
      · simp [groupPure, AList.lookup_insert_ne (Ne.symm hst), hst]

theorem mem_foldl_groupPure (l : List Node) (m : Groups) (t : String) :
    t ∈ l.foldl (fun m n => groupPure m (key n) n.address) m ↔
      t ∈ m ∨ ∃ n ∈ l, key n = some t := by
  induction l generalizing m with
  | nil => simp
  | cons n l ih =>
    rw [List.foldl_cons, ih]
    cases hk : key n with
    | none => simp [groupPure, hk]
    | some s =>
      simp only [groupPure, AList.mem_insert, List.exists_mem_cons_iff, hk, Option.some_inj,
        @eq_comm _ s t]
      tauto

theorem groups_length_le_one (l : List Node) :
    (l.foldl (fun m n => groupPure m (key n) n.address) ∅).entries.length ≤ 1 ↔
      ∀ n₁ ∈ l, ∀ n₂ ∈ l, ∀ t₁ t₂, key n₁ = some t₁ → key n₂ = some t₂ → t₁ = t₂ := by
  have hmem : ∀ t, t ∈ (l.foldl (fun m n => groupPure m (key n) n.address) ∅).keys ↔
      ∃ n ∈ l, key n = some t := fun t => by
    rw [← AList.mem_keys, mem_foldl_groupPure]
    simp
  rw [← List.length_map _ Sigma.fst, ← List.keys, ← AList.keys,
    length_le_one_iff_of_nodup (AList.keys_nodup _)]
  simp only [hmem]
  constructor
  · intro h n₁ h₁ n₂ h₂ t₁ t₂ e₁ e₂
    exact h t₁ ⟨n₁, h₁, e₁⟩ t₂ ⟨n₂, h₂, e₂⟩
  · rintro h a ⟨n₁, h₁, e₁⟩ b ⟨n₂, h₂, e₂⟩
    exact h n₁ h₁ n₂ h₂ a b e₁ e₂

end Grouping

theorem namespaceDeviceInfoOf_ok (statsAttr : Option Stats → String → Except Panic (Option Value))
    (nodes : List Node) («namespace» : String) (typeOf deviceOf : Node → Option String)
    (htype : ∀ n ∈ nodes,
      statsAttr (n.namespaceByName «namespace») "type" = .ok ((typeOf n).map .str))
    (hdevice : ∀ n ∈ nodes,
      statsAttr (n.namespaceByName «namespace») "storage-engine" = .ok ((deviceOf n).map .str)) :
    ∃ d, namespaceDeviceInfoOf statsAttr nodes «namespace» = .ok d ∧ d.clusterStatus = "on" ∧
      (∀ t, (d.storage.lookup t).getD [] = (nodes.filter (typeOf · = some t)).map Node.address) ∧
      (∀ t, (d.devices.lookup t).getD [] =
        (nodes.filter (deviceOf · = some t)).map Node.address) ∧
      (d.synced = true ↔ ∀ n₁ ∈ nodes, ∀ n₂ ∈ nodes, ∀ t₁ t₂,
        typeOf n₁ = some t₁ → typeOf n₂ = some t₂ → t₁ = t₂) := by
  have hstep : ∀ acc n, n ∈ nodes → deviceStep statsAttr «namespace» acc n =
      .ok (groupPure acc.1 (typeOf n) n.address, groupPure acc.2 (deviceOf n) n.address) :=
    fun acc n hn => by
      simp only [deviceStep, htype n hn, hdevice n hn, bind, Except.bind, groupAttr_map_str]
      rfl
  obtain ⟨s, hs, -, hsu⟩ := foldlM_simulate (deviceStep statsAttr «namespace») (fun _ => True) id
    (fun acc n => (groupPure acc.1 (typeOf n) n.address, groupPure acc.2 (deviceOf n) n.address))
    nodes (fun acc n hn _ => ⟨_, hstep acc n hn, trivial, rfl⟩) (∅, ∅) trivial
  have hfold : s = (nodes.foldl (fun m n => groupPure m (typeOf n) n.address) ∅,
      nodes.foldl (fun m n => groupPure m (deviceOf n) n.address) ∅) :=
    hsu.trans (foldl_pair (fun m n => groupPure m (typeOf n) n.address)
      (fun m n => groupPure m (deviceOf n) n.address) nodes ∅ ∅)
  subst hfold
  exact ⟨_, by simp only [namespaceDeviceInfoOf, hs]; rfl, rfl,
    fun t => by simp [lookup_foldl_groupPure], fun t => by simp [lookup_foldl_groupPure],
    decide_eq_true_iff.trans (groups_length_le_one typeOf nodes)⟩

theorem namespaceDeviceInfoOf_ok_uniform :
    let statsAttr : Option Stats → String → Except Panic (Option Value) := fun _ a => .ok (some (.str a))
    let nodes := [Node.pending (newHost "10.0.0.1" 3000), Node.pending (newHost "10.0.0.2" 3000)]
    let typeOf : Node → Option String := fun _ => some "type"
    let deviceOf : Node → Option String := fun _ => some "storage-engine"
    (∀ n ∈ nodes, statsAttr (n.namespaceByName "test") "type" = .ok ((typeOf n).map .str)) ∧
    (∀ n ∈ nodes,
      statsAttr (n.namespaceByName "test") "storage-engine" = .ok ((deviceOf n).map .str)) ∧
    ∃ d, namespaceDeviceInfoOf statsAttr nodes "test" = .ok d ∧ d.clusterStatus = "on" ∧
      (∀ t, (d.storage.lookup t).getD [] = (nodes.filter (typeOf · = some t)).map Node.address) ∧
      (∀ t, (d.devices.lookup t).getD [] =
        (nodes.filter (deviceOf · = some t)).map Node.address) ∧
      (d.synced = true ↔ ∀ n₁ ∈ nodes, ∀ n₂ ∈ nodes, ∀ t₁ t₂,
        typeOf n₁ = some t₁ → typeOf n₂ = some t₂ → t₁ = t₂) :=
  ⟨fun _ _ => rfl, fun _ _ => rfl,
    namespaceDeviceInfoOf_ok (fun _ a => .ok (some (.str a)))
      [Node.pending (newHost "10.0.0.1" 3000), Node.pending (newHost "10.0.0.2" 3000)] "test"
      (fun _ => some "type") (fun _ => some "storage-engine") (fun _ _ => rfl) (fun _ _ => rfl)⟩

end Amc.Models
