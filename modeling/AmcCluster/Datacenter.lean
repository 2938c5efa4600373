import AmcCluster.Cluster
import AmcCluster.Fold
import Mathlib.Data.List.Dedup

/-! The `xdr_info` of `datacenterInfo()`: each listed remote address files its datacenter's
namespaces under the monitored cluster that owns it, or under itself. `DataCenters()` and
`NodeHasBeenDiscovered(addr).Id()` are parameters: `node.go` and the observer are not among
the sources. -/

namespace Amc.Models.Datacenter
open Amc

structure DcStats where
  nodes : List String
  namespaces : List String
  deriving DecidableEq, Repr

/-- Modelled from the spec: `common.StrUniq`, the strings of a list, each once. -/
def strUniq (l : List String) : List String := l.dedup

abbrev XdrInfo := AList (fun _ : String => List String)

/-- The key `xdrInfo` files a remote address under: the `Id()` of the monitored cluster that
`NodeHasBeenDiscovered` returns for it, or the address itself. -/
def xdrKey (discovered : String → Option String) (nodeAddr : String) : String :=
  (discovered nodeAddr).getD nodeAddr

def recordAddr (discovered : String → Option String) (dc : DcStats) (xdr : XdrInfo)
    (nodeAddr : String) : XdrInfo :=
  match discovered nodeAddr with
  | none => xdr.insert nodeAddr dc.namespaces
  | some id => xdr.insert id (strUniq ((xdr.lookup id).getD [] ++ dc.namespaces))

section
variable (discovered : String → Option String) (dataCenters : Node → List (String × DcStats))

def xdrInfo (c : Cluster) : XdrInfo :=
  c.Nodes.foldl (fun xdr node => (dataCenters node).foldl
    (fun xdr dc => dc.2.nodes.foldl (recordAddr discovered dc.2) xdr) xdr) ∅

def listings (c : Cluster) : List (String × DcStats) :=
  c.Nodes.flatMap fun node => (dataCenters node).flatMap fun dc => dc.2.nodes.map (·, dc.2)

def filed (o : Option (List String)) (e : String × DcStats) : List String :=
  match discovered e.1 with
  | none => e.2.namespaces
  | some _ => strUniq (o.getD [] ++ e.2.namespaces)

end

section
variable {discovered : String → Option String} {dataCenters : Node → List (String × DcStats)}

theorem recordAddr_lookup_self (dc : DcStats) (xdr : XdrInfo) (a : String) :
    (recordAddr discovered dc xdr a).lookup (xdrKey discovered a) =
      some (filed discovered (xdr.lookup (xdrKey discovered a)) (a, dc)) := by
  unfold recordAddr xdrKey filed
  cases discovered a <;> simp [AList.lookup_insert]

theorem recordAddr_lookup_ne (dc : DcStats) (xdr : XdrInfo) (a k : String)
    (hk : k ≠ xdrKey discovered a) : (recordAddr discovered dc xdr a).lookup k = xdr.lookup k := by
  unfold recordAddr
  unfold xdrKey at hk
  revert hk
  cases discovered a <;> exact AList.lookup_insert_ne

theorem xdrInfo_eq_foldl (c : Cluster) :
    xdrInfo discovered dataCenters c =
      (listings dataCenters c).foldl (fun xdr e => recordAddr discovered e.2 xdr e.1) ∅ := by
  simp only [xdrInfo, listings, List.flatMap, List.foldl_flatten, List.foldl_map]

theorem xdrInfo_lookup (c : Cluster) (k : String) :
    (xdrInfo discovered dataCenters c).lookup k =
      ((listings dataCenters c).filter (xdrKey discovered ·.1 = k)).foldl
        (fun o e => some (filed discovered o e)) none := by
  rw [xdrInfo_eq_foldl, lookup_foldl_local _ (xdrKey discovered ·.1) (filed discovered)
    (fun _ e _ hk => recordAddr_lookup_ne e.2 _ e.1 _ hk)
    (fun _ e => recordAddr_lookup_self e.2 _ e.1)]
  rfl

theorem xdrKey_eq_iff (a k : String) :
    xdrKey discovered a = k ↔ discovered a = some k ∨ (discovered a = none ∧ a = k) := by
  unfold xdrKey
  cases discovered a <;> simp

theorem foldl_some_isSome {α β : Type} (g : Option β → α → β) (l : List α) (o : Option β) :
    (l.foldl (fun o e => some (g o e)) o).isSome ↔ l ≠ [] ∨ o.isSome := by
  induction l generalizing o with
  | nil => simp
  | cons e l ih => simp [ih]

theorem foldl_filed_union (l : List (String × DcStats))
    (hmon : ∀ e ∈ l, (discovered e.1).isSome) (o : Option (List String))
    (ho : (o.getD []).Nodup) :
    ((l.foldl (fun o e => some (filed discovered o e)) o).getD []).Nodup ∧
      ∀ x, x ∈ (l.foldl (fun o e => some (filed discovered o e)) o).getD [] ↔
        x ∈ o.getD [] ∨ ∃ e ∈ l, x ∈ e.2.namespaces := by
  induction l generalizing o with
  | nil => simpa using ho
  | cons e l ih =>
    obtain ⟨id, hid⟩ := Option.isSome_iff_exists.mp (hmon e (List.mem_cons_self _ _))
    have hf : filed discovered o e = strUniq (o.getD [] ++ e.2.namespaces) := by simp [filed, hid]
    obtain ⟨hnd, hmem⟩ := ih (fun e he => hmon e (List.mem_cons_of_mem _ he))
      (some (filed discovered o e)) (by simpa [hf, strUniq] using List.nodup_dedup _)
    refine ⟨hnd, fun x => (hmem x).trans ?_⟩
    simp [hf, strUniq, List.mem_dedup, or_assoc]

theorem mem_xdrInfo (c : Cluster) (k : String) :
    k ∈ xdrInfo discovered dataCenters c ↔
      ∃ e ∈ listings dataCenters c, xdrKey discovered e.1 = k := by
  rw [← AList.lookup_isSome, xdrInfo_lookup, foldl_some_isSome]
  simp [List.filter_eq_nil_iff]

theorem xdrInfo_monitored (c : Cluster) (k : String) (v : List String)
    (hk : ∀ e ∈ listings dataCenters c, discovered e.1 = none → e.1 ≠ k)
    (hv : (xdrInfo discovered dataCenters c).lookup k = some v) :
    v.Nodup ∧ ∀ x, x ∈ v ↔
      ∃ e ∈ listings dataCenters c, discovered e.1 = some k ∧ x ∈ e.2.namespaces := by
  have hkey : ∀ e ∈ listings dataCenters c, xdrKey discovered e.1 = k ↔ discovered e.1 = some k :=
    fun e he => by
      rw [xdrKey_eq_iff]
      exact or_iff_left fun ⟨hn, he'⟩ => hk e he hn he'
  rw [xdrInfo_lookup] at hv
  obtain ⟨hnd, hmem⟩ := @foldl_filed_union discovered ((listings dataCenters c).filter
      (xdrKey discovered ·.1 = k)) (fun e he => by
      obtain ⟨he, hek⟩ := List.mem_filter.mp he
      simp [(hkey e he).mp (of_decide_eq_true hek)]) none List.nodup_nil
  rw [hv, Option.getD_some] at hnd hmem
  refine ⟨hnd, fun x => (hmem x).trans ?_⟩
  simp only [Option.getD_none, List.not_mem_nil, false_or, List.mem_filter, decide_eq_true_eq,
    and_assoc]
  exact exists_congr fun e => and_congr_right fun he => and_congr_left' (hkey e he)

theorem xdrInfo_last_unmonitored (c : Cluster) (pre post : List (String × DcStats)) (a : String)
    (dc : DcStats) (hls : listings dataCenters c = pre ++ (a, dc) :: post)
    (ha : discovered a = none) (hpost : ∀ e ∈ post, xdrKey discovered e.1 ≠ a) :
    (xdrInfo discovered dataCenters c).lookup a = some dc.namespaces := by
  have hkey : xdrKey discovered a = a := by simp [xdrKey, ha]
  have hnil : post.filter (xdrKey discovered ·.1 = a) = [] :=
    List.filter_eq_nil_iff.mpr fun e he => by simpa using hpost e he
  rw [xdrInfo_lookup, hls, List.filter_append, List.filter_cons_of_pos (by simpa using hkey), hnil,
    List.foldl_append]
  simp [filed, ha]

end

theorem xdrInfo_spec (discovered : String → Option String)
    (dataCenters : Node → List (String × DcStats)) (c : Cluster) :
    (∀ k, k ∈ xdrInfo discovered dataCenters c ↔ ∃ e ∈ listings dataCenters c,
      discovered e.1 = some k ∨ (discovered e.1 = none ∧ e.1 = k)) ∧
    (∀ k v, (∀ e ∈ listings dataCenters c, discovered e.1 = none → e.1 ≠ k) →
      (xdrInfo discovered dataCenters c).lookup k = some v →
      v.Nodup ∧ ∀ x, x ∈ v ↔
        ∃ e ∈ listings dataCenters c, discovered e.1 = some k ∧ x ∈ e.2.namespaces) ∧
    (∀ pre a dc post, listings dataCenters c = pre ++ (a, dc) :: post → discovered a = none →
      (∀ e ∈ post, xdrKey discovered e.1 ≠ a) →
      (xdrInfo discovered dataCenters c).lookup a = some dc.namespaces) :=
  ⟨fun k => (mem_xdrInfo c k).trans (by simp only [xdrKey_eq_iff]),
    fun k v hk hv => xdrInfo_monitored c k v hk hv,
    fun pre a dc post hls ha hpost => xdrInfo_last_unmonitored c pre post a dc hls ha hpost⟩

def oneNode : Cluster :=
  newCluster "c1" 5 (some ⟨[newHost "10.0.0.1" 3000], true⟩) none
    [(newHost "10.0.0.1" 3000, Node.pending (newHost "10.0.0.1" 3000))]

def shipsTwice : List (String × DcStats) :=
  [("DC1", ⟨["R:3000"], ["a"]⟩), ("DC2", ⟨["R:3000"], ["b"]⟩)]

theorem xdrInfo_not_union :
    ¬ ∀ (discovered : String → Option String) (dataCenters : Node → List (String × DcStats))
      (c : Cluster) (k : String) (v : List String),
      (xdrInfo discovered dataCenters c).lookup k = some v →
      ∀ x, x ∈ v ↔ ∃ e ∈ listings dataCenters c, xdrKey discovered e.1 = k ∧ x ∈ e.2.namespaces := by
  intro h
  have hv : (xdrInfo (fun _ => none) (fun _ => shipsTwice) oneNode).lookup "R:3000" =
      some ["b"] := by decide
  have hlisted : ("R:3000", (⟨["R:3000"], ["a"]⟩ : DcStats)) ∈
      listings (fun _ => shipsTwice) oneNode := by decide
  have ha := (h _ _ _ _ _ hv "a").mpr ⟨_, hlisted, rfl, List.mem_singleton_self _⟩
  exact absurd ha (by decide)

end Amc.Models.Datacenter
