import AmcCluster.Cluster

/-! `BuildDetails`, `NodeCompatibility` and `versionSupported`: the builds the nodes
report, grouped by build, and the check of every group against a minimum version. -/

namespace Amc.Models
open Amc.Common

def addVersion (vl : AList (fun _ : String => List String)) (n : Node) :
    AList (fun _ : String => List String) :=
  vl.insert n.build ((vl.lookup n.build).getD [] ++ [n.address])

def versionListOf (nodes : List Node) : AList (fun _ : String => List String) :=
  nodes.foldl addVersion ∅

def addressesOf (nodes : List Node) (b : String) : List String :=
  (nodes.filter fun n => n.build = b).map Node.address

/-- How one run of Go ranges over `version_list`: some permutation of its entries. -/
structure MapOrder where
  arrange : List (Sigma fun _ : String => List String) → List (Sigma fun _ : String => List String)
  perm : ∀ l, (arrange l).Perm l

structure UnsupportedVersion where
  oldest : String
  nodeList : List String
  ver : String
  deriving DecidableEq, Repr

def UnsupportedVersion.message (e : UnsupportedVersion) : String :=
  "Database cluster is not supported. Latest supported version is: `v" ++ e.oldest ++
    "`. Nodes [" ++ ", ".intercalate e.nodeList ++ "] are at `v" ++ e.ver ++ "`"

section
/- `version.Compare(v1, v2, op)` of the go-version package. -/
variable (compare : String → String → String → Bool)

def latestBuildOf (nodes : List Node) : String :=
  nodes.foldl (fun lb n => if compare n.build lb ">" then n.build else lb) ""

structure BuildDetails where
  versionList : AList (fun _ : String => List String)
  latestBuildNo : String

def Cluster.buildDetails (c : Cluster) (now : Nat) : BuildDetails × Cluster :=
  (⟨versionListOf c.Nodes, latestBuildOf compare c.Nodes⟩, { c with lastPing := now })

def firstUnsupported (oldest : String) :
    List (Sigma fun _ : String => List String) → Option UnsupportedVersion
  | [] => none
  | ⟨ver, nodeList⟩ :: rest =>
    if compare ver oldest "<" then some ⟨oldest, nodeList, ver⟩ else firstUnsupported oldest rest

def Cluster.versionSupported (ord : MapOrder) (c : Cluster) (now : Nat) (oldest : String) :
    Option UnsupportedVersion × Cluster :=
  let (details, c') := c.buildDetails compare now
  (firstUnsupported compare oldest (ord.arrange details.versionList.entries), c')

def versionSupportedOf (ord : MapOrder) (nodes : List Node) (oldest : String) :
    Option UnsupportedVersion :=
  firstUnsupported compare oldest (ord.arrange (versionListOf nodes).entries)

theorem Cluster.versionSupported_fst (ord : MapOrder) (c : Cluster) (now : Nat) (oldest : String) :
    (c.versionSupported compare ord now oldest).1 = versionSupportedOf compare ord c.Nodes oldest :=
  rfl

theorem firstUnsupported_eq_none {oldest : String} {l : List (Sigma fun _ : String => List String)} :
    firstUnsupported compare oldest l = none ↔ ∀ e ∈ l, compare e.1 oldest "<" = false := by
  induction l with
  | nil => simp [firstUnsupported]
  | cons e l ih =>
    obtain ⟨ver, nodeList⟩ := e
    by_cases h : compare ver oldest "<" <;> simp [firstUnsupported, h, ih]

theorem firstUnsupported_eq_some {oldest : String} {l : List (Sigma fun _ : String => List String)}
    {e : UnsupportedVersion} (h : firstUnsupported compare oldest l = some e) :
    e.oldest = oldest ∧ compare e.ver oldest "<" = true ∧ ⟨e.ver, e.nodeList⟩ ∈ l := by
  induction l with
  | nil => simp [firstUnsupported] at h
  | cons e' l ih =>
    obtain ⟨ver, nodeList⟩ := e'
    by_cases hv : compare ver oldest "<"
    · simp only [firstUnsupported, hv, if_true, Option.some.injEq] at h
      subst h
      exact ⟨rfl, hv, List.mem_cons_self _ _⟩
    · simp only [firstUnsupported, hv] at h
      obtain ⟨h1, h2, h3⟩ := ih h
      exact ⟨h1, h2, List.mem_cons_of_mem _ h3⟩

end

theorem lookup_addVersion_self (vl : AList (fun _ : String => List String)) (n : Node) :
    (addVersion vl n).lookup n.build = some ((vl.lookup n.build).getD [] ++ [n.address]) :=
  AList.lookup_insert _

theorem lookup_addVersion_ne {vl : AList (fun _ : String => List String)} {n : Node} {b : String}
    (h : b ≠ n.build) : (addVersion vl n).lookup b = vl.lookup b :=
  AList.lookup_insert_ne h

theorem lookup_foldl_addVersion (nodes : List Node) (vl : AList (fun _ : String => List String))
    (b : String) : (nodes.foldl addVersion vl).lookup b =
      if addressesOf nodes b = [] then vl.lookup b
      else some ((vl.lookup b).getD [] ++ addressesOf nodes b) := by
  induction nodes generalizing vl with
  | nil => simp [addressesOf]
  | cons n nodes ih =>
    rw [List.foldl_cons, ih]
    by_cases hb : b = n.build
    · subst hb
      simp [addressesOf, lookup_addVersion_self]
    · have hb' : ¬n.build = b := Ne.symm hb
      simp [addressesOf, lookup_addVersion_ne hb, hb', List.filter_cons]

theorem lookup_versionListOf (nodes : List Node) (b : String) :
    (versionListOf nodes).lookup b =
      if addressesOf nodes b = [] then none else some (addressesOf nodes b) := by
  simp [versionListOf, lookup_foldl_addVersion]

theorem mem_versionListOf {nodes : List Node} {b : String} {l : List String} :
    (⟨b, l⟩ : Sigma fun _ : String => List String) ∈ (versionListOf nodes).entries ↔
      l = addressesOf nodes b ∧ l ≠ [] := by
  rw [← AList.mem_lookup_iff, lookup_versionListOf]
  split_ifs with h
  · simp [h]
  · simp only [Option.mem_def, Option.some.injEq]
    exact ⟨fun hl => ⟨hl.symm, hl ▸ h⟩, fun hl => hl.1.symm⟩

theorem addressesOf_ne_nil {nodes : List Node} {b : String} :
    addressesOf nodes b ≠ [] ↔ ∃ n ∈ nodes, n.build = b := by
  simp [addressesOf, List.filter_eq_nil_iff]

theorem forall_versionListOf_entries {nodes : List Node} {P : String → Prop} :
    (∀ e ∈ (versionListOf nodes).entries, P e.1) ↔ ∀ n ∈ nodes, P n.build := by
  constructor
  · intro h n hn
    exact h ⟨n.build, _⟩ (mem_versionListOf.mpr ⟨rfl, addressesOf_ne_nil.mpr ⟨n, hn, rfl⟩⟩)
  · rintro h ⟨b, l⟩ he
    obtain ⟨rfl, hl⟩ := mem_versionListOf.mp he
    obtain ⟨n, hn, rfl⟩ := addressesOf_ne_nil.mp hl
    exact h n hn

theorem versionSupportedOf_spec (compare : String → String → String → Bool) (ord : MapOrder)
    (nodes : List Node) (oldest : String) :
    (versionSupportedOf compare ord nodes oldest = none ↔
      ∀ n ∈ nodes, compare n.build oldest "<" = false) ∧
    ∀ e, versionSupportedOf compare ord nodes oldest = some e →
      e.oldest = oldest ∧ compare e.ver oldest "<" = true ∧
      (∃ n ∈ nodes, n.build = e.ver) ∧ e.nodeList = addressesOf nodes e.ver := by
  have hperm := ord.perm (versionListOf nodes).entries
  refine ⟨?_, fun e he => ?_⟩
  · rw [versionSupportedOf, firstUnsupported_eq_none,
      ← @forall_versionListOf_entries nodes fun b => compare b oldest "<" = false]
    exact ⟨fun h e he => h e (hperm.mem_iff.mpr he), fun h e he => h e (hperm.mem_iff.mp he)⟩
  · obtain ⟨h1, h2, h3⟩ := firstUnsupported_eq_some compare he
    obtain ⟨hl, hne⟩ := mem_versionListOf.mp (hperm.mem_iff.mp h3)
    exact ⟨h1, h2, addressesOf_ne_nil.mp (hl ▸ hne), hl⟩

def buildKey (s : String) : Nat :=
  s.toList.foldl (fun acc ch => if ch.isDigit then acc * 10 + (ch.toNat - '0'.toNat) else acc) 0

def compareByKey (key : String → Nat) (a b op : String) : Bool :=
  if op = "<" then key a < key b else if op = ">" then key b < key a else false

theorem versionSupported_names_one_build :
    ¬∀ (compare : String → String → String → Bool) (le : String → String → Prop),
      (∀ a b, le a b ∨ le b a) → (∀ a b c, le a b → le b c → le a c) →
      (∀ a b, (compare a b "<" = true ↔ le a b ∧ ¬le b a) ∧
        (compare a b ">" = true ↔ le b a ∧ ¬le a b)) →
      ∀ (ord : MapOrder) (nodes : List Node) (oldest : String),
        (versionSupportedOf compare ord nodes oldest = none ↔ ∀ n ∈ nodes, le oldest n.build) ∧
        ∀ e, versionSupportedOf compare ord nodes oldest = some e →
          ∀ n ∈ nodes, ¬le oldest n.build → e.ver = n.build ∧ n.address ∈ e.nodeList := by
  intro h
  let nA : Node := { Node.pending ⟨"A", "", 3000⟩ with address := "A:3000", build := "4.5.1" }
  let nB : Node := { Node.pending ⟨"B", "", 3000⟩ with address := "B:3000", build := "4.4.0" }
  have hcmp : ∀ a b, (compareByKey buildKey a b "<" = true ↔
      buildKey a ≤ buildKey b ∧ ¬buildKey b ≤ buildKey a) ∧
      (compareByKey buildKey a b ">" = true ↔ buildKey b ≤ buildKey a ∧ ¬buildKey a ≤ buildKey b) := by
    intro a b
    have hne : (">" : String) ≠ "<" := by decide
    simp only [compareByKey, if_true, if_neg hne, decide_eq_true_eq]
    omega
  have hrun := (h (compareByKey buildKey) (fun a b => buildKey a ≤ buildKey b)
    (fun a b => le_total _ _) (fun _ _ _ => le_trans) hcmp ⟨id, List.Perm.refl⟩ [nA, nB] "4.6.0").2
    ⟨"4.6.0", ["B:3000"], "4.4.0"⟩ (by decide) nA (by simp) (by decide)
  exact absurd hrun.1 (by decide)

def Cluster.nodeCompatibility (c : Cluster) : String :=
  if (versionListOf c.Nodes).keys.length ≤ 1 then "homogeneous" else "compatible"

end Amc.Models
