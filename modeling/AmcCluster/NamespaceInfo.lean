import AmcCluster.Cluster
import Mathlib.Tactic.Ring
import Mathlib.Algebra.BigOperators.Group.List
import Mathlib.Data.List.Basic

/-! `NamespaceInfo`: per requested namespace, the sum of the namespace stats of every
node that reports it, with the least `available_pct`, two formatted object counts, the
cluster status, and `repl-factor` divided by the number of nodes. -/

namespace Amc.Models
open Amc.Common

/-- The `least_available_pct` record held so far, as `(node, value)`; a value that is
not such a record fails Go's type assertion. -/
def currentLeast (nsStats : Stats) : Except Panic (Option String × Option ℚ) :=
  match nsStats.lookup "least_available_pct" with
  | none => .ok (none, none)
  | some (.pct node value) => .ok (node, value)
  | some _ => .error .typeAssertion

def nextLeast (cur : Option String × Option ℚ) (address : String) (availPct : ℚ) :
    Option String × Option ℚ :=
  match cur.2 with
  | none => (some address, some availPct)
  | some v => if availPct < v then (some address, some availPct) else cur

def objectsTombstones (s : Stats) (objects tombstones : String) : Value :=
  .str (comma (s.tryInt objects 0) "," ++ " / " ++ comma (s.tryInt tombstones 0) ",")

def mergedStats (res : AList (fun _ : String => Stats)) (nsName : String) (stats : Stats) :
    Stats :=
  match res.lookup nsName with
  | none => stats
  | some acc => acc.aggregateStats stats

/-- The `least_available_pct` record a node leaves: a node without `available_pct ≥ 0`
resets it to `{nil, nil}`. -/
def leastAfter (nsStats stats : Stats) (address : String) :
    Except Panic (Option String × Option ℚ) :=
  let availPct := stats.tryFloat "available_pct" (-1)
  if 0 ≤ availPct then (fun cur => nextLeast cur address availPct) <$> currentLeast nsStats
  else pure (none, none)

def finishStats (nsStats : Stats) (least : Option String × Option ℚ) (status : String) :
    Stats :=
  nsStats
    |>.insert "master-objects-tombstones"
      (objectsTombstones nsStats "master-objects" "master_tombstones")
    |>.insert "prole-objects-tombstones"
      (objectsTombstones nsStats "prole-objects" "prole_tombstones")
    |>.insert "least_available_pct" (.pct least.1 least.2)
    |>.insert "cluster_status" (.str status)

def namespaceStep (status : String) (node : Node) (res : AList (fun _ : String => Stats))
    (nsName : String) : Except Panic (AList (fun _ : String => Stats)) :=
  match node.namespaceByName nsName with
  | none => .ok res
  | some stats =>
    (fun least => res.insert nsName (finishStats (mergedStats res nsName stats) least status)) <$>
      leastAfter (mergedStats res nsName stats) stats node.address

/-- The closing loop of `NamespaceInfo`: `repl-factor` divided by the number of nodes, as
Go's truncating `int64` division. -/
def normalizeReplFactor (res : AList (fun _ : String => Stats)) (count : Nat) :
    AList (fun _ : String => Stats) :=
  res.foldl (fun acc k st =>
    acc.insert k (st.insert "repl-factor" (.int ((st.tryInt "repl-factor" 0).tdiv count)))) ∅

def namespaceInfoOf (nodes : List Node) (status : String) (namespaces : List String) :
    Except Panic (AList (fun _ : String => Stats)) := do
  let res ← nodes.foldlM (fun res node => namespaces.foldlM (namespaceStep status node) res) ∅
  pure (normalizeReplFactor res nodes.length)

def Cluster.namespaceInfo (c : Cluster) (namespaces : List String) :
    Except Panic (AList (fun _ : String => Stats)) :=
  namespaceInfoOf c.Nodes c.status namespaces

end Amc.Models

namespace Amc.Models
open Amc.Common

def LeastOk (s : Stats) : Prop :=
  ∀ v, s.lookup "least_available_pct" = some v → ∃ a p, v = .pct a p

def ResOk (res : AList (fun _ : String => Stats)) : Prop :=
  ∀ k st, res.lookup k = some st → ∃ a p, st.lookup "least_available_pct" = some (.pct a p)

def Node.NoLeastKey (n : Node) : Prop :=
  ∀ nsName st, n.namespaceByName nsName = some st → st.lookup "least_available_pct" = none

theorem resOk_empty : ResOk ∅ := fun _ _ h => by cases h

theorem Node.noLeastKey_of_entries {n : Node}
    (h : ∀ e ∈ n.namespaces.entries, e.2.lookup "least_available_pct" = none) : n.NoLeastKey :=
  fun nsName st hst => h ⟨nsName, st⟩ (AList.mem_lookup_iff.mp hst)

theorem currentLeast_ok {s : Stats} (h : LeastOk s) : ∃ L, currentLeast s = .ok L := by
  unfold currentLeast
  cases hs : s.lookup "least_available_pct" with
  | none => exact ⟨_, rfl⟩
  | some v =>
    obtain ⟨a, p, rfl⟩ := h v hs
    exact ⟨_, rfl⟩

theorem leastAfter_ok {nsStats : Stats} (h : LeastOk nsStats) (stats : Stats) (a : String) :
    ∃ L, leastAfter nsStats stats a = .ok L := by
  simp only [leastAfter]
  split
  · obtain ⟨L, hL⟩ := currentLeast_ok h
    exact ⟨_, by rw [hL]; rfl⟩
  · exact ⟨_, rfl⟩

theorem leastOk_mergedStats {res : AList (fun _ : String => Stats)} (nsName : String)
    {stats : Stats} (hres : ResOk res) (hst : stats.lookup "least_available_pct" = none) :
    LeastOk (mergedStats res nsName stats) := by
  unfold mergedStats
  cases h : res.lookup nsName with
  | none => intro v hv; rw [hst] at hv; cases hv
  | some acc =>
    intro v hv
    rw [Stats.lookup_aggregateStats, hst] at hv
    obtain ⟨a, p, hp⟩ := hres _ _ h
    exact ⟨a, p, Option.some.inj (hv.symm.trans hp)⟩

@[simp] theorem lookup_finishStats_least (s : Stats) (L : Option String × Option ℚ)
    (status : String) :
    (finishStats s L status).lookup "least_available_pct" = some (.pct L.1 L.2) := by
  simp [finishStats, AList.lookup_insert_ne, AList.lookup_insert]

@[simp] theorem lookup_finishStats_replFactor (s : Stats) (L : Option String × Option ℚ)
    (status : String) : (finishStats s L status).lookup "repl-factor" = s.lookup "repl-factor" := by
  simp [finishStats, AList.lookup_insert_ne]

theorem resOk_insert {res : AList (fun _ : String => Stats)} (hres : ResOk res) (k : String)
    (L : Option String × Option ℚ) (s : Stats) (status : String) :
    ResOk (res.insert k (finishStats s L status)) := by
  intro k' st h
  by_cases hk : k' = k
  · subst hk
    rw [AList.lookup_insert, Option.some.injEq] at h
    exact ⟨_, _, h ▸ lookup_finishStats_least s L status⟩
  · rw [AList.lookup_insert_ne hk] at h
    exact hres _ _ h

theorem namespaceStep_ok {res : AList (fun _ : String => Stats)} (hres : ResOk res)
    {node : Node} (hn : node.NoLeastKey) (status nsName : String) :
    ∃ res', namespaceStep status node res nsName = .ok res' ∧ ResOk res' ∧
      (node.namespaceByName nsName = none → res' = res) ∧
      ∀ st, node.namespaceByName nsName = some st →
        ∃ L, leastAfter (mergedStats res nsName st) st node.address = .ok L ∧
          res' = res.insert nsName (finishStats (mergedStats res nsName st) L status) := by
  cases h : node.namespaceByName nsName with
  | none => exact ⟨res, by simp only [namespaceStep, h], hres, fun _ => rfl, fun _ h' => by cases h'⟩
  | some st =>
    obtain ⟨L, hL⟩ := leastAfter_ok (leastOk_mergedStats nsName hres (hn _ _ h)) st node.address
    refine ⟨_, by simp only [namespaceStep, h, hL]; rfl, resOk_insert hres _ _ _ _, fun h' => (by cases h'), ?_⟩
    rintro st' ⟨⟩
    exact ⟨L, hL, rfl⟩

/-! ### `repl-factor` -/

def Node.replFactor (ns : String) (n : Node) : Int :=
  ((n.namespaceByName ns).map (·.tryInt "repl-factor" 0)).getD 0

def Node.IntReplFactor (ns : String) (n : Node) : Prop :=
  ∀ st v, n.namespaceByName ns = some st → st.lookup "repl-factor" = some v → ∃ r, v = .int r

def Value.isInt : Value → Bool
  | .int _ => true
  | _ => false

theorem Node.intReplFactor_of_entries {n : Node} {ns : String}
    (h : ∀ e ∈ n.namespaces.entries, e.1 = ns → (e.2.lookup "repl-factor").all Value.isInt) :
    n.IntReplFactor ns := by
  intro st v hst hv
  have := h ⟨ns, st⟩ (AList.mem_lookup_iff.mp hst) rfl
  rw [hv] at this
  cases v <;> simp_all [Value.isInt]

def replOf (ns : String) (res : AList (fun _ : String => Stats)) : Option Int :=
  (res.lookup ns).map (·.tryInt "repl-factor" 0)

def addReplFactor (ns : String) (node : Node) (o : Option Int) (nsName : String) : Option Int :=
  if nsName = ns ∧ (node.namespaceByName ns).isSome then some (o.getD 0 + node.replFactor ns)
  else o

theorem tryInt_mergedStats {res : AList (fun _ : String => Stats)} {ns : String} {node : Node}
    {st : Stats} (hst : node.namespaceByName ns = some st) (hint : node.IntReplFactor ns) :
    (mergedStats res ns st).tryInt "repl-factor" 0 = ((replOf ns res).getD 0) + node.replFactor ns := by
  simp only [Node.replFactor, hst, Option.map_some', Option.getD_some, replOf, mergedStats]
  cases h : res.lookup ns with
  | none => simp
  | some acc =>
    simp only [Option.map_some', Option.getD_some]
    cases hv : st.lookup "repl-factor" with
    | none => simp [Stats.tryInt, Stats.lookup_aggregateStats, hv, Value.combine, Value.toInt]
    | some v =>
      obtain ⟨r, rfl⟩ := hint st v hst hv
      rw [Stats.tryInt_aggregateStats hv]
      simp [Stats.tryInt, hv, Value.toInt]

theorem replOf_insert_self (ns : String) (res : AList (fun _ : String => Stats)) (st : Stats) :
    replOf ns (res.insert ns st) = some (st.tryInt "repl-factor" 0) := by
  simp [replOf, AList.lookup_insert]

theorem replOf_insert_ne {ns k : String} (h : ns ≠ k) (res : AList (fun _ : String => Stats))
    (st : Stats) : replOf ns (res.insert k st) = replOf ns res := by
  simp [replOf, AList.lookup_insert_ne h]

theorem tryInt_finishStats_replFactor (s : Stats) (L : Option String × Option ℚ)
    (status : String) : (finishStats s L status).tryInt "repl-factor" 0 = s.tryInt "repl-factor" 0 := by
  simp only [Stats.tryInt, lookup_finishStats_replFactor]

theorem replOf_namespaceStep {res res' : AList (fun _ : String => Stats)} {node : Node}
    {status nsName ns : String} (hint : node.IntReplFactor ns)
    (hnone : node.namespaceByName nsName = none → res' = res)
    (hsome : ∀ st, node.namespaceByName nsName = some st → ∃ L,
      res' = res.insert nsName (finishStats (mergedStats res nsName st) L status)) :
    replOf ns res' = addReplFactor ns node (replOf ns res) nsName := by
  cases h : node.namespaceByName nsName with
  | none =>
    rw [hnone h]
    by_cases hn : nsName = ns
    · subst hn; simp [addReplFactor, h]
    · simp [addReplFactor, hn]
  | some st =>
    obtain ⟨L, rfl⟩ := hsome st h
    by_cases hn : nsName = ns
    · subst hn
      rw [replOf_insert_self, tryInt_finishStats_replFactor, tryInt_mergedStats h hint]
      simp [addReplFactor, h]
    · rw [replOf_insert_ne (Ne.symm hn)]
      simp [addReplFactor, hn]

theorem foldl_addReplFactor (ns : String) (node : Node) (names : List String) (o : Option Int) :
    names.foldl (addReplFactor ns node) o =
      if ns ∈ names ∧ (node.namespaceByName ns).isSome then
        some (o.getD 0 + names.count ns * node.replFactor ns)
      else o := by
  induction names generalizing o with
  | nil => simp
  | cons x names ih =>
    rw [List.foldl_cons, ih]
    by_cases hr : (node.namespaceByName ns).isSome
    · by_cases hx : x = ns
      · subst hx
        by_cases hm : x ∈ names
        · simp only [addReplFactor, hr, hm, List.count_cons_self, List.mem_cons_self, and_self,
            if_true, Option.getD_some, true_or]
          push_cast
          congr 1
          ring
        · simp [addReplFactor, hr, hm, List.count_eq_zero_of_not_mem hm]
      · have hx' : ns ≠ x := Ne.symm hx
        simp [addReplFactor, hx, hx', List.count_cons]
    · simp [addReplFactor, hr]

theorem Node.replFactor_eq_zero {ns : String} {n : Node} (h : ¬(n.namespaceByName ns).isSome) :
    n.replFactor ns = 0 := by
  simp [Node.replFactor, Option.not_isSome_iff_eq_none.mp h]

theorem foldl_nodes_addReplFactor (ns : String) (names : List String) (nodes : List Node)
    (o : Option Int) :
    nodes.foldl (fun o node => names.foldl (addReplFactor ns node) o) o =
      if ns ∈ names ∧ ∃ n ∈ nodes, (n.namespaceByName ns).isSome then
        some (o.getD 0 + names.count ns * (nodes.map (Node.replFactor ns)).sum)
      else o := by
  induction nodes generalizing o with
  | nil => simp
  | cons n nodes ih =>
    rw [List.foldl_cons, ih, foldl_addReplFactor]
    by_cases hm : ns ∈ names
    · by_cases hr : (n.namespaceByName ns).isSome
      · by_cases hrest : ∃ n' ∈ nodes, (n'.namespaceByName ns).isSome
        · simp only [hm, hr, hrest, and_self, if_true, Option.getD_some, List.map_cons,
            List.sum_cons, List.mem_cons, exists_eq_or_imp, true_or]
          congr 1
          ring
        · have hz : (nodes.map (Node.replFactor ns)).sum = 0 := by
            refine List.sum_eq_zero fun x hx => ?_
            obtain ⟨n', hn', rfl⟩ := List.mem_map.mp hx
            exact Node.replFactor_eq_zero fun h => hrest ⟨n', hn', h⟩
          simp [hm, hr, hrest, hz]
      · simp [hm, hr, Node.replFactor_eq_zero hr]
    · simp [hm]

theorem lookup_normalizeReplFactor (res : AList (fun _ : String => Stats)) (count : Nat)
    (k : String) : (normalizeReplFactor res count).lookup k = (res.lookup k).map fun st =>
      st.insert "repl-factor" (.int ((st.tryInt "repl-factor" 0).tdiv count)) := by
  have h := lookup_foldl_keywise
    (fun (acc : AList (fun _ : String => Stats)) k st =>
      acc.insert k (st.insert "repl-factor" (.int ((st.tryInt "repl-factor" 0).tdiv count))))
    (fun _ st => some (st.insert "repl-factor" (.int ((st.tryInt "repl-factor" 0).tdiv count))))
    (fun _ _ _ _ h => AList.lookup_insert_ne h) (fun _ _ _ => AList.lookup_insert _)
    res.entries res.nodupKeys ∅ k
  rw [normalizeReplFactor, AList.foldl, h]
  change _ = Option.map _ (res.entries.dlookup k)
  cases res.entries.dlookup k <;> rfl

theorem namespaceInfo_replFactor (nodes : List Node) (status : String) (namespaces : List String)
    (ns : String) (hkey : ∀ n ∈ nodes, n.NoLeastKey) (hint : ∀ n ∈ nodes, n.IntReplFactor ns)
    (hns : ns ∈ namespaces) (hrep : ∃ n ∈ nodes, (n.namespaceByName ns).isSome) :
    ∃ res st, namespaceInfoOf nodes status namespaces = .ok res ∧ res.lookup ns = some st ∧
      st.lookup "repl-factor" = some (.int
        ((namespaces.count ns * (nodes.map (Node.replFactor ns)).sum).tdiv nodes.length)) := by
  have inner : ∀ node ∈ nodes, ∀ res, ResOk res → ∃ res',
      namespaces.foldlM (namespaceStep status node) res = .ok res' ∧ ResOk res' ∧
        replOf ns res' = namespaces.foldl (addReplFactor ns node) (replOf ns res) := by
    intro node hnode
    refine foldlM_simulate _ ResOk (replOf ns) (addReplFactor ns node) namespaces ?_
    intro res nsName _ hres
    obtain ⟨res', hstep, hres', hnone, hsome⟩ := namespaceStep_ok hres (hkey node hnode) status nsName
    exact ⟨res', hstep, hres', replOf_namespaceStep (hint node hnode) hnone
      fun st h => (hsome st h).imp fun _ hL => hL.2⟩
  obtain ⟨res, hrun, -, hrepl⟩ := foldlM_simulate _ ResOk (replOf ns)
    (fun o node => namespaces.foldl (addReplFactor ns node) o) nodes
    (fun res node hnode hres => inner node hnode res hres) ∅ resOk_empty
  rw [foldl_nodes_addReplFactor, if_pos ⟨hns, hrep⟩, show replOf ns ∅ = none from rfl,
    Option.getD_none, zero_add] at hrepl
  obtain ⟨st, hst, hsum⟩ := Option.map_eq_some'.mp hrepl
  refine ⟨_, _, by rw [namespaceInfoOf, hrun]; rfl, by rw [lookup_normalizeReplFactor, hst]; rfl, ?_⟩
  rw [AList.lookup_insert, hsum]

theorem sum_replFactor_uniform {nodes : List Node} {ns : String} {r : Int}
    (hall : ∀ n ∈ nodes, ∃ st, n.namespaceByName ns = some st ∧
      st.lookup "repl-factor" = some (.int r)) :
    (nodes.map (Node.replFactor ns)).sum = nodes.length * r := by
  have : nodes.map (Node.replFactor ns) = nodes.map fun _ => r := by
    refine List.map_congr_left fun n hn => ?_
    obtain ⟨st, hst, hr⟩ := hall n hn
    simp [Node.replFactor, hst, Stats.tryInt, hr, Value.toInt]
  simp [this, List.sum_replicate]

theorem namespaceInfo_replFactor_spec (nodes : List Node) (status : String)
    (namespaces : List String) (ns : String) (hkey : ∀ n ∈ nodes, n.NoLeastKey)
    (hint : ∀ n ∈ nodes, n.IntReplFactor ns) (hns : ns ∈ namespaces)
    (hrep : ∃ n ∈ nodes, (n.namespaceByName ns).isSome) :
    ∃ res st, namespaceInfoOf nodes status namespaces = .ok res ∧ res.lookup ns = some st ∧
      st.lookup "repl-factor" = some (.int
        ((namespaces.count ns * (nodes.map (Node.replFactor ns)).sum).tdiv nodes.length)) ∧
      (namespaces = [ns] → ∀ r, (∀ n ∈ nodes, ∃ st, n.namespaceByName ns = some st ∧
        st.lookup "repl-factor" = some (.int r)) → st.lookup "repl-factor" = some (.int r)) := by
  obtain ⟨res, st, hrun, hst, hv⟩ := namespaceInfo_replFactor nodes status namespaces ns hkey hint
    hns hrep
  refine ⟨res, st, hrun, hst, hv, fun hone r hall => ?_⟩
  obtain ⟨n, hn, -⟩ := hrep
  have hlen : (nodes.length : Int) ≠ 0 := by simpa using List.ne_nil_of_mem hn
  rw [hv, sum_replFactor_uniform hall, hone, List.count_singleton_self, Nat.cast_one, one_mul,
    Int.mul_tdiv_cancel_left _ hlen]

def halfReporting : List Node :=
  [{ Node.pending ⟨"A", "", 3000⟩ with
      namespaces := AList.singleton "test" (AList.singleton "repl-factor" (.int 2)) },
    Node.pending ⟨"B", "", 3000⟩]

theorem namespaceInfo_replFactor_two_nodes :
    ∃ res st, namespaceInfoOf halfReporting "on" ["test"] = .ok res ∧
      res.lookup "test" = some st ∧ st.lookup "repl-factor" = some (.int 1) := by
  obtain ⟨res, st, hrun, hst, hv, -⟩ := namespaceInfo_replFactor_spec halfReporting "on" ["test"]
    "test" (fun n hn => Node.noLeastKey_of_entries (by revert n; decide))
    (fun n hn => Node.intReplFactor_of_entries (by revert n; decide)) (by decide) (by decide)
  exact ⟨res, st, hrun, hst, by rw [hv]; rfl⟩

theorem namespaceInfo_replFactor_halved :
    ¬∀ (nodes : List Node) (status : String) (namespaces : List String) (ns : String) (r : Int),
      (∀ n ∈ nodes, ∀ st, n.namespaceByName ns = some st →
        st.lookup "repl-factor" = some (.int r)) →
      ∀ res st, namespaceInfoOf nodes status namespaces = .ok res → res.lookup ns = some st →
        st.lookup "repl-factor" = some (.int r) := by
  intro h
  have hrep : ∀ n ∈ halfReporting, ∀ st, n.namespaceByName "test" = some st →
      st.lookup "repl-factor" = some (.int 2) := by
    simp only [halfReporting, List.mem_cons, List.mem_singleton, List.not_mem_nil, or_false]
    rintro n (rfl | rfl) st hst
    · cases hst; rfl
    · cases hst
  exact absurd (h halfReporting "on" ["test"] "test" 2 hrep _ _ rfl rfl) (by decide)

/-! ### `least_available_pct` -/

def leastOf : Option Value → Option String × Option ℚ
  | some (.pct a v) => (a, v)
  | _ => (none, none)

def leastStep (cur : Option String × Option ℚ) (x : String × ℚ) : Option String × Option ℚ :=
  if 0 ≤ x.2 then nextLeast cur x.1 x.2 else (none, none)

def pctOf (address : String) (stats : Stats) : String × ℚ :=
  (address, stats.tryFloat "available_pct" (-1))

theorem currentLeast_eq {s : Stats} (h : LeastOk s) :
    currentLeast s = .ok (leastOf (s.lookup "least_available_pct")) := by
  unfold currentLeast
  cases hs : s.lookup "least_available_pct" with
  | none => rfl
  | some v =>
    obtain ⟨a, p, rfl⟩ := h v hs
    rfl

theorem leastAfter_eq {nsStats : Stats} (h : LeastOk nsStats) (stats : Stats) (a : String) :
    leastAfter nsStats stats a =
      .ok (leastStep (leastOf (nsStats.lookup "least_available_pct")) (pctOf a stats)) := by
  simp only [leastAfter, leastStep, pctOf]
  split
  · rw [currentLeast_eq h]; rfl
  · rfl

theorem nextLeast_idem (cur : Option String × Option ℚ) (a : String) (p : ℚ) :
    nextLeast (nextLeast cur a p) a p = nextLeast cur a p := by
  rcases cur with ⟨n, _ | v⟩
  · simp [nextLeast]
  · by_cases h : p < v <;> simp [nextLeast, h]

theorem leastStep_idem (cur : Option String × Option ℚ) (x : String × ℚ) :
    leastStep (leastStep cur x) x = leastStep cur x := by
  by_cases h : 0 ≤ x.2 <;> simp [leastStep, h, nextLeast_idem]

def leastIn (ns : String) (res : AList (fun _ : String => Stats)) :
    Option (Option String × Option ℚ) :=
  (res.lookup ns).map fun st => leastOf (st.lookup "least_available_pct")

def passLeast (ns : String) (node : Node) (o : Option (Option String × Option ℚ)) :
    Option (Option String × Option ℚ) :=
  match node.namespaceByName ns with
  | some st => some (leastStep (o.getD (none, none)) (pctOf node.address st))
  | none => o

def stepLeast (ns : String) (node : Node) (o : Option (Option String × Option ℚ))
    (nsName : String) : Option (Option String × Option ℚ) :=
  if nsName = ns then passLeast ns node o else o

theorem leastOf_mergedStats {res : AList (fun _ : String => Stats)} {ns : String} {st : Stats}
    (hst : st.lookup "least_available_pct" = none) :
    leastOf ((mergedStats res ns st).lookup "least_available_pct") = (leastIn ns res).getD (none, none) := by
  unfold mergedStats leastIn
  cases h : res.lookup ns with
  | none => simp [hst, leastOf]
  | some acc => simp [Stats.lookup_aggregateStats, hst, Value.combine]

theorem leastIn_insert_finish (ns : String) (res : AList (fun _ : String => Stats)) (s : Stats)
    (L : Option String × Option ℚ) (status : String) :
    leastIn ns (res.insert ns (finishStats s L status)) = some L := by
  simp [leastIn, AList.lookup_insert, leastOf]

theorem leastIn_insert_ne {ns k : String} (h : ns ≠ k) (res : AList (fun _ : String => Stats))
    (st : Stats) : leastIn ns (res.insert k st) = leastIn ns res := by
  simp [leastIn, AList.lookup_insert_ne h]

theorem leastIn_namespaceStep {res res' : AList (fun _ : String => Stats)} {node : Node}
    {status nsName ns : String} (hres : ResOk res) (hn : node.NoLeastKey)
    (hnone : node.namespaceByName nsName = none → res' = res)
    (hsome : ∀ st, node.namespaceByName nsName = some st → ∃ L,
      leastAfter (mergedStats res nsName st) st node.address = .ok L ∧
      res' = res.insert nsName (finishStats (mergedStats res nsName st) L status)) :
    leastIn ns res' = stepLeast ns node (leastIn ns res) nsName := by
  cases h : node.namespaceByName nsName with
  | none =>
    rw [hnone h]
    by_cases hns : nsName = ns
    · subst hns; simp [stepLeast, passLeast, h]
    · simp [stepLeast, hns]
  | some st =>
    obtain ⟨L, hL, rfl⟩ := hsome st h
    by_cases hns : nsName = ns
    · subst hns
      rw [leastAfter_eq (leastOk_mergedStats _ hres (hn _ _ h)), Except.ok.injEq,
        leastOf_mergedStats (hn _ _ h)] at hL
      rw [leastIn_insert_finish, ← hL]
      simp [stepLeast, passLeast, h]
    · rw [leastIn_insert_ne (Ne.symm hns)]
      simp [stepLeast, hns]

theorem passLeast_idem (ns : String) (node : Node) (o : Option (Option String × Option ℚ)) :
    passLeast ns node (passLeast ns node o) = passLeast ns node o := by
  simp only [passLeast]
  cases node.namespaceByName ns <;> simp [leastStep_idem]

theorem foldl_stepLeast (ns : String) (node : Node) (names : List String)
    (o : Option (Option String × Option ℚ)) :
    names.foldl (stepLeast ns node) o = if ns ∈ names then passLeast ns node o else o := by
  induction names generalizing o with
  | nil => simp
  | cons x names ih =>
    rw [List.foldl_cons, ih]
    by_cases hx : x = ns
    · subst hx
      by_cases hm : x ∈ names <;> simp [stepLeast, hm, passLeast_idem]
    · simp [stepLeast, hx, Ne.symm hx]

def reportedPcts (ns : String) (nodes : List Node) : List (String × ℚ) :=
  nodes.filterMap fun n => (n.namespaceByName ns).map (pctOf n.address)

theorem foldl_passLeast (ns : String) (nodes : List Node) (o : Option (Option String × Option ℚ)) :
    nodes.foldl (fun o n => passLeast ns n o) o =
      if reportedPcts ns nodes = [] then o
      else some ((reportedPcts ns nodes).foldl leastStep (o.getD (none, none))) := by
  induction nodes generalizing o with
  | nil => simp [reportedPcts]
  | cons n nodes ih =>
    rw [List.foldl_cons, ih]
    cases h : n.namespaceByName ns with
    | none => simp [passLeast, reportedPcts, h]
    | some st =>
      simp only [reportedPcts] at ih ⊢
      by_cases hr : (nodes.filterMap fun n => (n.namespaceByName ns).map (pctOf n.address)) = [] <;>
        simp [passLeast, h, hr]

theorem namespaceInfo_least (nodes : List Node) (status : String) (namespaces : List String)
    (ns : String) (hkey : ∀ n ∈ nodes, n.NoLeastKey) (hns : ns ∈ namespaces)
    (hrep : reportedPcts ns nodes ≠ []) :
    ∃ res st, namespaceInfoOf nodes status namespaces = .ok res ∧ res.lookup ns = some st ∧
      st.lookup "least_available_pct" = some (.pct
        ((reportedPcts ns nodes).foldl leastStep (none, none)).1
        ((reportedPcts ns nodes).foldl leastStep (none, none)).2) := by
  have inner : ∀ node ∈ nodes, ∀ res, ResOk res → ∃ res',
      namespaces.foldlM (namespaceStep status node) res = .ok res' ∧ ResOk res' ∧
        leastIn ns res' = namespaces.foldl (stepLeast ns node) (leastIn ns res) := by
    intro node hnode
    refine foldlM_simulate _ ResOk (leastIn ns) (stepLeast ns node) namespaces ?_
    intro res nsName _ hres
    obtain ⟨res', hstep, hres', hnone, hsome⟩ := namespaceStep_ok hres (hkey node hnode) status nsName
    exact ⟨res', hstep, hres', leastIn_namespaceStep hres (hkey node hnode) hnone hsome⟩
  obtain ⟨res, hrun, hres, hleast⟩ := foldlM_simulate _ ResOk (leastIn ns)
    (fun o node => namespaces.foldl (stepLeast ns node) o) nodes
    (fun res node hnode hres => inner node hnode res hres) ∅ resOk_empty
  simp only [foldl_stepLeast, hns, if_true, foldl_passLeast, hrep, if_false,
    show leastIn ns ∅ = none from rfl, Option.getD_none] at hleast
  obtain ⟨st, hst, hL⟩ := Option.map_eq_some'.mp hleast
  obtain ⟨a, p, hp⟩ := hres ns st hst
  refine ⟨_, _, by rw [namespaceInfoOf, hrun]; rfl, by rw [lookup_normalizeReplFactor, hst]; rfl, ?_⟩
  rw [AList.lookup_insert_ne (by decide), hp, ← hL, hp]
  rfl

theorem reportedPcts_append_cons (ns : String) (pre post : List Node) (node : Node) (st : Stats)
    (hnode : node.namespaceByName ns = some st) (hpost : ∀ n ∈ post, n.namespaceByName ns = none) :
    reportedPcts ns (pre ++ node :: post) = reportedPcts ns pre ++ [pctOf node.address st] := by
  have hnil : reportedPcts ns post = [] :=
    List.filterMap_eq_nil_iff.mpr fun n hn => by simp [hpost n hn]
  simp only [reportedPcts] at hnil ⊢
  simp [List.filterMap_append, hnode, hnil]

theorem namespaceInfo_least_reset (pre post : List Node) (node : Node) (status : String)
    (namespaces : List String) (ns : String) (st : Stats)
    (hkey : ∀ n ∈ pre ++ node :: post, n.NoLeastKey) (hns : ns ∈ namespaces)
    (hnode : node.namespaceByName ns = some st) (hpct : st.tryFloat "available_pct" (-1) < 0)
    (hpost : ∀ n ∈ post, n.namespaceByName ns = none) :
    ∃ res st', namespaceInfoOf (pre ++ node :: post) status namespaces = .ok res ∧
      res.lookup ns = some st' ∧ st'.lookup "least_available_pct" = some (.pct none none) := by
  have hrep := reportedPcts_append_cons ns pre post node st hnode hpost
  obtain ⟨res, st', hrun, hst, hL⟩ := namespaceInfo_least _ status namespaces ns hkey hns
    (by simp [hrep])
  have hlast : (reportedPcts ns (pre ++ node :: post)).foldl leastStep (none, none) = (none, none) := by
    rw [hrep, List.foldl_append, List.foldl_cons, List.foldl_nil, leastStep, if_neg]
    exact not_le.mpr hpct
  exact ⟨res, st', hrun, hst, by rw [hL, hlast]⟩

theorem namespaceInfo_least_reset_two_nodes :
    ∃ res st', namespaceInfoOf [{ Node.pending ⟨"A", "", 3000⟩ with
        address := "A:3000"
        namespaces := AList.singleton "test" (AList.singleton "available_pct" (.float 50)) },
      { Node.pending ⟨"B", "", 3000⟩ with
        address := "B:3000"
        namespaces := AList.singleton "test" ∅ }] "on" ["test"] = .ok res ∧
      res.lookup "test" = some st' ∧ st'.lookup "least_available_pct" = some (.pct none none) :=
  namespaceInfo_least_reset [_] [] _ "on" ["test"] "test" ∅
    (fun n hn => Node.noLeastKey_of_entries (by revert n; decide)) (by decide) rfl
    (by decide) (by decide)

def IsFirstMin (l : List (String × ℚ)) (a : String) (v : ℚ) : Prop :=
  ∃ l₁ l₂, l = l₁ ++ (a, v) :: l₂ ∧ (∀ x ∈ l₁, v < x.2) ∧ ∀ x ∈ l₂, v ≤ x.2

theorem foldl_leastStep_firstMin (l : List (String × ℚ)) (hne : l ≠ []) (hnn : ∀ x ∈ l, 0 ≤ x.2) :
    ∃ a v, l.foldl leastStep (none, none) = (some a, some v) ∧ IsFirstMin l a v := by
  induction l using List.reverseRecOn with
  | nil => exact absurd rfl hne
  | append_singleton init x ih =>
    have hx : 0 ≤ x.2 := hnn x (by simp)
    rw [List.foldl_append, List.foldl_cons, List.foldl_nil]
    by_cases hinit : init = []
    · subst hinit
      exact ⟨x.1, x.2, by simp [leastStep, hx, nextLeast], [], [], by simp, by simp, by simp⟩
    obtain ⟨a, v, hfold, l₁, l₂, rfl, h₁, h₂⟩ :=
      ih hinit fun y hy => hnn y (List.mem_append_left _ hy)
    rw [hfold]
    by_cases hlt : x.2 < v
    · refine ⟨x.1, x.2, by simp [leastStep, hx, nextLeast, hlt], l₁ ++ (a, v) :: l₂, [],
        by simp, fun y hy => ?_, by simp⟩
      rcases List.mem_append.mp hy with hy | hy
      · exact hlt.trans (h₁ y hy)
      · rcases List.mem_cons.mp hy with rfl | hy
        · exact hlt
        · exact lt_of_lt_of_le hlt (h₂ y hy)
    · refine ⟨a, v, by simp [leastStep, hx, nextLeast, hlt], l₁, l₂ ++ [x], by simp, h₁,
        fun y hy => ?_⟩
      rcases List.mem_append.mp hy with hy | hy
      · exact h₂ y hy
      · rw [List.mem_singleton.mp hy]
        exact not_lt.mp hlt

theorem namespaceInfo_least_firstMin (nodes : List Node) (status : String)
    (namespaces : List String) (ns : String) (hkey : ∀ n ∈ nodes, n.NoLeastKey)
    (hns : ns ∈ namespaces) (hrep : ∃ n ∈ nodes, (n.namespaceByName ns).isSome)
    (hnn : ∀ n ∈ nodes, ∀ st, n.namespaceByName ns = some st →
      0 ≤ st.tryFloat "available_pct" (-1)) :
    ∃ res st a v, namespaceInfoOf nodes status namespaces = .ok res ∧ res.lookup ns = some st ∧
      st.lookup "least_available_pct" = some (.pct (some a) (some v)) ∧
      IsFirstMin (reportedPcts ns nodes) a v := by
  have hne : reportedPcts ns nodes ≠ [] := by
    obtain ⟨n, hn, hs⟩ := hrep
    obtain ⟨st, hst⟩ := Option.isSome_iff_exists.mp hs
    simp only [reportedPcts, ne_eq, List.filterMap_eq_nil_iff, not_forall]
    exact ⟨n, hn, by simp [hst]⟩
  have hpos : ∀ x ∈ reportedPcts ns nodes, 0 ≤ x.2 := by
    intro x hx
    obtain ⟨n, hn, hx⟩ := List.mem_filterMap.mp hx
    obtain ⟨st, hst, rfl⟩ := Option.map_eq_some'.mp hx
    exact hnn n hn st hst
  obtain ⟨a, v, hfold, hmin⟩ := foldl_leastStep_firstMin _ hne hpos
  obtain ⟨res, st, hrun, hst, hL⟩ := namespaceInfo_least nodes status namespaces ns hkey hns hne
  exact ⟨res, st, a, v, hrun, hst, by rw [hL, hfold], hmin⟩

def twoPcts : List Node :=
  [{ Node.pending ⟨"A", "", 3000⟩ with
      namespaces := AList.singleton "test" (AList.singleton "available_pct" (.int 40)) },
    { Node.pending ⟨"B", "", 3000⟩ with
      namespaces := AList.singleton "test" (AList.singleton "available_pct" (.int 25)) }]

theorem namespaceInfo_least_firstMin_two_nodes :
    (∀ n ∈ twoPcts, n.NoLeastKey) ∧ "test" ∈ ["test"] ∧
      (∃ n ∈ twoPcts, (n.namespaceByName "test").isSome) ∧
      (∀ n ∈ twoPcts, ∀ st, n.namespaceByName "test" = some st →
        0 ≤ st.tryFloat "available_pct" (-1)) ∧
      ∃ res st a v, namespaceInfoOf twoPcts "on" ["test"] = .ok res ∧ res.lookup "test" = some st ∧
        st.lookup "least_available_pct" = some (.pct (some a) (some v)) ∧
        IsFirstMin (reportedPcts "test" twoPcts) a v :=
  have hkey : ∀ n ∈ twoPcts, n.NoLeastKey :=
    fun n hn => Node.noLeastKey_of_entries (by revert n; decide)
  have hnn : ∀ n ∈ twoPcts, ∀ st, n.namespaceByName "test" = some st →
      0 ≤ st.tryFloat "available_pct" (-1) := by
    simp only [twoPcts, List.mem_cons, List.mem_singleton, List.not_mem_nil, or_false]
    rintro n (rfl | rfl) st hst <;> cases hst <;> decide
  ⟨hkey, by decide, by decide, hnn,
    namespaceInfo_least_firstMin _ "on" ["test"] "test" hkey (by decide) (by decide) hnn⟩

end Amc.Models
