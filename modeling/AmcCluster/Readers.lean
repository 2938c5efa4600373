import AmcCluster.Cluster
import AmcCluster.Interleaving

/-! Readers of the aggregates against the swap that ends `updateStats`: `Disk()` and
`Memory()` read two totals without the lock, `NamespaceSetsInfo` reads once under it. -/

namespace Amc.Models.Readers
open Amc Amc.Common

inductive UsagePc where
  | start
  | readFree (used : Int)
  | returned (used free : Int)
  deriving DecidableEq, Repr

inductive SetsPc where
  | start
  | returned (rows : List Stats)
  deriving DecidableEq

structure Published where
  cluster : Cluster
  refreshes : List Aggregates
  usage : UsagePc
  sets : SetsPc

def Published.init (c : Cluster) : Published := ⟨c, [c.agg], .start, .start⟩

section
variable (usedKey freeKey ns : String)

/-- The swap of `updateStats`, a step of a `Disk()` (or `Memory()`) call totalling
`usedKey` and `freeKey`, or a `NamespaceSetsInfo(ns)` call, which holds the read lock for
its one read so that no swap lands within it. -/
inductive PStep : Published → Published → Prop
  | swap (p : Published) (a : Aggregates) :
    PStep p { p with cluster := { p.cluster with agg := a }, refreshes := a :: p.refreshes }
  | readUsed (p : Published) (h : p.usage = .start) :
    PStep p { p with usage := .readFree (p.cluster.agg.aggNodeCalcStats.tryInt usedKey 0) }
  | readFree (p : Published) {used : Int} (h : p.usage = .readFree used) :
    PStep p { p with usage := .returned used (p.cluster.agg.aggNodeCalcStats.tryInt freeKey 0) }
  | namespaceSetsInfo (p : Published) (h : p.sets = .start) :
    PStep p { p with sets := .returned (p.cluster.namespaceSetsInfo ns) }

def UsageCoherent (p : Published) : Prop :=
  ∀ used free, p.usage = .returned used free → ∃ a ∈ p.refreshes,
    used = a.aggNodeCalcStats.tryInt usedKey 0 ∧ free = a.aggNodeCalcStats.tryInt freeKey 0

def SetsCoherent (p : Published) : Prop :=
  ∀ rows, p.sets = .returned rows → ∃ a ∈ p.refreshes, rows = Cluster.setsRows a.aggNsSetStats ns

end

variable {usedKey freeKey ns : String}

theorem setsCoherent_step {p p' : Published} (hp : p.cluster.agg ∈ p.refreshes ∧ SetsCoherent ns p)
    (h : PStep usedKey freeKey ns p p') : p'.cluster.agg ∈ p'.refreshes ∧ SetsCoherent ns p' := by
  obtain ⟨hagg, hsets⟩ := hp
  cases h with
  | swap a =>
    refine ⟨.head _, fun rows hr => ?_⟩
    obtain ⟨a', ha', rfl⟩ := hsets rows hr
    exact ⟨a', .tail _ ha', rfl⟩
  | namespaceSetsInfo =>
    exact ⟨hagg, fun rows hr => ⟨_, hagg, (SetsPc.returned.inj hr).symm⟩⟩
  | _ => exact ⟨hagg, hsets⟩

theorem setsCoherent_of_reachable {c : Cluster} {p : Published}
    (h : Reachable (PStep usedKey freeKey ns) (Published.init c) p) : SetsCoherent ns p :=
  (@Reachable.invariant _ _ (fun p => p.cluster.agg ∈ p.refreshes ∧ SetsCoherent ns p) _ _ h
    ⟨List.mem_singleton_self _, nofun⟩ fun _ _ => setsCoherent_step).2

theorem usage_torn (c : Cluster) (a : Aggregates)
    (hu : c.agg.aggNodeCalcStats.tryInt usedKey 0 ≠ a.aggNodeCalcStats.tryInt usedKey 0)
    (hf : c.agg.aggNodeCalcStats.tryInt freeKey 0 ≠ a.aggNodeCalcStats.tryInt freeKey 0) :
    (∃ p, Reachable (PStep usedKey freeKey ns) (Published.init c) p ∧
      p.usage = .returned (c.agg.aggNodeCalcStats.tryInt usedKey 0)
        (a.aggNodeCalcStats.tryInt freeKey 0) ∧
      ¬UsageCoherent usedKey freeKey p) ∧
    ∀ p, Reachable (PStep usedKey freeKey ns) (Published.init c) p → SetsCoherent ns p := by
  refine ⟨⟨_, .head (.readUsed _ rfl) (.head (.swap _ a) (.head (.readFree _ rfl)
    (Reachable.refl _ _))), rfl, fun hco => ?_⟩, fun _ => setsCoherent_of_reachable⟩
  obtain ⟨a', ha', hu', hf'⟩ := hco _ _ rfl
  simp only [Published.init, List.mem_cons, List.mem_singleton, List.not_mem_nil,
    or_false] at ha'
  rcases ha' with rfl | rfl
  · exact hu hu'
  · exact hf hf'.symm

def diskTotals (used free : Int) : Aggregates :=
  { Aggregates.empty with
    aggNodeCalcStats := (AList.singleton "used-bytes-disk" (.int used)).insert "free-bytes-disk"
      (.int free) }

theorem usage_torn_disk :
    let c := { newCluster "c1" 5 none none [] with agg := diskTotals 10 90 }
    (c.agg.aggNodeCalcStats.tryInt "used-bytes-disk" 0 ≠
        (diskTotals 30 70).aggNodeCalcStats.tryInt "used-bytes-disk" 0 ∧
      c.agg.aggNodeCalcStats.tryInt "free-bytes-disk" 0 ≠
        (diskTotals 30 70).aggNodeCalcStats.tryInt "free-bytes-disk" 0) ∧
    ((∃ p, Reachable (PStep "used-bytes-disk" "free-bytes-disk" "test") (Published.init c) p ∧
      p.usage = .returned (c.agg.aggNodeCalcStats.tryInt "used-bytes-disk" 0)
        ((diskTotals 30 70).aggNodeCalcStats.tryInt "free-bytes-disk" 0) ∧
      ¬UsageCoherent "used-bytes-disk" "free-bytes-disk" p) ∧
    ∀ p, Reachable (PStep "used-bytes-disk" "free-bytes-disk" "test") (Published.init c) p →
      SetsCoherent "test" p) :=
  ⟨⟨by decide, by decide⟩, usage_torn _ (diskTotals 30 70) (by decide) (by decide)⟩

end Amc.Models.Readers
