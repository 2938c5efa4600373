import AmcCluster.Membership
import AmcCluster.Interleaving

/-! The client handle over every interleaving of `close`, `closeAndUnset`, the `update()`
goroutines and the user operations that call `c.client`: it is closed at most once, yet
called after it was cleared. -/

namespace Amc.Models.Lifecycle
open Amc

inductive UpdatePc where
  | gate
  | updateCluster
  | updateUsers
  | returned
  deriving DecidableEq, Repr

structure Life where
  cluster : Cluster
  updates : List UpdatePc
  closes : Nat
  nilDerefs : Nat

def Life.init (c : Cluster) : Life := ⟨c, [], 0, 0⟩

namespace Life

def close (s : Life) : Life :=
  match s.cluster.close with
  | .ok c => { s with cluster := c, closes := s.closes + 1 }
  | .error _ => { s with nilDerefs := s.nilDerefs + 1 }

def closeAndUnset (s : Life) : Life :=
  { s with cluster := s.cluster.closeAndUnset, closes := s.closes + s.cluster.isSet.toNat }

def addNode (s : Life) (resolved : Except String (List String)) (port : Int) : Life :=
  match s.cluster.addNode resolved port with
  | .ok r => { s with cluster := r.2 }
  | .error _ => { s with nilDerefs := s.nilDerefs + 1 }

/-- `UpdatePassword`, `ChangeUserPassword`, `CreateUser`, `DropUser`, `GrantRoles`,
`RevokeRoles`, `CreateRole`, `DropRole`, `AddPrivileges`, `RemovePrivileges`, `CreateUDF`,
`DropUDF`, `CreateIndex`, `DropIndex`: each calls `c.client` without checking it. -/
def callClient (s : Life) : Life :=
  if s.cluster.isSet then s else { s with nilDerefs := s.nilDerefs + 1 }

/-- Update goroutine `i` calls `c.client` and goes on to `next`; on `nil` it panics, and
the deferred `recover` of `update` ends it. -/
def updateCall (s : Life) (i : Nat) (next : UpdatePc) : Life :=
  if s.cluster.isSet then { s with updates := s.updates.set i next }
  else { s with updates := s.updates.set i .returned, nilDerefs := s.nilDerefs + 1 }

def stepUpdate (s : Life) (i : Nat) (due : Bool) : Life :=
  match s.updates[i]? with
  | some .gate =>
    let next : UpdatePc := if s.cluster.isSet && due then .updateCluster else .returned
    { s with updates := s.updates.set i next }
  | some .updateCluster => s.updateCall i .updateUsers
  | some .updateUsers => s.updateCall i .returned
  | _ => s

def spawnUpdate (s : Life) : Life := { s with updates := s.updates ++ [.gate] }

end Life

inductive LStep : Life → Life → Prop
  | close (s : Life) : LStep s s.close
  | closeAndUnset (s : Life) : LStep s s.closeAndUnset
  | addNode (s : Life) (resolved : Except String (List String)) (port : Int) :
    LStep s (s.addNode resolved port)
  | callClient (s : Life) : LStep s s.callClient
  | spawnUpdate (s : Life) : LStep s s.spawnUpdate
  | update (s : Life) (i : Nat) (due : Bool) : LStep s (s.stepUpdate i due)

/-! ## What one step can do -/

def StepSpec (s s' : Life) : Prop :=
  s'.closes + s'.cluster.isSet.toNat = s.closes + s.cluster.isSet.toNat ∧
    (s.cluster.isSet = false → s'.cluster.isSet = false) ∧
    (s.nilDerefs < s'.nilDerefs → s.cluster.isSet = false)

theorem stepSpec_of_deref {s s' : Life} (hc : s'.cluster = s.cluster) (hcl : s'.closes = s.closes)
    (hd : s.nilDerefs < s'.nilDerefs → s.cluster.isSet = false) : StepSpec s s' :=
  ⟨by rw [hc, hcl], fun h => hc ▸ h, hd⟩

theorem stepSpec_close (s : Life) : StepSpec s s.close := by
  cases hcl : s.cluster.client <;> simp [StepSpec, Life.close, Cluster.close, Cluster.isSet, hcl]

theorem stepSpec_closeAndUnset (s : Life) : StepSpec s s.closeAndUnset := by
  simp [StepSpec, Life.closeAndUnset, Cluster.closeAndUnset, Cluster.isSet]

theorem addNode_isSet {c : Cluster} {resolved : Except String (List String)}
    {port : Int} :
    (∀ r, c.addNode resolved port = .ok r → r.2.isSet = c.isSet) ∧
      (∀ p, c.addNode resolved port = .error p → c.isSet = false) := by
  unfold Cluster.addNode
  split
  · simp
  · simp
  · split
    · simp
    · cases hcl : c.client <;> simp [Cluster.isSet, hcl]

theorem stepSpec_addNode (s : Life) (resolved : Except String (List String)) (port : Int) :
    StepSpec s (s.addNode resolved port) := by
  unfold Life.addNode
  split <;> rename_i h
  · have := addNode_isSet.1 _ h
    exact ⟨by rw [this], fun h' => this ▸ h', by simp⟩
  · exact stepSpec_of_deref rfl rfl fun _ => addNode_isSet.2 _ h

theorem stepSpec_callClient (s : Life) : StepSpec s s.callClient := by
  unfold Life.callClient
  split <;> rename_i h
  · exact stepSpec_of_deref rfl rfl (by simp)
  · exact stepSpec_of_deref rfl rfl fun _ => by simpa using h

theorem stepSpec_updateCall (s : Life) (i : Nat) (next : UpdatePc) :
    StepSpec s (s.updateCall i next) := by
  unfold Life.updateCall
  split <;> rename_i h
  · exact stepSpec_of_deref rfl rfl (by simp)
  · exact stepSpec_of_deref rfl rfl fun _ => by simpa using h

theorem stepSpec_stepUpdate (s : Life) (i : Nat) (due : Bool) : StepSpec s (s.stepUpdate i due) := by
  unfold Life.stepUpdate
  split
  · exact stepSpec_of_deref rfl rfl (by simp)
  · exact stepSpec_updateCall s i _
  · exact stepSpec_updateCall s i _
  · exact stepSpec_of_deref rfl rfl (by simp)

theorem LStep.spec {s s' : Life} (h : LStep s s') : StepSpec s s' := by
  cases h with
  | close => exact stepSpec_close s
  | closeAndUnset => exact stepSpec_closeAndUnset s
  | addNode resolved port => exact stepSpec_addNode s resolved port
  | callClient => exact stepSpec_callClient s
  | spawnUpdate => exact stepSpec_of_deref rfl rfl (by simp [Life.spawnUpdate])
  | update i due => exact stepSpec_stepUpdate s i due

/-! ## Over every run -/

theorem closes_add_isSet {c : Cluster} {s : Life} (h : Reachable LStep (Life.init c) s) :
    s.closes + s.cluster.isSet.toNat = c.isSet.toNat :=
  h.invariant (by simp [Life.init]) fun _ _ hi hs => (LStep.spec hs).1.trans hi

theorem closes_le_one {c : Cluster} {s : Life} (h : Reachable LStep (Life.init c) s) :
    s.closes ≤ 1 := by
  have := closes_add_isSet h
  have := Bool.toNat_le c.isSet
  omega

theorem closes_le_one_twice :
    let c := newCluster "c1" 5 (some ⟨[newHost "10.0.0.1" 3000], true⟩) none []
    Reachable LStep (Life.init c) (Life.init c).close.close ∧ (Life.init c).close.close.closes ≤ 1 :=
  have h : Reachable LStep (Life.init (newCluster "c1" 5 (some ⟨[newHost "10.0.0.1" 3000], true⟩)
      none [])) (Life.init (newCluster "c1" 5 (some ⟨[newHost "10.0.0.1" 3000], true⟩) none [])).close.close :=
    ((Reachable.refl _ _).tail (.close _)).tail (.close _)
  ⟨h, closes_le_one h⟩

/-! ## Calls on a cleared client -/

theorem lifecycle_nil_dereference (c : Cluster) (hc : c.isSet = true) (due : Bool) :
    (∀ s, Reachable LStep (Life.init c) s → s.closes ≤ 1) ∧
    ∀ s ∈ [(Life.init c).closeAndUnset.close, (Life.init c).closeAndUnset.callClient,
        ((Life.init c).spawnUpdate.stepUpdate 0 true).closeAndUnset.stepUpdate 0 due],
      Reachable LStep (Life.init c) s ∧ s.nilDerefs = 1 := by
  refine ⟨fun s h => closes_le_one h, ?_⟩
  simp only [List.mem_cons, List.mem_singleton, List.not_mem_nil, or_false]
  rintro s (rfl | rfl | rfl)
  · exact ⟨.head (.closeAndUnset _) (.head (.close _) (Reachable.refl _ _)), rfl⟩
  · exact ⟨.head (.closeAndUnset _) (.head (.callClient _) (Reachable.refl _ _)), rfl⟩
  · refine ⟨.head (.spawnUpdate _) (.head (.update _ 0 true) (.head (.closeAndUnset _)
      (.head (.update _ 0 due) (Reachable.refl _ _)))), ?_⟩
    have hc' : c.client.isSome = true := hc
    simp [Life.init, Life.spawnUpdate, Life.stepUpdate, Life.closeAndUnset, Life.updateCall,
      Cluster.closeAndUnset, Cluster.isSet, hc']

theorem lifecycle_nil_dereference_live :
    (newCluster "c1" 5 (some ⟨[], true⟩) none []).isSet = true ∧
    ((∀ s, Reachable LStep (Life.init (newCluster "c1" 5 (some ⟨[], true⟩) none [])) s →
        s.closes ≤ 1) ∧
      ∀ s ∈ [(Life.init (newCluster "c1" 5 (some ⟨[], true⟩) none [])).closeAndUnset.close,
          (Life.init (newCluster "c1" 5 (some ⟨[], true⟩) none [])).closeAndUnset.callClient,
          ((Life.init (newCluster "c1" 5 (some ⟨[], true⟩) none [])).spawnUpdate.stepUpdate 0
            true).closeAndUnset.stepUpdate 0 true],
        Reachable LStep (Life.init (newCluster "c1" 5 (some ⟨[], true⟩) none [])) s ∧
          s.nilDerefs = 1) :=
  ⟨rfl, lifecycle_nil_dereference (newCluster "c1" 5 (some ⟨[], true⟩) none []) rfl true⟩

end Amc.Models.Lifecycle
