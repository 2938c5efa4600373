import AmcCluster.Locking

/-! The calls on `c.mutex` of every `Cluster` method, with the branches that decide them, over
any interleaving of goroutines calling methods. `node.go`, `observer.go` and `backup.go` are
taken to make no call on `c.mutex`; the mutex is `sync.RWMutex`, which the declared
`deadlock.RWMutex` wraps, and the wrapper's own detection is left out. -/

namespace Amc.Models
open Amc Amc.Mutex

namespace Locks

inductive Found where
  | byAddress
  | byId
  | absent
  deriving DecidableEq, Repr

def reconcileNode : Found → List Op
  | .byAddress => Nodes
  | .byId => Nodes ++ Nodes
  | .absent => Nodes ++ Nodes ++ writeField

def updateCluster (found : List Found) : List Op := (found.map reconcileNode).flatten

def updateUsers (returnsEarly : Bool) : List Op := if returnsEarly then [] else writeField

def update (isSet due : Bool) (found : List Found) (returnsEarly : Bool) (selfOwned : Nat)
    (aliasSet : Bool) : List Op :=
  readField ++ if !isSet then [] else readField ++ if !due then [] else
    updateCluster found ++ writeField ++ Nodes ++ updateUsers returnsEarly ++
      datacenterInfo selfOwned aliasSet ++ writeField

inductive Method where
  | UpdatePassword | ChangeUserPassword | CreateUser | DropUser | GrantRoles | RevokeRoles
  | CreateRole | DropRole | AddPrivileges | RemovePrivileges | CreateUDF | DropUDF
  | CreateIndex | DropIndex | checkHealth | Jobs | DatacenterInfo | DiscoverDatacenter
  | shouldAutoRemove | UpdateInterval | Status | Users | SeedAddress | Id | User | Roles
  | RoleNames | IsSet | SecurityEnabled | shouldUpdate | CurrentUserPrivileges
  | NamespaceSetsInfo | CurrentBackup | CurrentRestore
  | setPermanent | closeAndUnset | updateLastestPing | SetUpdateInterval | SetAlias | close
  | setUpdatedAt | registerNode | updateStats
  | Nodes | NodeBuilds | NamespaceList | NamespaceIndexes | NodeList | NodeCompatibility
  | OffNodes | RandomActiveNode | Name | FindNodeById | FindNodeByAddress | LatestThroughput
  | ServerTime | NamespaceIndexInfo | Disk | Memory | NamespaceDeviceInfo | RequestInfoAll
  | updateJobs | AlertsFrom | BuildDetails | versionSupported
  | AddNode (adds : Bool)
  | RemoveNodeByAddress (removes : Bool)
  | ThroughputSince (zero : Bool)
  | FindNodesByAddress (addresses : Nat)
  | NamespaceInfo (present : Nat)
  | NamespaceInfoPerNode (addresses : Nat)
  | Backup (inProgress : Bool)
  | Restore (inProgress : Bool)
  | Alias (aliasSet : Bool)
  | SendEmailNotifications (mailerSet aliasSet : Bool)
  | updateCluster (found : List Found)
  | updateUsers (returnsEarly : Bool)
  | updateDatacenterInfo (selfOwned : Nat) (aliasSet : Bool)
  | update (isSet due : Bool) (found : List Found) (returnsEarly : Bool) (selfOwned : Nat)
      (aliasSet : Bool)
  deriving Repr

/-- The calls a method makes on `c.mutex`, read from its body. `AddNode` locks only to
insert its node; `RemoveNodeByAddress` only when it found an inactive node; `ThroughputSince`
calls `ServerTime()` first for a zero time; `NamespaceInfo` calls `Status()` once per
namespace a node reports; `Backup` and `Restore` call `Id()` unless a job is in progress. -/
def Method.locks : Method → List Op
  | .UpdatePassword | .ChangeUserPassword | .CreateUser | .DropUser | .GrantRoles
  | .RevokeRoles | .CreateRole | .DropRole | .AddPrivileges | .RemovePrivileges | .CreateUDF
  | .DropUDF | .CreateIndex | .DropIndex | .checkHealth | .Jobs | .DatacenterInfo
  | .DiscoverDatacenter => []
  | .shouldAutoRemove | .UpdateInterval | .Status | .Users | .SeedAddress | .Id | .User
  | .Roles | .RoleNames | .IsSet | .SecurityEnabled | .shouldUpdate | .CurrentUserPrivileges
  | .NamespaceSetsInfo | .CurrentBackup | .CurrentRestore => readField
  | .setPermanent | .closeAndUnset | .updateLastestPing | .SetUpdateInterval | .SetAlias
  | .close | .setUpdatedAt | .registerNode | .updateStats => writeField
  | .Nodes | .NodeBuilds | .NamespaceList | .NamespaceIndexes | .NodeList
  | .NodeCompatibility | .OffNodes | .RandomActiveNode | .Name | .FindNodeById
  | .FindNodeByAddress | .LatestThroughput | .ServerTime | .NamespaceIndexInfo | .Disk
  | .Memory | .NamespaceDeviceInfo | .RequestInfoAll | .updateJobs => Locks.Nodes
  | .AlertsFrom => Locks.Nodes ++ readField
  | .BuildDetails | .versionSupported => buildDetails
  | .AddNode adds => if adds then writeField else []
  | .RemoveNodeByAddress removes => Locks.Nodes ++ if removes then writeField else []
  | .ThroughputSince zero => (if zero then Locks.Nodes else []) ++ Locks.Nodes
  | .FindNodesByAddress n | .NamespaceInfoPerNode n => (List.replicate n Locks.Nodes).flatten
  | .NamespaceInfo present => Locks.Nodes ++ (List.replicate present readField).flatten
  | .Backup inProgress | .Restore inProgress => if inProgress then [] else readField
  | .Alias aliasSet => Locks.Alias aliasSet
  | .SendEmailNotifications mailerSet aliasSet => sendEmailNotifications mailerSet aliasSet
  | .updateCluster found => Locks.updateCluster found
  | .updateUsers returnsEarly => Locks.updateUsers returnsEarly
  | .updateDatacenterInfo selfOwned aliasSet => datacenterInfo selfOwned aliasSet
  | .update isSet due found returnsEarly selfOwned aliasSet =>
    Locks.update isSet due found returnsEarly selfOwned aliasSet

/-- Whether the method reaches `Alias()` while no alias is set. -/
def Method.nests : Method → Bool
  | .Alias aliasSet => !aliasSet
  | .SendEmailNotifications mailerSet aliasSet => mailerSet && !aliasSet
  | .updateDatacenterInfo _ aliasSet => !aliasSet
  | .update isSet due _ _ _ aliasSet => isSet && due && !aliasSet
  | _ => false

def calls (p : List Method) : List Op := (p.map Method.locks).flatten

end Locks

/-! ### Which methods nest their sections -/

theorem flat_append_left {p q : List Op} (hp : flat p) : flat (p ++ q) = flat q := by
  induction p using flat.induct with
  | case1 => rfl
  | case2 k ih => exact ih hp
  | case3 k ih => exact ih hp
  | case4 => simp_all [flat]

theorem flat_flatten {ps : List (List Op)} (h : ∀ p ∈ ps, flat p) : flat ps.flatten := by
  induction ps with
  | nil => rfl
  | cons p ps ih =>
    rw [List.flatten_cons, flat_append_left (h p (.head _))]
    exact ih fun q hq => h q (.tail _ hq)

theorem flat_replicate {p : List Op} (hp : flat p) (n : Nat) : flat (List.replicate n p).flatten :=
  flat_flatten fun _ hq => (List.eq_of_mem_replicate hq) ▸ hp

namespace Locks

@[simp] theorem flat_Nodes : flat Nodes := rfl

@[simp] theorem flat_readField : flat readField := rfl

@[simp] theorem flat_writeField : flat writeField := rfl

@[simp] theorem flat_updateCluster (found : List Found) : flat (updateCluster found) :=
  flat_flatten <| by
    simp only [List.mem_map]
    rintro _ ⟨f, -, rfl⟩
    cases f <;> rfl

@[simp] theorem flat_updateUsers (returnsEarly : Bool) : flat (updateUsers returnsEarly) := by
  cases returnsEarly <;> rfl

theorem flat_datacenterInfo_append (selfOwned : Nat) (aliasSet : Bool) (q : List Op) :
    flat (datacenterInfo selfOwned aliasSet ++ q) = (aliasSet && flat q) := by
  simp only [datacenterInfo, List.append_assoc, flat_append_left, flat_Nodes, flat_readField,
    flat_replicate]
  cases aliasSet <;> rfl

theorem flat_update (isSet due : Bool) (found : List Found) (returnsEarly : Bool)
    (selfOwned : Nat) (aliasSet : Bool) :
    flat (update isSet due found returnsEarly selfOwned aliasSet) = !(isSet && due && !aliasSet) := by
  cases isSet <;> cases due <;> try rfl
  simp only [update, Bool.not_true, Bool.false_eq_true, ite_false, List.append_assoc,
    flat_append_left, flat_Nodes, flat_readField, flat_writeField, flat_updateCluster,
    flat_updateUsers, flat_datacenterInfo_append]
  cases aliasSet <;> rfl

theorem Method.flat_locks (m : Method) : flat m.locks = !m.nests := by
  cases m with
  | AddNode b | RemoveNodeByAddress b | ThroughputSince b | Backup b | Restore b | Alias b =>
    cases b <;> rfl
  | FindNodesByAddress n | NamespaceInfoPerNode n => exact flat_replicate flat_Nodes n
  | NamespaceInfo n => exact (flat_append_left flat_Nodes).trans (flat_replicate flat_readField n)
  | SendEmailNotifications mailerSet aliasSet => cases mailerSet <;> cases aliasSet <;> rfl
  | updateCluster found => exact flat_updateCluster found
  | updateUsers returnsEarly => exact flat_updateUsers returnsEarly
  | updateDatacenterInfo selfOwned aliasSet =>
    rw [← List.append_nil (Method.locks _)]
    exact (flat_datacenterInfo_append selfOwned aliasSet []).trans (by cases aliasSet <;> rfl)
  | update isSet due found returnsEarly selfOwned aliasSet =>
    exact flat_update isSet due found returnsEarly selfOwned aliasSet
  | _ => rfl

theorem flat_calls {p : List Method} (h : ∀ m ∈ p, m.nests = false) : flat (calls p) :=
  flat_flatten <| by
    simp only [List.mem_map]
    rintro _ ⟨m, hm, rfl⟩
    simpa [h m hm] using m.flat_locks

theorem exists_flat_lock {p : List Op} (hp : flat p) (hl : Op.lock ∈ p) :
    ∃ pre rest, flat pre ∧ p = pre ++ .lock :: rest := by
  induction p using flat.induct with
  | case1 => cases hl
  | case2 k ih =>
    obtain ⟨pre, rest, hpre, rfl⟩ := ih hp (by simpa using hl)
    exact ⟨.rlock :: .runlock :: pre, rest, hpre, rfl⟩
  | case3 k _ => exact ⟨[], .unlock :: k, rfl, rfl⟩
  | case4 => simp_all [flat]

theorem Method.nests_split {m : Method} (h : m.nests) :
    ∃ pre post, flat pre ∧ m.locks = pre ++ Locks.Alias false ++ post := by
  cases m with
  | Alias aliasSet =>
    cases aliasSet
    · exact ⟨[], [], rfl, rfl⟩
    · cases h
  | SendEmailNotifications mailerSet aliasSet =>
    cases mailerSet <;> cases aliasSet <;> first | exact ⟨readField, [], rfl, rfl⟩ | cases h
  | updateDatacenterInfo selfOwned aliasSet =>
    cases aliasSet
    · exact ⟨_, Locks.Nodes, by simp [flat_append_left, flat_replicate], rfl⟩
    · cases h
  | update isSet due found returnsEarly selfOwned aliasSet =>
    cases isSet <;> cases due <;> cases aliasSet <;> try cases h
    exact ⟨readField ++ readField ++ Locks.updateCluster found ++ writeField ++ Locks.Nodes ++
      Locks.updateUsers returnsEarly ++ Locks.Nodes ++ (List.replicate selfOwned readField).flatten ++
      Locks.Nodes ++ readField, Locks.Nodes ++ writeField, by simp [flat_append_left, flat_replicate],
      show Locks.update true true found returnsEarly selfOwned false = _ by
        simp [Locks.update, datacenterInfo]⟩
  | _ => cases h

theorem Method.exists_lock_split {m : Method} (hl : Op.lock ∈ m.locks) :
    ∃ pre rest, flat pre ∧ m.locks = pre ++ .lock :: rest := by
  cases hn : m.nests
  · exact exists_flat_lock (by simpa [hn] using m.flat_locks) hl
  cases m with
  | Alias aliasSet =>
    change Op.lock ∈ Locks.Alias aliasSet at hl
    cases aliasSet <;> simp [Locks.Alias, name, Locks.Nodes] at hl
  | SendEmailNotifications mailerSet aliasSet =>
    change Op.lock ∈ sendEmailNotifications mailerSet aliasSet at hl
    cases mailerSet <;> cases aliasSet <;>
      simp [sendEmailNotifications, readField, Locks.Alias, name, Locks.Nodes] at hl
  | updateDatacenterInfo selfOwned aliasSet =>
    change Op.lock ∈ datacenterInfo selfOwned aliasSet at hl
    cases aliasSet <;> simp [datacenterInfo, readField, Locks.Alias, name, Locks.Nodes,
      List.mem_flatten, List.mem_replicate] at hl <;> obtain ⟨_, ⟨-, rfl⟩, h⟩ := hl <;> simp at h
  | update isSet due found returnsEarly selfOwned aliasSet =>
    cases isSet <;> cases due <;> cases aliasSet <;> try cases hn
    have e : Locks.update true true found returnsEarly selfOwned false =
        (readField ++ readField ++ Locks.updateCluster found ++ writeField) ++
          (Locks.Nodes ++ Locks.updateUsers returnsEarly ++ datacenterInfo selfOwned false ++
            writeField) := by
      simp [Locks.update]
    obtain ⟨pre, rest, hpre, he⟩ :=
      exists_flat_lock (p := readField ++ readField ++ Locks.updateCluster found ++ writeField)
        (by simp [flat_append_left]) (by simp [writeField])
    exact ⟨pre, _, hpre, e.trans (by rw [he, List.append_assoc, List.cons_append])⟩
  | _ => cases hn

end Locks

open Locks

/-- Under `sync.RWMutex` blocking (the `deadlock.RWMutex` wrapper's own detection left out), a
call that reaches `Alias()` with no alias set deadlocks against any method that takes the
write lock, a nesting one included: it holds its read lock when the writer announces itself,
and its nested read lock waits for the writer, which waits for it. -/
theorem nests_deadlocks_with_writer {m w : Method} (hm : m.nests) (hlock : Op.lock ∈ w.locks) :
    ∃ s, Reachable Step (Sys.init [m.locks, w.locks]) s ∧ Deadlocked s := by
  obtain ⟨pre, post, hpre, hmeq⟩ := m.nests_split hm
  obtain ⟨wpre, rest, hwpre, hweq⟩ := w.exists_lock_split hlock
  rw [hmeq, hweq, List.append_assoc]
  refine ⟨⟨[⟨[.rlock, .runlock, .runlock] ++ post, false⟩, ⟨.lock :: rest, true⟩], ⟨1, true⟩⟩,
    ?_, by rw [deadlocked_iff]; simp [Enabled]⟩
  refine (run_flat [] [⟨wpre ++ .lock :: rest, false⟩] _ pre hpre).trans <|
    (run_flat [⟨Alias false ++ post, false⟩] [] _ wpre hwpre).trans <|
      Reachable.head (@Step.rlock [] [⟨.lock :: rest, false⟩] ([Op.rlock, .runlock, .runlock] ++ post)
        ⟨0, false⟩ rfl) <| Reachable.head (@Step.announce
          [⟨[Op.rlock, .runlock, .runlock] ++ post, false⟩] [] rest ⟨1, false⟩ rfl) (Reachable.refl _ _)

theorem nests_deadlocks_with_writer_refresh :
    (Method.update true true [] false 0 false).nests ∧
      Op.lock ∈ (Method.update true true [] false 0 false).locks ∧
      ∃ s, Reachable Step (Sys.init [(Method.update true true [] false 0 false).locks,
        (Method.update true true [] false 0 false).locks]) s ∧ Deadlocked s :=
  ⟨rfl, by decide, nests_deadlocks_with_writer rfl (by decide)⟩

/-- Under `sync.RWMutex` blocking (the `deadlock.RWMutex` wrapper's own detection left out),
goroutines calling `Cluster` methods in any order never deadlock on `c.mutex`, as long as no
call reaches `Alias()` with no alias set. -/
theorem methods_deadlockFree {progs : List (List Method)}
    (h : ∀ p ∈ progs, ∀ m ∈ p, m.nests = false) {s : Sys}
    (hs : Reachable Step (Sys.init (progs.map calls)) s) : ¬Deadlocked s :=
  flat_deadlockFree (by
    simp only [List.mem_map]
    rintro _ ⟨p, hp, rfl⟩
    exact flat_calls (h p hp)) hs

theorem methods_deadlockFree_refresh :
    let progs := [[Method.update true true [.byAddress, .byId, .absent] false 1 true],
      [.SendEmailNotifications true true], [.SetAlias, .Alias true],
      [.AddNode true, .RemoveNodeByAddress true, .NamespaceInfo 2]]
    (∀ p ∈ progs, ∀ m ∈ p, m.nests = false) ∧ ¬Deadlocked (Sys.init (progs.map calls)) :=
  ⟨by decide, methods_deadlockFree (by decide) (Reachable.refl _ _)⟩

end Amc.Models
