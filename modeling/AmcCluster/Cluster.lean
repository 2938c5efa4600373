import AmcCluster.Node

/-! The `Cluster` record of `models/cluster.go` and its sequential operations: each
Go method as the function it computes on the record, with a Go panic as an error. -/

namespace Amc.Models
open Amc.Common

inductive Panic where
  | nilDereference
  | typeAssertion
  deriving DecidableEq, Repr

structure Client where
  seeds : List Host
  connected : Bool
  deriving DecidableEq, Repr

/-- Modelled from the spec: `common.BackupStatus*`. -/
inductive BackupStatus where
  | inProgress
  | success
  | failure
  | aborted
  deriving DecidableEq, Repr

/-- Modelled from the spec: `common.BackupRestoreType*`. -/
inductive BackupRestoreType where
  | backup
  | restore
  deriving DecidableEq, Repr

/-- Modelled from the spec: the record `common.NewBackupRestore` builds. -/
structure BackupRestore where
  type : BackupRestoreType
  clusterId : String
  ns : String
  destinationAddress : String
  username : String
  password : String
  destinationPath : String
  sets : String
  metadataOnly : Bool
  terminateOnChange : Bool
  scanPriority : Int
  status : BackupStatus
  deriving DecidableEq, Repr

structure Backup where
  backupRestore : BackupRestore
  deriving DecidableEq, Repr

structure Restore where
  backupRestore : BackupRestore
  threads : Int
  missingRecordsOnly : Bool
  ignoreGenerationNum : Bool
  deriving DecidableEq, Repr

structure Aggregates where
  aggNodeStats : Stats
  aggNodeCalcStats : Stats
  aggNsStats : AList (fun _ : String => Stats)
  aggNsCalcStats : AList (fun _ : String => Stats)
  aggTotalNsStats : Stats
  aggNsSetStats : AList (fun _ : String => AList (fun _ : String => Stats))

/-- `models.Cluster`, with the fields the modelled methods read or write. Times are
seconds. -/
structure Cluster where
  client : Option Client
  nodes : AList (fun _ : Host => Node)
  lastUpdate : Nat
  lastPing : Nat
  agg : Aggregates
  uuid : String
  updateInterval : Int
  «alias» : Option String
  permanent : Bool
  activeBackup : Option Backup
  activeRestore : Option Restore

def Aggregates.empty : Aggregates := ⟨∅, ∅, ∅, ∅, ∅, ∅⟩

/-- `newCluster(observer, client, alias, user, password, seeds)`: `uuid` is the generated
`uuid.NewV4()`, `updateInterval` the configured default, and `clientNodes` what
`client.GetNodes()` returns, each node under its host. -/
def newCluster (uuid : String) (updateInterval : Int) (client : Option Client)
    (aliasName : Option String) (clientNodes : List (Host × Node)) : Cluster where
  client := client
  nodes := match client with
    | some _ => clientNodes.foldl (fun m hn => m.insert hn.1 hn.2) ∅
    | none => ∅
  lastUpdate := 0
  lastPing := 0
  agg := Aggregates.empty
  uuid := uuid
  updateInterval := updateInterval
  «alias» := if aliasName = some "" then none else aliasName
  permanent := false
  activeBackup := none
  activeRestore := none

namespace Cluster

def Nodes (c : Cluster) : List Node := c.nodes.entries.map Sigma.snd

def status (c : Cluster) : String :=
  match c.client with
  | some cl => if cl.connected then "on" else "off"
  | none => "off"

def isSet (c : Cluster) : Bool := c.client.isSome

def id (c : Cluster) : String := c.uuid

def name (c : Cluster) : Option String :=
  (c.Nodes.map Node.clusterName).find? fun n => n ≠ "" ∧ n ≠ "null"

def Alias (c : Cluster) : Option String :=
  match c.«alias» with
  | some a => if a.length > 0 then some a else c.name
  | none => c.name

def setAlias (c : Cluster) (a : String) : Cluster :=
  { c with «alias» := if a.length = 0 then none else some a }

def findNodeByAddress (c : Cluster) (address : String) : Option Node :=
  c.Nodes.find? fun n => n.address = address

def closeAndUnset (c : Cluster) : Cluster := { c with client := none }

/-- `close()`: it calls `c.client.Close()` before clearing the field, so a cluster whose
client is already `nil` panics. -/
def close (c : Cluster) : Except Panic Cluster :=
  match c.client with
  | some _ => .ok { c with client := none }
  | none => .error .nilDereference

/-- `RemoveNodeByAddress(address)`: only a node that is not on is removed, and every key
bound to that node goes with it (nodes are compared by value where Go compares
pointers). -/
def removeNodeByAddress (c : Cluster) (address : String) : Option String × Cluster :=
  match c.findNodeByAddress address with
  | none => (some s!"Node {address} not found.", c)
  | some node =>
    if node.status = .on then
      (some s!"Node {address} is active. Only inactive nodes can be removed.", c)
    else
      (none, { c with nodes := c.nodes.entries.filter (·.2 ≠ node) |>.toAList })

structure Usage where
  used : Int
  free : Int
  details : AList (fun _ : String => Stats)

def usage (c : Cluster) (usedKey freeKey : String) (perNode : Node → Stats) : Usage where
  used := c.agg.aggNodeCalcStats.tryInt usedKey 0
  free := c.agg.aggNodeCalcStats.tryInt freeKey 0
  details := c.Nodes.foldl (fun d n => d.insert n.address (perNode n)) ∅

def disk (c : Cluster) : Usage := c.usage "used-bytes-disk" "free-bytes-disk" Node.disk

def memory (c : Cluster) : Usage := c.usage "used-bytes-memory" "free-bytes-memory" Node.memory

/-- Modelled from the spec: `Stats.GetMulti(keys...)`, the entries of the listed keys. -/
def getMulti (s : Stats) (keys : List String) : Stats :=
  keys.foldl (fun acc k => match s.lookup k with
    | some v => acc.insert k v
    | none => acc) ∅

def namespaceSetsAttrs : List String :=
  ["delete", "deleting", "disable-eviction", "enable-xdr",
    "evict-hwm-count", "memory_data_bytes", "n_objects", "node_status",
    "ns", "ns_name", "objects", "set",
    "set_name", "stop-write-count", "stop-writes-count", "tombstones"]

def setsRows (aggNsSetStats : AList (fun _ : String => AList (fun _ : String => Stats)))
    (ns : String) : List Stats :=
  match aggNsSetStats.lookup ns with
  | some setInfo => setInfo.entries.map fun e => getMulti e.2 namespaceSetsAttrs
  | none => []

def namespaceSetsInfo (c : Cluster) (ns : String) : List Stats := setsRows c.agg.aggNsSetStats ns

end Cluster
end Amc.Models
