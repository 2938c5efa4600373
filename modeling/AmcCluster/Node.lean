import AmcCluster.Stats

/-! The parts of a monitored node that the cluster code reads. `node.go` is not among
the modelled sources, so a node is the record of the values its accessors return. -/

namespace Amc.Models
open Amc.Common

structure Host where
  name : String
  tlsName : String
  port : Int
  deriving DecidableEq, Repr

def newHost (name : String) (port : Int) : Host := ⟨name, "", port⟩

def Host.toString (h : Host) : String := h.name ++ ":" ++ ToString.toString h.port

inductive NodeStatus where
  | on
  | off
  deriving DecidableEq, Repr

/-- A node of the client, `*as.Node`: the pointer, as `handle`, and what `updateCluster`
reads of it, `GetHost()` and `GetName()`. -/
structure ClientNode where
  handle : Nat
  host : Host
  name : String
  deriving DecidableEq, Repr

/-- Modelled from the spec: a `Node`, by what `Address`, `Id`, `Status`, `Build`,
`ClusterName`, `Disk`, `Memory` and `NamespaceByName(..).Stats()` return, and the client
node `origNode()` holds. -/
structure Node where
  origHost : Option Host
  origNode : Option ClientNode
  address : String
  id : String
  status : NodeStatus
  build : String
  clusterName : String
  disk : Stats
  memory : Stats
  namespaces : AList (fun _ : String => Stats)
  deriving DecidableEq

namespace Node

def namespaceByName (n : Node) (ns : String) : Option Stats := n.namespaces.lookup ns

/-- Modelled from the spec: `newNode(c, nil)` with `origHost` set, as `AddNode` makes
it: a node that has not been polled yet, so it is off and reports nothing. -/
def pending (host : Host) : Node :=
  { origHost := some host, origNode := none, address := host.toString, id := "", status := .off,
    build := "", clusterName := "", disk := ∅, memory := ∅, namespaces := ∅ }

end Node
end Amc.Models
