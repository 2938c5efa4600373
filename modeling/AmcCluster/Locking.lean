import AmcCluster.Interleaving

/-! The calls each `Cluster` method makes on `c.mutex`, in order, read from its body.
Every one of them takes the lock in sections that do not nest, except `Alias` when no
alias is set: it holds the read lock while `Name` calls `Nodes`, which read-locks again. -/

namespace Amc.Models
open Amc Amc.Mutex

namespace Locks

def Nodes : List Op := [.rlock, .runlock]

def name : List Op := Nodes

/-- `Alias()`: under its read lock, calls `Name()` unless an alias is set. -/
def Alias (aliasSet : Bool) : List Op := .rlock :: (if aliasSet then [] else name) ++ [.runlock]

def readField : List Op := [.rlock, .runlock]

def writeField : List Op := [.lock, .unlock]

def buildDetails : List Op := Nodes ++ writeField

def sendEmailNotifications (mailerSet aliasSet : Bool) : List Op :=
  if mailerSet then readField ++ Alias aliasSet else []

def datacenterInfo (selfOwned : Nat) (aliasSet : Bool) : List Op :=
  Nodes ++ (List.replicate selfOwned readField).flatten ++ Nodes ++ readField ++
    Alias aliasSet ++ Nodes

end Locks

theorem run_flat (before after : List Goroutine) (k : List Op) :
    ∀ pre, flat pre → Reachable Step ⟨before ++ ⟨pre ++ k, false⟩ :: after, ⟨0, false⟩⟩
      ⟨before ++ ⟨k, false⟩ :: after, ⟨0, false⟩⟩
  | [], _ => Reachable.refl _ _
  | .rlock :: .runlock :: p, hp =>
    Relation.ReflTransGen.head (@Step.rlock before after (.runlock :: (p ++ k)) ⟨0, false⟩ rfl)
      (Relation.ReflTransGen.head (@Step.runlock before after (p ++ k) ⟨1, false⟩)
        (run_flat before after k p hp))
  | .lock :: .unlock :: p, hp =>
    Relation.ReflTransGen.head (@Step.announce before after (.unlock :: (p ++ k)) ⟨0, false⟩ rfl)
      (Relation.ReflTransGen.head (@Step.acquire before after (.unlock :: (p ++ k)) ⟨0, true⟩ rfl)
        (Relation.ReflTransGen.head (@Step.unlock before after (p ++ k) ⟨0, true⟩)
          (run_flat before after k p hp)))

/-- Under `sync.RWMutex` blocking (the `deadlock.RWMutex` wrapper's own detection left out),
`Alias()` with no alias set against a goroutine that reaches a `Lock` after sections that do
not nest: the reader takes its read lock, the writer announces itself, and each waits for the
other forever. -/
theorem alias_deadlocks_with_writer (pre rest : List Op) (hpre : flat pre) :
    ∃ s, Reachable Step (Sys.init [Locks.Alias false, pre ++ .lock :: rest]) s ∧ Deadlocked s := by
  refine ⟨⟨[⟨[.rlock, .runlock, .runlock], false⟩, ⟨.lock :: rest, true⟩], ⟨1, true⟩⟩, ?_, ?_⟩
  · refine Relation.ReflTransGen.trans (run_flat [⟨Locks.Alias false, false⟩] [] _ pre hpre) ?_
    exact Relation.ReflTransGen.tail (Relation.ReflTransGen.single
      (@Step.rlock [] [⟨.lock :: rest, false⟩] [.rlock, .runlock, .runlock] ⟨0, false⟩ rfl))
      (@Step.announce [⟨[.rlock, .runlock, .runlock], false⟩] [] rest ⟨1, false⟩ rfl)
  · rw [deadlocked_iff]
    simp [Enabled]

theorem alias_deadlocks_with_buildDetails :
    ∃ s, Reachable Step (Sys.init [Locks.Alias false, Locks.buildDetails]) s ∧ Deadlocked s :=
  alias_deadlocks_with_writer [.rlock, .runlock] [.unlock] rfl

end Amc.Models
