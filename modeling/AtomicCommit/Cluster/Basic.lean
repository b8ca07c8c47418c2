import AtomicCommit.Cluster.Journal
import AtomicCommit.Cluster.Resources
import AtomicCommit.Cluster.Script
import AtomicCommit.Coordinator.Recovery
import AtomicCommit.Participant.Recovery
import AtomicCommit.Transaction.Fresh

/-!
# Clusters

A cluster is a value that holds everything processes share: the clock, the supply of identifiers,
the logs, the processes with their memory, and the network with the calls it holds back. A process
made anew under an old name replaces the old one, but whoever holds on to the old one still reaches
it; so each name stands for a place in a roster, and places are never reused.

## Main definitions

* `Roster`, `ParticipantNode`, `CoordinatorNode`, `Network`, `Cluster`.
* `Event`: what a cluster reports of the calls made in it.
-/

namespace AtomicCommit

/-- Members by name, and those of an earlier use of the name by their place. -/
structure Roster (κ : Type) (α : Type) [Ord κ] where
  /-- All members, each at its place. -/
  members : Array α := #[]
  /-- The places that the names stand for now. -/
  places : SortedMap κ Nat := ∅

namespace Roster

variable {κ α : Type} [Ord κ]

instance : Inhabited (Roster κ α) := ⟨{}⟩

/-- The member at a place. -/
def at? (roster : Roster κ α) (place : Nat) : Option α := roster.members[place]?

/-- The place and member that a name stands for. -/
def find? (roster : Roster κ α) (name : κ) : Option (Nat × α) := do
  let place ← roster.places.get? name
  let member ← roster.at? place
  return (place, member)

/-- Changes the member at a place. -/
def modify (roster : Roster κ α) (place : Nat) (change : α → α) : Roster κ α :=
  { roster with members := roster.members.modify place change }

/-- Takes a name from its member. -/
def remove (roster : Roster κ α) (name : κ) : Roster κ α :=
  { roster with places := roster.places.erase name }

variable [Std.TransOrd κ] [Std.LawfulEqOrd κ]

/-- Adds a member under a name, which stands for it from now on. -/
def add (roster : Roster κ α) (name : κ) (member : α) : Roster κ α :=
  { members := roster.members.push member
    places := roster.places.insert name roster.members.size }

end Roster

namespace Cluster

/-- A participant of a cluster. -/
structure ParticipantNode where
  /-- Its name. -/
  id : ProcessId
  /-- The place of its log. -/
  journal : Nat
  /-- Whether its resource manager has nothing to restore. -/
  plain : Bool
  /-- How often its resource manager is still to fail. -/
  failures : Failures
  /-- The records it has in memory. -/
  memory : Participant.Memory := ∅
deriving Inhabited

/-- A coordinator of a cluster. -/
structure CoordinatorNode where
  /-- Its name and configuration. -/
  process : Coordinator
  /-- The place of its log. -/
  journal : Nat
  /-- The transactions it has in memory. -/
  memory : Coordinator.Memory := ∅
deriving Inhabited

/-- A conversation that waits for a call to be released. -/
structure Errand where
  /-- The call that is held. -/
  request : Addressed
  /-- How the conversation goes on after the reply. -/
  next : Except TransportError request.call.Reply → Program Transport Unit

/-- What carries calls from process to process. -/
structure Network where
  /-- The places of the participants that can be called. -/
  participants : SortedMap ProcessId Nat := ∅
  /-- The places of the coordinators that can be called, as long as they run. -/
  coordinators : SortedMap ProcessId Nat := ∅
  /-- The processes that are cut off. -/
  partitioned : SortedSet ProcessId := ∅
  /-- What is ordered for the calls to each process. -/
  scripts : SortedMap ProcessId Script := ∅
  /-- The processes that are called before all others, in this order. -/
  order : List ProcessId := []
  /-- The conversations held, oldest first. -/
  held : List Errand := []

instance : Inhabited Network := ⟨{}⟩

/-- What is done with prepared operations. -/
inductive Completion where
  /-- They are committed. -/
  | commit
  /-- They are aborted. -/
  | abort
  /-- They are taken hold of after a restart. -/
  | restore
deriving DecidableEq, Inhabited

/-- Something that a process has called out to. -/
inductive Event where
  /-- An append to a log, and how it failed if it did. -/
  | append (log : String) (entry : Entry) (failure : Option LogError)
  /-- A check of operations. -/
  | check (participant : ProcessId) (operations : List Operation) (result : Except Fault Bool)
  /-- A preparation of operations. -/
  | prepare (participant : ProcessId) (result : Except Fault PreparedPayload)
  /-- A commit, an abort or a restoration. -/
  | complete (participant : ProcessId) (what : Completion) (payload : PreparedPayload)
      (result : Except Fault Unit)
  /-- A call to another process and its reply; none if the call is held. -/
  | call (request : Addressed) (reply : Option (Except TransportError request.call.Reply))
      (late : Bool)

end Cluster

/-- A cluster of processes. -/
structure Cluster where
  /-- The time. -/
  clock : Timestamp := { nanos := 1000000000 * (nanosPerSecond : Int) }
  /-- The identifiers to come. -/
  ids : IdSupply := {}
  /-- The logs. -/
  journals : Roster String Cluster.Journal := {}
  /-- The participants. -/
  participants : Roster ProcessId Cluster.ParticipantNode := {}
  /-- The coordinators. -/
  coordinators : Roster ProcessId Cluster.CoordinatorNode := {}
  /-- The network between them. -/
  network : Cluster.Network := {}
  /-- What has happened, the latest first. -/
  events : List Cluster.Event := []

instance : Inhabited Cluster := ⟨{}⟩

end AtomicCommit
