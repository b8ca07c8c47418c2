import AtomicCommit.Proofs.Participant.Run
import AtomicCommit.Proofs.Process.Smooth

/-!
# Smooth runs of a participant

What a participant logs can be read off a computed run in which its resource manager is willing.

## Main results

* `Participant.attains`, `Participant.begins_of_rested`: a computed run is a run.
* `Participant.reachable_storingRun`: a transaction may be prepared and come to be resolved.
-/

namespace AtomicCommit.Participant

/-- The resource manager can commit and does all it is asked to. -/
def willing (p : ProcessId) : Node.Outside (role p)
  | .canCommit _ => some (.ok true)
  | .prepare _ => some (.ok ⟨[]⟩)
  | .commit _ | .abort _ | .restore _ => some (.ok ())
  | .askDecision _ _ => none

/-- A call that is alone may do anything. -/
theorem allows_of_alone {p : ProcessId} {n : Node (role p)} {op : Operation}
    {m : Moment (role p)} (alone : n.Alone m.call) : Allows p n op m := by
  constructor
  intro other t rests ne
  rw [alone other ne] at rests
  cases rests

theorem attains {p : ProcessId} : Node.Attains (Reachable p) (Allows p) (willing p) where
  step _ _ before step := before.step step
  host _ _ _ _ _ _ alone := allows_of_alone alone
  outside _ _ _ _ _ _ alone _ := allows_of_alone alone

/-- When calls run one after another, the next may start and go on. -/
theorem begins_of_rested {p : ProcessId} {holds : Node (role p) → Prop}
    {manner : Node.Manner (role p)} (h : Node.Attains holds (Allows p) manner.outside)
    {n : Node (role p)} {call : ℕ} {op : Operation} (start : holds n) (rested : n.Rested call) :
    holds (n.begins manner call op) :=
  h.begins _ start rested.alone (rested.new le_rfl) (allows_of_alone rested.alone)

/-! ## A transaction that is resolved -/

section Resolves

/-- A participant. -/
abbrev cohort : ProcessId := ⟨"p"⟩

/-- What it is asked. -/
abbrev proposal : PrepareMessage := ⟨⟨1⟩, ⟨"c"⟩, []⟩

/-- It votes to commit. -/
def votedRun : Node (role cohort) :=
  Node.begins { outside := willing cohort } {} 0 (.handlePrepare proposal)

/-- It is told to commit, and waits for its resource manager. -/
def committingRun : Node (role cohort) :=
  votedRun.begins { outside := fun _ => none } 1 (.handleDecision proposal.transaction .commit)

/-- It has committed, and is to store that it has. -/
def storingRun : Node (role cohort) :=
  (committingRun.moves { outside := willing cohort } 1).moves { outside := willing cohort } 1

/-- It has stored it. -/
def resolvedRun : Node (role cohort) :=
  storingRun.moves { outside := willing cohort } 1

theorem rested_votedRun : votedRun.Rested 1 := Node.rested_initial.begins rfl

theorem alone_storingRun : storingRun.Alone 1 :=
  Node.alone_moves (Node.alone_moves (Node.alone_begins rested_votedRun.alone))

theorem reachable_votedRun : Reachable cohort votedRun :=
  begins_of_rested attains .initial Node.rested_initial

theorem reachable_storingRun : Reachable cohort storingRun := by
  have committing : Reachable cohort committingRun := by
    refine begins_of_rested ?_ reachable_votedRun rested_votedRun
    exact { attains with outside := nofun }
  have alone : committingRun.Alone 1 := Node.alone_begins rested_votedRun.alone
  exact attains.moves _ (attains.moves _ committing alone) (Node.alone_moves alone)

end Resolves

end AtomicCommit.Participant
