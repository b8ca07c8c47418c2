import AtomicCommit.Cluster.Run
import AtomicCommit.Proofs.Coordinator.Beginning
import AtomicCommit.Proofs.Coordinator.Decision
import AtomicCommit.Proofs.Coordinator.Facts
import AtomicCommit.Proofs.Coordinator.Mirror
import AtomicCommit.Proofs.Coordinator.Resending
import AtomicCommit.Proofs.Coordinator.Rounds
import AtomicCommit.Proofs.Coordinator.WriteAhead
import AtomicCommit.Proofs.Log.Alteration
import AtomicCommit.Proofs.Log.Boundary
import AtomicCommit.Proofs.Log.Damage
import AtomicCommit.Proofs.Log.Readable
import AtomicCommit.Proofs.Log.Scan
import AtomicCommit.Proofs.Participant.Assent
import AtomicCommit.Proofs.Participant.Failure
import AtomicCommit.Proofs.Participant.Isolation
import AtomicCommit.Proofs.Participant.Report
import AtomicCommit.Proofs.Participant.Restart
import AtomicCommit.Proofs.System.Backing
import AtomicCommit.Proofs.System.Inconsistency
import AtomicCommit.Proofs.System.Recovery
import AtomicCommit.Proofs.System.Resumption
import AtomicCommit.Proofs.Transaction.Acceptance
import AtomicCommit.Proofs.Transaction.Course
import AtomicCommit.Transaction.Parse
import AtomicCommit.Proofs.Wire.Rewriting
import AtomicCommit.Proofs.Transaction.Tally
import AtomicCommit.Proofs.Coordinator.Effect
import AtomicCommit.Proofs.Participant.Completion
