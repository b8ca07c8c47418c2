import AtomicCommit.Proofs.Coordinator.Run
import AtomicCommit.Proofs.Process.Smooth

/-!
# Smooth runs of a coordinator

What a coordinator says and logs can be read off a computed run.

## Main results

* `Coordinator.attains`: a computed run is a run.
* `Coordinator.reachable_queriedRun`: a transaction may begin, be committed and be asked about.
-/

namespace AtomicCommit.Coordinator

variable (self : Coordinator)

/-! ## Computed runs -/

/-- Messages are sent, all at one time, and time passes, but nobody replies. -/
def sending : Node.Outside self.role
  | .requestVotes _ _ _ | .sendDecision _ _ _ => some Timestamp.epoch
  | .pause _ => some ()
  | _ => none

/-- An identifier is given out. -/
def drawing (tx : TransactionId) : Node.Outside self.role
  | .freshId => some tx
  | _ => none

/-- A participant votes. -/
def voting (tx : TransactionId) (p : ProcessId) (v : Vote) : Node.Outside self.role
  | .awaitVote tx' (p' :: _) =>
    if tx' = tx ∧ p' = p then
      some (some { sender := p', sender_mem := .head _, result := .ok v })
    else none
  | _ => none

/-- A participant acknowledges a decision. -/
def acknowledging (message : DecisionMessage) (p : ProcessId) : Node.Outside self.role
  | .awaitAcknowledgement message' (p' :: _) =>
    if message' = message ∧ p' = p then
      some (some { sender := p', sender_mem := .head _, result := .ok () })
    else none
  | _ => none

variable {self}

/-- A call that is alone may do all that does not draw an identifier. -/
theorem allows_of_alone {n : Node self.role} {op : Operation} {m : Moment self.role}
    (alone : n.Alone m.call) (draws : ∀ tx, m.event ≠ .answered (.inr .freshId) tx) :
    self.Allows n op m := by
  constructor
  · exact fun tx event => absurd event (draws tx)
  · intro other t rests ne
    rw [alone other ne] at rests
    cases rests

/-- A call that is alone may be answered so, if no identifier is drawn. -/
theorem allows_other {n : Node self.role} {op : Operation} {call : ℕ}
    {first : Node.Outside self.role} {q : Request} {a : Answer q} {log : List Entry}
    (alone : n.Alone call)
    (draws : first .freshId = none) (answered : first q = some a) :
    self.Allows n op ⟨call, .answered (.inr q) a, log⟩ := by
  refine allows_of_alone alone ?_
  rintro tx ⟨⟩
  rw [draws] at answered
  cases answered

theorem attains : Node.Attains self.Reachable self.Allows self.sending := by
  constructor
  · exact fun n n' before step => before.step step
  · exact fun n call op q a log alone => allows_of_alone alone nofun
  · intro n call op q a log alone answered
    exact allows_other alone rfl answered

/-- A moment draws an identifier. -/
def draws (m : Moment self.role) (tx : TransactionId) : Bool :=
  match m.event with
  | .answered (.inr .freshId) tx' => tx' = tx
  | _ => false

theorem not_drawn {past : List (Moment self.role)} {tx : TransactionId}
    (none : ∀ m ∈ past, draws m tx = false) (call : ℕ) : ¬self.Drawn past call tx := by
  rintro ⟨log, hm⟩
  simpa [draws] using none _ hm

/-- A call that is alone may draw an identifier. -/
theorem allows_drawing {n : Node self.role} {op : Operation} {call : ℕ} {tx : TransactionId}
    {q : Request} {a : Answer q} {log : List Entry} (alone : n.Alone call)
    (none : ∀ m ∈ n.past, draws m tx = false) (first : self.drawing tx q = some a) :
    self.Allows n op ⟨call, .answered (.inr q) a, log⟩ := by
  constructor
  · rintro tx' ⟨⟩
    cases first
    exact not_drawn none
  · intro other t rests ne
    rw [alone other ne] at rests
    cases rests

theorem eq_of_voting {tx tx' : TransactionId} {p : ProcessId} {v : Vote} {awaited : List ProcessId}
    {reply : Reply awaited Vote}
    (h : self.voting tx p v (.awaitVote tx' awaited) = some (some reply)) :
    tx' = tx ∧ reply.sender = p ∧ reply.result = .ok v := by
  cases awaited with
  | nil => cases h
  | cons p' rest =>
    simp only [voting] at h
    split at h
    · rename_i same
      cases h
      exact ⟨same.1, same.2, rfl⟩
    · cases h

theorem eq_of_acknowledging {message message' : DecisionMessage} {p : ProcessId}
    {awaited : List ProcessId} {reply : Reply awaited Unit}
    (h : self.acknowledging message p (.awaitAcknowledgement message' awaited) =
      some (some reply)) :
    message' = message ∧ reply.sender = p ∧ reply.result = .ok () := by
  cases awaited with
  | nil => cases h
  | cons p' rest =>
    simp only [acknowledging] at h
    split at h
    · rename_i same
      cases h
      exact ⟨same.1, same.2, rfl⟩
    · cases h

/-! ## Reading a run -/

section Reading

variable (log : List Entry) (m : Moment self.role) (tx : TransactionId)

instance (d : Decision) : Decidable (self.DecisionLogged log tx d) :=
  inferInstanceAs (Decidable (∃ e ∈ Log.history log self.id tx, _))

instance (p : ProcessId) (v : Vote) : Decidable (self.VoteLogged log tx p v) :=
  inferInstanceAs (Decidable (∃ e ∈ Log.history log self.id tx, _))

instance (p : ProcessId) : Decidable (self.AcknowledgementLogged log tx p) :=
  inferInstanceAs (Decidable (∃ e ∈ Log.history log self.id tx, _))

instance : Decidable (self.DoneLogged log tx) :=
  inferInstanceAs (Decidable (∃ e ∈ Log.history log self.id tx, _))

instance : Decidable (self.AsksVote m tx) :=
  match m with
  | ⟨_, .asked (.inr (.requestVotes resuming messages time)), _⟩ =>
    decidable_of_iff (∃ pm ∈ messages, pm.2.transaction = tx)
      ⟨fun ⟨pm, hp, h⟩ => ⟨resuming, messages, time, pm.1, pm.2, rfl, hp, h⟩,
        by rintro ⟨_, _, _, p, message, ⟨⟩, hp, h⟩; exact ⟨(p, message), hp, h⟩⟩
  | ⟨_, .asked (.inl _), _⟩ | ⟨_, .asked (.inr .freshId), _⟩
  | ⟨_, .asked (.inr (.awaitVote _ _)), _⟩ | ⟨_, .asked (.inr (.sendDecision _ _ _)), _⟩
  | ⟨_, .asked (.inr (.awaitAcknowledgement _ _)), _⟩ | ⟨_, .asked (.inr (.pause _)), _⟩
  | ⟨_, .asked (.inr .panic), _⟩ | ⟨_, .started _, _⟩ | ⟨_, .answered _ _, _⟩
  | ⟨_, .returned _ _, _⟩ => isFalse nofun

instance (d : Decision) : Decidable (self.SendsDecision m tx d) :=
  match m with
  | ⟨_, .asked (.inr (.sendDecision message participants time)), _⟩ =>
    decidable_of_iff (message.transaction = tx ∧ message.decision = d)
      ⟨fun h => ⟨message, participants, time, rfl, h⟩, by rintro ⟨_, _, _, ⟨⟩, h⟩; exact h⟩
  | ⟨_, .asked (.inl _), _⟩ | ⟨_, .asked (.inr .freshId), _⟩
  | ⟨_, .asked (.inr (.requestVotes _ _ _)), _⟩ | ⟨_, .asked (.inr (.awaitVote _ _)), _⟩
  | ⟨_, .asked (.inr (.awaitAcknowledgement _ _)), _⟩ | ⟨_, .asked (.inr (.pause _)), _⟩
  | ⟨_, .asked (.inr .panic), _⟩ | ⟨_, .started _, _⟩ | ⟨_, .answered _ _, _⟩
  | ⟨_, .returned _ _, _⟩ => isFalse nofun

instance (answer : Option Decision) : Decidable (self.AnswersQuery m tx answer) :=
  match m with
  | ⟨_, .returned (.queryDecision tx') (.ok answer'), _⟩ =>
    decidable_of_iff (tx' = tx ∧ answer' = answer) (by simp [AnswersQuery])
  | ⟨_, .returned (.queryDecision _) (.error _), _⟩ => isFalse (by simp [AnswersQuery])
  | ⟨_, .started _, _⟩ | ⟨_, .asked _, _⟩ | ⟨_, .answered _ _, _⟩
  | ⟨_, .returned (.begin _ _ _) _, _⟩ | ⟨_, .returned .recover _, _⟩
  | ⟨_, .returned (.queryState _) _, _⟩ | ⟨_, .returned (.forget _) _, _⟩ => isFalse nofun

instance (outcome : Outcome) : Decidable (self.ReturnsOutcome m tx outcome) :=
  match m with
  | ⟨_, .returned (.begin participants operations timeout) (.ok result), _⟩ =>
    decidable_of_iff (result.transaction = tx ∧ result.outcome = outcome)
      ⟨fun h => ⟨participants, operations, timeout, result, rfl, h⟩,
        by rintro ⟨_, _, _, _, ⟨⟩, h⟩; exact h⟩
  | ⟨_, .returned (.begin _ _ _) (.error _), _⟩ => isFalse (by simp [ReturnsOutcome])
  | ⟨_, .started _, _⟩ | ⟨_, .asked _, _⟩ | ⟨_, .answered _ _, _⟩
  | ⟨_, .returned (.queryDecision _) _, _⟩ | ⟨_, .returned .recover _, _⟩
  | ⟨_, .returned (.queryState _) _, _⟩ | ⟨_, .returned (.forget _) _, _⟩ => isFalse nofun

/-- A moment starts a recovery. -/
def recovers : Bool :=
  match m.event with
  | .started .recover => true
  | _ => false

/-- A moment asks a participant for its vote. -/
def requests (resuming : Bool) (p : ProcessId) (message : PrepareMessage) : Bool :=
  match m.event with
  | .asked (.inr (.requestVotes resuming' messages _)) =>
    resuming' = resuming ∧ (p, message) ∈ messages
  | _ => false

/-- A moment sends a decision to a participant. -/
def sends (p : ProcessId) (message : DecisionMessage) : Bool :=
  match m.event with
  | .asked (.inr (.sendDecision message' participants _)) => message' = message ∧ p ∈ participants
  | _ => false

variable {m} {past : List (Moment self.role)} {p : ProcessId}

theorem event_of_recovers (h : recovers m = true) : m.event = .started .recover := by
  unfold recovers at h
  split at h
  · assumption
  · cases h

theorem Requests.of_mem {resuming : Bool} {message : PrepareMessage}
    (h : ∃ m ∈ past, requests m resuming p message = true) :
    self.Requests past resuming p message := by
  obtain ⟨⟨call, event, log⟩, hm, h⟩ := h
  unfold requests at h
  split at h
  · rename_i resuming' messages time same
    obtain ⟨rfl, hp⟩ := of_decide_eq_true h
    dsimp only at same
    exact ⟨call, messages, time, log, same ▸ hm, hp⟩
  · cases h

theorem Sends.of_mem {message : DecisionMessage} (h : ∃ m ∈ past, sends m p message = true) :
    self.Sends past p message := by
  obtain ⟨⟨call, event, log⟩, hm, h⟩ := h
  unfold sends at h
  split at h
  · rename_i message' participants time same
    obtain ⟨rfl, hp⟩ := of_decide_eq_true h
    dsimp only at same
    exact ⟨call, participants, time, log, same ▸ hm, hp⟩
  · cases h

end Reading

/-! ## A transaction that commits -/

section Commits

/-- A participant. -/
abbrev party : ProcessId := ⟨"p"⟩

/-- A transaction. -/
abbrev deal : TransactionId := ⟨1⟩

/-- A transaction is to begin and waits for its identifier. -/
def drawingRun : Node (default : Coordinator).role :=
  Node.begins { outside := sending default } {} 0 (.begin (SortedSet.ofList [party]) ∅ .zero)

/-- Its participant is asked for a vote. -/
def votingRun : Node (default : Coordinator).role :=
  drawingRun.resumes (drawing default deal) { outside := sending default } 0

/-- The participant votes to commit and is sent the decision. -/
def decidedRun : Node (default : Coordinator).role :=
  votingRun.resumes (voting default deal party .yes) { outside := sending default } 0

/-- The participant acknowledges. -/
def doneRun : Node (default : Coordinator).role :=
  decidedRun.resumes (acknowledging default ⟨deal, .commit⟩ party) { outside := sending default } 0

/-- The decision is asked for. -/
def queriedRun : Node (default : Coordinator).role :=
  doneRun.begins { outside := sending default } 1 (.queryDecision deal)

theorem alone_doneRun : doneRun.Alone 0 :=
  Node.alone_resumes (Node.alone_resumes (Node.alone_resumes (Node.alone_begins fun _ _ => rfl)))

theorem reachable_drawingRun : (default : Coordinator).Reachable drawingRun :=
  attains.begins _ .initial (fun _ _ => rfl) (fun _ hm => nomatch hm)
    (allows_of_alone (fun _ _ => rfl) nofun)

theorem reachable_votingRun : (default : Coordinator).Reachable votingRun := by
  have alone : drawingRun.Alone 0 := Node.alone_begins fun _ _ => rfl
  refine attains.resumes _ reachable_drawingRun alone fun op q a first => ?_
  exact allows_drawing alone (by decide +kernel) first

theorem reachable_decidedRun : (default : Coordinator).Reachable decidedRun := by
  have alone : votingRun.Alone 0 := Node.alone_resumes (Node.alone_begins fun _ _ => rfl)
  exact attains.resumes _ reachable_votingRun alone fun op q a => allows_other alone rfl

theorem reachable_doneRun : (default : Coordinator).Reachable doneRun := by
  have alone : decidedRun.Alone 0 :=
    Node.alone_resumes (Node.alone_resumes (Node.alone_begins fun _ _ => rfl))
  exact attains.resumes _ reachable_decidedRun alone fun op q a => allows_other alone rfl

theorem reachable_queriedRun : (default : Coordinator).Reachable queriedRun := by
  have alone : doneRun.Alone 1 := alone_doneRun.of_ended (by decide +kernel)
  exact attains.begins _ reachable_doneRun alone (by decide +kernel) (allows_of_alone alone nofun)

end Commits

end AtomicCommit.Coordinator
