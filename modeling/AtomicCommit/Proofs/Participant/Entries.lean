import AtomicCommit.Proofs.Participant.Smooth

/-!
# What a participant writes

Whatever a participant is told, and whatever fails, what it has logged of a transaction is one of
the histories of `Record.History`, and its log grows by one entry at a time that takes a
transaction on. Only a call that carries the decision on a prepared transaction resolves it.

## Main definitions

* `Participant.Carries`: a call carries the decision on a transaction.
* `Participant.Writes`: what a call may add to a history.

## Main results

* `Participant.entries_follow_protocol`: the histories, and how the log grows.
-/

namespace AtomicCommit.Participant

/-- A call carries the decision on a transaction: it was sent the decision, or it recovers and was
told by the coordinator that the transaction was prepared for. -/
inductive Carries (p : ProcessId) (past : List (Moment (role p))) (call : ℕ) (r : Record)
    (d : Decision) : Operation → Prop where
  /-- By a message. -/
  | message : Carries p past call r d (.handleDecision r.transaction d)
  /-- By the answer of the coordinator. -/
  | answer {coordinator : ProcessId} {log : List Entry} (named : r.coordinator = some coordinator)
      (told : ⟨call, .answered (.inr (.askDecision coordinator r.transaction)) (.ok (some d)),
        log⟩ ∈ past) : Carries p past call r d .recover

/-- What a call may add to the history of a transaction. -/
inductive Writes (p : ProcessId) (past : List (Moment (role p))) (call : ℕ) (tx : TransactionId) :
    Operation → List Entry → Entry → Prop where
  /-- Asked for its vote, the participant prepares. -/
  | prepare {message : PrepareMessage} {e : Entry} {payload : PreparedPayload}
      (about : message.transaction = tx)
      (takes : e.Takes tx .idle .prepared (.prepared message.coordinator payload)) :
      Writes p past call tx (.handlePrepare message) [] e
  /-- Asked for its vote, it refuses. -/
  | refuse {message : PrepareMessage} {e : Entry} (about : message.transaction = tx)
      (takes : e.Takes tx .idle .aborted (.voted message.coordinator .no)) :
      Writes p past call tx (.handlePrepare message) [] e
  /-- It is told to abort before it has been asked. -/
  | abort {e : Entry} (takes : e.Takes tx .idle .aborted (.resolved .abort)) :
      Writes p past call tx (.handleDecision tx .abort) [] e
  /-- It applies the decision on what it has prepared. -/
  | resolve {op : Operation} {es : List Entry} {r : Record} {d : Decision} {e : Entry}
      (history : Record.History tx es r) (prepared : r.state = .prepared)
      (carries : Carries p past call r d op)
      (takes : e.Takes tx .prepared (.resolved d) (.resolved d)) : Writes p past call tx op es e

variable {self : ProcessId} {n n' : Node (role self)} {call : ℕ} {tx : TransactionId}
  {e : Entry} {t : Thread (role self)}

/-! ## What a resting call has asked to append -/

/-- The past bears out what a resting call has asked to append. -/
theorem extends_of_rests (holds : (discipline self).Holds n) (rests : n.threads call = some t)
    (question : t.question = .inl (.append e)) :
    e.actor = self ∧ ∃ before log, before <+: n.past ∧ Extends self before log call e := by
  have waits := holds.waits call t rests
  obtain ⟨log, asked⟩ := waits.asked
  rw [question] at asked
  obtain ⟨before, sub, -, -, -, justified⟩ :=
    holds.chronicle.justified (mem_of_mem_momentsOf (List.mem_of_getLast? asked))
  exact ⟨justified.1, before, log, (List.prefix_append _ _).trans sub, justified.2⟩

/-- A call that was asked for its vote is one for a vote. -/
theorem eq_of_askedToVote (holds : (discipline self).Holds n) (rests : n.threads call = some t)
    {coordinator : ProcessId} (h : AskedToVote self n.past call tx coordinator) :
    ∃ message, message.transaction = tx ∧ message.coordinator = coordinator ∧
      t.operation = .handlePrepare message := by
  obtain ⟨message, log, about, named, started⟩ := h
  obtain ⟨log', started'⟩ := (holds.waits call t rests).started
  exact ⟨message, about, named, holds.chronicle.started_unique started started'⟩

/-- A call that was told a decision applies it as a message, or recovers and has been told by a
coordinator that the log names. -/
theorem eq_of_told (holds : (discipline self).Holds n) (rests : n.threads call = some t)
    {d : Decision} (h : Told self n.past call tx d) :
    t.operation = .handleDecision tx d ∨ t.operation = .recover ∧
      ∃ coordinator log,
        ⟨call, .answered (.inr (.askDecision coordinator tx)) (.ok (some d)), log⟩ ∈ n.past ∧
        ∃ e ∈ Log.history n.log self tx, ∃ payload, e.payload = .prepared coordinator payload := by
  obtain ⟨log', started'⟩ := (holds.waits call t rests).started
  rcases h with ⟨log, started⟩ | ⟨coordinator, log, told⟩
  · exact .inl (holds.chronicle.started_unique started started')
  · obtain ⟨log₁, asked⟩ := holds.chronicle.asked told
    obtain ⟨before, sub, -, -, -, ⟨log₂, started⟩, e, he, prepared⟩ :=
      holds.chronicle.justified asked
    have started := ((List.prefix_append _ _).trans sub).subset started
    refine .inr ⟨holds.chronicle.started_unique started started', coordinator, log, told, e, ?_,
      prepared⟩
    exact (Log.history_prefix (holds.grown _ asked) self tx).subset he

/-! ## The steps -/

/-- A call that has an entry stored takes the transaction on as it has been asked to. -/
theorem writes_of_stored (holds : (discipline self).Holds n) (holds' : (discipline self).Holds n')
    (rests : n.threads call = some t) (question : t.question = .inl (.append e))
    (log : n'.log = n.log ++ [e]) :
    e.actor = self ∧ Writes self n.past call e.transaction t.operation
      (Log.history n.log self e.transaction) e := by
  obtain ⟨own, before, log₀, sub, extends_⟩ := extends_of_rests holds rests question
  refine ⟨own, ?_⟩
  have added : Log.history n'.log self e.transaction =
      Log.history n.log self e.transaction ++ [e] := by
    rw [log]
    exact Log.history_append_own n.log own rfl
  obtain ⟨found, sees⟩ := Kept.sees (holds'.kept e.transaction)
  cases found with
  | none =>
    rw [Sees, added] at sees
    simp at sees
  | some r' =>
    rw [Sees, added] at sees
    rcases Record.History.snoc_cases sees with ⟨first, ⟨coordinator, payload, takes⟩ |
      ⟨coordinator, takes⟩ | takes⟩ | ⟨r, d, history, prepared, takes⟩
    · have asked := (extends_.asked coordinator (by rw [takes.payload]; rfl)).mono sub
      obtain ⟨message, about, rfl, same⟩ := eq_of_askedToVote holds rests asked
      rw [same, first]
      exact .prepare about takes
    · have asked := (extends_.asked coordinator (by rw [takes.payload]; rfl)).mono sub
      obtain ⟨message, about, rfl, same⟩ := eq_of_askedToVote holds rests asked
      rw [same, first]
      exact .refuse about takes
    · have told := (extends_.resolved .abort takes.payload).mono sub
      rcases eq_of_told holds rests told with same | ⟨-, coordinator, log₁, -, e₀, he₀, -⟩
      · rw [same, first]
        exact .abort takes
      · rw [first] at he₀
        cases he₀
    · have told := (extends_.resolved d takes.payload).mono sub
      refine .resolve history prepared ?_ takes
      have id := history.transaction
      rcases eq_of_told holds rests told with
        same | ⟨same, coordinator, log₁, told, e₀, he₀, payload, named⟩
      · rw [same, ← id]
        exact .message
      · rw [same]
        rw [← id] at told
        exact .answer (history.coordinator_of_prepared prepared he₀ named) told

/-- What is added to a prepared transaction resolves it by a decision that the call carries. -/
theorem Writes.resolves {past : List (Moment (role self))} {op : Operation} {es : List Entry}
    {r : Record} (h : Writes self past call tx op es e) (history : Record.History tx es r) :
    ∃ d, Carries self past call r d op ∧ e.Takes tx .prepared (.resolved d) (.resolved d) := by
  cases h with
  | prepare _ _ => exact absurd rfl history.ne_nil
  | refuse _ _ => exact absurd rfl history.ne_nil
  | abort _ => exact absurd rfl history.ne_nil
  | resolve history' _ carries takes =>
    obtain rfl := history'.unique history
    exact ⟨_, carries, takes⟩

/-- In every run of a participant, whatever it is told and whatever fails, what it has logged of a
transaction is nothing or one of the histories of `Record.History`. Its log grows by one entry at a
time: it is one of another process, or a resting call has asked to append it and it takes its
transaction on in one of the ways of `Writes`. A prepared transaction is taken on only for a call
that carries the decision on it, and the entry resolves it by that decision. What a recovery has
found in the log is assumed to be left to it until it asks for the first decision
(`recoveryLocks`). -/
theorem entries_follow_protocol {p : ProcessId} {n : Node (role p)} (h : Reachable p n) :
    (∀ tx, Log.history n.log p tx = [] ∨
      ∃ r, Record.History tx (Log.history n.log p tx) r) ∧
    (∀ n', n.Step (Allows p n) n' → n'.log = n.log ∨
      (∃ e, e.actor ≠ p ∧ n'.log = n.log ++ [e]) ∨
      ∃ call t e, n.threads call = some t ∧ t.question = .inl (.append e) ∧
        e.actor = p ∧ n'.log = n.log ++ [e] ∧
        Writes p n.past call e.transaction t.operation (Log.history n.log p e.transaction) e) ∧
    ∀ n', n.Step (Allows p n) n' → ∀ tx r, Record.History tx (Log.history n.log p tx) r →
      r.state = .prepared → Log.history n'.log p tx ≠ Log.history n.log p tx →
      ∃ call t e d, n.threads call = some t ∧ t.question = .inl (.append e) ∧
        Carries p n.past call r d t.operation ∧ e.Takes tx .prepared (.resolved d) (.resolved d) ∧
        Log.history n'.log p tx = Log.history n.log p tx ++ [e] := by
  have holds := h.holds
  have grows : ∀ n', n.Step (Allows p n) n' → n'.log = n.log ∨
      (∃ e, e.actor ≠ p ∧ n'.log = n.log ++ [e]) ∨
      ∃ call t e, n.threads call = some t ∧ t.question = .inl (.append e) ∧
        e.actor = p ∧ n'.log = n.log ++ [e] ∧
        Writes p n.past call e.transaction t.operation (Log.history n.log p e.transaction) e := by
    intro n' step
    rcases step.log with same | other | ⟨call, t, e, rests, question, log⟩
    · exact .inl same
    · exact .inr (.inl other)
    · obtain ⟨own, writes⟩ := writes_of_stored holds (h.step step).holds rests question log
      exact .inr (.inr ⟨call, t, e, rests, question, own, log, writes⟩)
  refine ⟨?_, grows, ?_⟩
  · intro tx
    obtain ⟨found, sees⟩ := Kept.sees (holds.kept tx)
    cases found with
    | none => exact .inl sees
    | some r => exact .inr ⟨r, sees⟩
  · intro n' step tx r history prepared changed
    rcases grows n' step with
      same | ⟨e, other, log⟩ | ⟨call, t, e, rests, question, own, log, writes⟩
    · rw [same] at changed
      exact absurd rfl changed
    · rw [log, Log.history_append_other _ fun own => absurd own other] at changed
      exact absurd rfl changed
    · by_cases about : e.transaction = tx
      · subst about
        have added : Log.history n'.log p e.transaction =
            Log.history n.log p e.transaction ++ [e] := by
          rw [log]
          exact Log.history_append_own n.log own rfl
        obtain ⟨d, carries, takes⟩ := writes.resolves history
        exact ⟨call, t, e, d, rests, question, carries, takes, added⟩
      · rw [log, Log.history_append_other _ fun _ => about] at changed
        exact absurd rfl changed

/-- A participant that has prepared and is told to commit writes that it has committed. -/
theorem entries_follow_protocol_storingRun :
    Reachable cohort storingRun ∧
    storingRun.Step (Allows cohort storingRun) resolvedRun ∧
    (∃ r, Record.History proposal.transaction
      (Log.history storingRun.log cohort proposal.transaction) r ∧ r.state = .prepared) ∧
    ∃ e, e.Takes proposal.transaction .prepared .committed (.resolved .commit) ∧
      Log.history resolvedRun.log cohort proposal.transaction =
        Log.history storingRun.log cohort proposal.transaction ++ [e] := by
  have step : storingRun.Step (Allows cohort storingRun) resolvedRun :=
    attains.step_moves _ alone_storingRun rfl nofun
  obtain ⟨histories, -, resolves⟩ := entries_follow_protocol reachable_storingRun
  obtain ⟨r, history⟩ := (histories proposal.transaction).resolve_left (by decide +kernel)
  have prepared : r.state = .prepared := by
    have last := history.last
    rw [show (Log.history storingRun.log cohort proposal.transaction).getLast?.map Entry.state =
      some .prepared by decide +kernel] at last
    cases hr : r.state <;> simp [hr, ParticipantState.toState] at last ⊢
  refine ⟨reachable_storingRun, step, ⟨r, history, prepared⟩, ?_⟩
  obtain ⟨call, t, e, d, rests, -, carries, takes, added⟩ :=
    resolves _ step _ r history prepared (by decide +kernel)
  have own : call = 1 := by
    by_contra ne
    rw [alone_storingRun call ne] at rests
    cases rests
  subst own
  have decided : t.operation = .handleDecision proposal.transaction .commit := by
    have operation : (storingRun.threads 1).map Thread.operation =
        some (.handleDecision proposal.transaction .commit) := rfl
    simpa [rests] using operation
  have commits : d = .commit := by
    generalize t.operation = op at decided carries
    cases carries with
    | message => exact (Operation.handleDecision.inj decided).2
    | answer _ _ => cases decided
  subst commits
  exact ⟨e, takes, added⟩

end AtomicCommit.Participant
