import AtomicCommit.Proofs.Participant.Isolation
import AtomicCommit.Proofs.Participant.Resources
import AtomicCommit.Proofs.Process.Erasure

/-!
# Calls that fail

A participant that can not do what it is told has done nothing: a call on a transaction stores one
entry at most, last of all, and from then on it does not fail. The memory is changed when the entry
is stored, and not before.

## Main definitions

* `Participant.Fails`: a call returns an error.

## Main results

* `Participant.spares_run`: a call on a transaction that fails has stored nothing.
* `Participant.failed_call_leaves_no_trace`: with or without the call all goes on the same.
-/

namespace AtomicCommit.Participant

/-- A call on a transaction returns an error. -/
def Fails : (op : Operation) → op.Result → Prop
  | .handlePrepare _, result => ∃ failure, result = .error failure
  | .handleDecision _ _, result => ∃ failure, result = .error failure
  | .queryVote _, result => ∃ failure, result = .error failure
  | .queryState _, result => ∃ failure, result = .error failure
  | .queryRecord _, result => ∃ failure, result = .error failure
  | .forget _, result => ∃ failure, result = .error failure
  | .recover, _ => False

/-! ## What a failing call has done -/

section Spares

variable {self : ProcessId} {tx : TransactionId} {ε α : Type} {memory : Memory}

/-- What is known when nothing has been stored. -/
def Unstored (_ : ε) (memory : Memory) (found : Option Memory) : Prop := found = some memory

/-- A question that stores nothing. -/
theorem meets_ask_unstored {q : interface.Request} (stores : (role self).stores q = false)
    {ok : interface.Answer q → Memory → Option Memory → Prop}
    {err : ε → Memory → Option Memory → Prop} (told : ∀ a memory, ok a memory (some memory)) :
    (Action.ask q : Action interface Memory ε _).Meets (sparing (role self)) ok err memory
      (some memory) := by
  rw [Action.meets_ask]
  refine ⟨fun _ same => Option.some.inj same, ?_⟩
  rintro a memory' found ⟨log, log', answers, ⟨-, rfl⟩ | ⟨grown, -⟩⟩
  · exact told a memory'
  · rcases Role.answers_log answers with same | ⟨e, append, -⟩
    · exact absurd same grown
    · exact absurd append (Role.ne_append_of_stores stores e)

/-- Looking up a transaction stores nothing. -/
theorem meets_record?_unstored {ok : Option Record → Memory → Option Memory → Prop}
    (found : ∀ r memory, ok r memory (some memory)) :
    (record? self tx).Meets (sparing (role self)) ok Unstored memory (some memory) := by
  refine meets_record?_of (fun r _ => found (some r) memory) fun _ => ?_
  rw [Host.load, Action.meets_bind]
  refine meets_ask_unstored rfl fun entries memory => ?_
  rw [Action.meets_ofExcept]
  exact ⟨fun _ _ => ⟨fun r _ => found r memory, fun _ _ => rfl⟩, fun _ _ => rfl⟩

/-- Once the entry is stored that a step takes, the step does not fail. -/
theorem meets_advance_unstored {r r' : Record} {next : ParticipantState} {payload : Payload}
    {err : CommitError → Memory → Option Memory → Prop}
    (applies : ∀ e : Entry, e.Takes r.transaction r.state next payload → r.apply e = .ok r')
    (missed : ∀ failure memory, err failure memory (some memory)) :
    (advance self r next payload).Meets (sparing (role self)) (fun _ _ _ => True) err memory
      (some memory) := by
  refine meets_advance_of (meets_ask_unstored rfl fun now memory e _ takes => ?_)
  rw [Host.meets_append, applies e takes]
  refine ⟨fun _ same => Option.some.inj same, ?_⟩
  rintro stored memory' found ⟨log, log', answers, answered⟩
  refine ⟨fun _ _ => ⟨fun _ _ => trivial, by simp⟩, ?_⟩
  rintro failure rfl
  obtain rfl : log' = log := answers
  obtain ⟨-, rfl⟩ | ⟨grown, -⟩ := answered
  · exact missed _ memory'
  · exact absurd rfl grown

theorem meets_handlePrepare_unstored {message : PrepareMessage} :
    (handlePrepare self message).Meets (sparing (role self)) (fun _ _ _ => True) Unstored memory
      (some memory) := by
  refine meets_handlePrepare_of (meets_record?_unstored fun r memory => ⟨fun _ _ => trivial, ?_⟩)
  intro _
  refine meets_tryPrepare_of (meets_ask_unstored rfl fun able memory => ⟨fun _ => ⟨nofun, ?_⟩, ?_⟩)
  · exact fun _ => meets_advance_unstored (fun e takes => Record.apply_of_takes takes rfl)
      fun _ _ => rfl
  intro _
  refine meets_ask_unstored rfl fun prepared memory => ⟨fun payload _ => ?_, fun _ => ?_⟩
  · -- what has been prepared is released when the vote is not stored
    refine meets_advance_unstored (fun e takes => Record.apply_of_takes takes rfl) ?_
    exact fun _ _ => meets_ask_unstored rfl fun _ _ => rfl
  · exact meets_advance_unstored (fun e takes => Record.apply_of_takes takes rfl) fun _ _ => rfl

theorem meets_handleDecision_unstored {d : Decision} :
    (handleDecision self tx d).Meets (sparing (role self)) (fun _ _ _ => True) Unstored memory
      (some memory) := by
  refine meets_handleDecision_of (meets_record?_unstored fun found memory => ?_)
  constructor
  case aborts =>
    exact fun _ _ => meets_advance_unstored (fun e takes => Record.apply_of_takes takes rfl)
      fun _ _ => rfl
  case ignores => exact fun _ _ => trivial
  case repeats => exact fun _ _ _ => trivial
  case refuses => exact fun _ _ _ _ => rfl
  case misses => exact fun _ _ _ _ => rfl
  case carries =>
    intro r payload _ prepared _
    have move : r.state.canMoveTo (.resolved d) = true := by
      rw [prepared]
      cases d <;> rfl
    have applies : ∀ e : Entry, e.Takes r.transaction r.state (.resolved d) (.resolved d) →
        r.apply e = .ok { r with state := .resolved d } := by
      intro e takes
      rw [Record.apply_of_takes takes move]
      simp [Record.step]
    cases d <;> exact meets_ask_unstored rfl fun outcome memory =>
      ⟨fun _ _ => rfl, fun _ => meets_advance_unstored applies fun _ _ => rfl⟩

theorem meets_forget_unstored :
    (forget self tx).Meets (sparing (role self)) (fun _ _ _ => True) Unstored memory
      (some memory) :=
  meets_forget_of (fun _ => trivial) (fun _ _ _ => trivial) fun _ => rfl

/-- An action spares log and memory that has stored nothing when it fails. -/
theorem spares_of_meets {action : Action interface Memory ε α}
    (h : action.Meets (sparing (role self)) (fun _ _ _ => True) Unstored memory (some memory)) :
    (action.program memory).Meets (sparing (role self))
      (fun outcome found => (∃ failure, outcome.1 = .error failure) → found = some outcome.2)
      (some memory) := by
  refine Action.Meets.program (h.mono ?_ fun _ _ _ unstored _ => unstored)
  rintro a memory found - ⟨failure, failed⟩
  cases failed

/-- A call on a transaction that fails has stored nothing and has left the memory alone. -/
theorem spares_run {op : Operation} (single : op.transaction? ≠ none) (memory : Memory) :
    (role self).Spares Fails (run self op memory) (some memory) := by
  -- what only tells what has been found
  have tells : ∀ (α : Type) (tx : TransactionId) (tell : Option Record → α),
      (record? self tx >>= fun r => pure (tell r) : Step α).Meets (sparing (role self))
        (fun _ _ _ => True) Unstored memory (some memory) := by
    intro α tx tell
    rw [Action.meets_bind]
    exact meets_record?_unstored fun _ _ => trivial
  cases op with
  | handlePrepare message => exact spares_of_meets meets_handlePrepare_unstored
  | handleDecision tx d => exact spares_of_meets meets_handleDecision_unstored
  | queryVote tx => exact spares_of_meets (tells _ tx _)
  | queryState tx => exact spares_of_meets (tells _ tx _)
  | queryRecord tx => exact spares_of_meets (meets_record?_unstored fun _ _ => trivial)
  | forget tx => exact spares_of_meets meets_forget_unstored
  | recover => exact absurd rfl single

end Spares

/-! ## Runs -/

/-- What a call has to itself does not depend on whether another is there. -/
theorem locks_without {p : ProcessId} {n : Node (role p)} {call other : ℕ} {op : Operation}
    {later : List (Moment (role p))} (ne : other ≠ call) :
    locks p ((n.without call).past ++ later) other op = locks p (n.past ++ later) other op := by
  refine discipline_lawful.claims_own _ _ other op ?_
  rw [momentsOf_append, momentsOf_append, momentsOf_without ne]

/-- Whether a call may be taken on depends on the calls that rest, and on what they have been
through. -/
theorem oblivious_allows {p : ProcessId} (call : ℕ) : Node.Oblivious (Allows p) call where
  without n op m ne allowed := by
    constructor
    intro other t rests different
    have own : other ≠ call := by
      rintro rfl
      simp [Node.without] at rests
    rw [Node.threads_without own] at rests
    have turn := allowed.turn other t rests different
    rw [← locks_without ne] at turn
    rwa [← List.append_nil n.past, ← locks_without own, List.append_nil] at turn
  ended n op m ne ended allowed := by
    constructor
    intro other t rests different
    have own : other ≠ call := by
      rintro rfl
      rw [ended] at rests
      cases rests
    have turn := allowed.turn other t ((Node.threads_without own).trans rests) different
    rw [locks_without ne] at turn
    rwa [← List.append_nil (n.without call).past, locks_without own, List.append_nil] at turn

/-- Whatever comes to a participant, and however its host and its resource manager answer: a call
for a vote, for a decision, for what is known or to forget that has returned an error has left the
log and all records as they were, whenever it was started or answered. It may be taken out of the
run, and nobody notices: whatever comes to the participant later, be it the same call again, comes
to it with the failed call if and only if it may come to it without, and leads to the same log and
the same records; every other call goes through the same, asks the same, stores the same at the same
place of the log, and returns the same. What a recovery has found in the log is assumed to be left
to it until it asks for the first decision (`recoveryLocks`). -/
theorem failed_call_leaves_no_trace {p : ProcessId} {cues : List (Cue (role p))}
    {n : Node (role p)} (h : Node.Plays (Allows p) cues n) {call : ℕ} {op : Operation}
    {result : op.Result} {log : List Entry} (single : op.transaction? ≠ none)
    (returned : ⟨call, .returned op result, log⟩ ∈ n.past) (fails : Fails op result) :
    (∀ before cue n₁ n₂, before ++ [cue] <+: cues → cue.call? = some call →
      Node.Plays (Allows p) before n₁ → n₁.Reacts (Allows p n₁) cue n₂ →
      n₂.log = n₁.log ∧ n₂.memory = n₁.memory) ∧
    ∀ later, (∀ cue ∈ later, cue.call? ≠ some call) →
      ((∃ k, Node.Plays (Allows p) ((cues.filter fun cue => cue.call? ≠ some call) ++ later) k) ↔
        ∃ n', Node.Plays (Allows p) (cues ++ later) n') ∧
      ∀ k n', Node.Plays (Allows p) ((cues.filter fun cue => cue.call? ≠ some call) ++ later) k →
        Node.Plays (Allows p) (cues ++ later) n' →
        k.log = n'.log ∧ k.memory = n'.memory ∧
        ∀ other, other ≠ call → momentsOf k.past other = momentsOf n'.past other := by
  have holds := (reachable_iff_plays.2 ⟨cues, h⟩).holds
  obtain ⟨-, log₀, -, started⟩ := holds.chronicle.returned returned
  obtain ⟨untouched, same⟩ := h.traceless (oblivious_allows call) (fun op' mem memory => by
    obtain ⟨log', started'⟩ := h.started mem
    obtain rfl := holds.chronicle.started_unique started started'
    exact spares_run single memory) returned fails
  refine ⟨untouched, fun later others => ⟨⟨?_, ?_⟩, ?_⟩⟩
  · rintro ⟨k, plays⟩
    obtain ⟨n', plays', -⟩ := (same later others k).1 plays
    exact ⟨n', plays'⟩
  · rintro ⟨n', plays⟩
    exact ⟨_, (same later others _).2 ⟨n', plays, rfl⟩⟩
  · intro k n' plays plays'
    obtain rfl := plays.unique ((same later others _).2 ⟨n', plays', rfl⟩)
    exact ⟨rfl, rfl, fun other ne => momentsOf_without ne⟩

/-! ## A vote that is tried again -/

section Retries

/-- A participant can not store its vote and returns an error. Asked again it votes, as if it had
been asked only once. -/
theorem failed_call_leaves_no_trace_retriedRun :
    ∃ cues, Node.Plays (Allows cohort) cues retriedRun ∧
      (∃ failure log, ⟨0, .returned (.handlePrepare proposal) (.error failure), log⟩ ∈
        retriedRun.past) ∧
      (∃ log, ⟨1, .returned (.handlePrepare proposal) (.ok .yes), log⟩ ∈ retriedRun.past) ∧
      ∃ k, Node.Plays (Allows cohort) (cues.filter fun cue => cue.call? ≠ some 0) k ∧
        k.log = retriedRun.log ∧ k.log.length = 1 ∧ k.memory = retriedRun.memory ∧
        momentsOf k.past 1 = momentsOf retriedRun.past 1 := by
  obtain ⟨cues, plays⟩ := reachable_iff_plays.1 reachable_retriedRun
  have released : ⟨0, .returned (.handlePrepare proposal)
      (.error (.log (.unavailable (.reported "")))), []⟩ ∈ retriedRun.past :=
    List.mem_of_getElem? (show retriedRun.past[13]? = some _ from rfl)
  obtain ⟨-, same⟩ := failed_call_leaves_no_trace plays (by decide) released ⟨_, rfl⟩
  obtain ⟨⟨-, without⟩, alike⟩ := same [] (by simp)
  simp only [List.append_nil] at without alike
  obtain ⟨k, plays'⟩ := without ⟨retriedRun, plays⟩
  obtain ⟨log, memory, moments⟩ := alike k retriedRun plays' plays
  refine ⟨cues, plays, ⟨_, _, released⟩, ?_, k, plays', log, ?_, memory, moments 1 (by decide)⟩
  · exact ⟨_, List.mem_of_getLast? (show retriedRun.past.getLast? = some _ from rfl)⟩
  · rw [log]
    decide +kernel

end Retries

end AtomicCommit.Participant
