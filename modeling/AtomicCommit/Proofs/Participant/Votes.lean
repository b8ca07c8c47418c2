import AtomicCommit.Proofs.Participant.LookUp
import AtomicCommit.Proofs.Participant.Smooth

/-!
# The vote of a participant never changes

Once anything is logged of a transaction, whoever asks for the vote is answered from the log, or
from the copy in memory that mirrors it. Such a call reads the log at most once, and asks for
nothing else: neither is the resource manager heard again nor is anything written.

## Main definitions

* `Participant.Leads`: what a run may go on to.
* `Participant.Tells`: an operation tells what is known of a transaction.
* `Participant.LooksUp`: what a call goes through that looks up a transaction and tells of it.
* `Participant.Votes`, `Participant.Shows`: a vote was given, or told.
* `Participant.AbortedUnasked`: a transaction was told to be aborted before it was voted on.

## Main results

* `Participant.onlyTells_of_vote`: what is told of the vote once a transaction is known.
* `Participant.votes_never_change`: the vote that was shown is the one given and told for ever.
-/

namespace AtomicCommit.Participant

variable {self : ProcessId} {n n' : Node (role self)} {call : ℕ} {op : Operation}
  {tx : TransactionId} {log : List Entry}

/-! ## What is known is told -/

/-- Who is asked for a vote on a known transaction tells the one that is logged. -/
theorem tells_handlePrepare (message : PrepareMessage) :
    Tells self message.transaction ((role self).program (.handlePrepare message))
      (Option.map fun r => .ok (r.vote.getD .no)) (fun failure => .error (.log failure)) := by
  refine tells_of_record? ?_
  intro found result memory answered
  cases found with
  | none => cases answered
  | some r =>
    cases answered
    rfl

theorem tells_queryVote (tx : TransactionId) :
    Tells self tx ((role self).program (.queryVote tx)) (Option.map fun r => .ok r.vote)
      (fun failure => .error (.log failure)) := by
  refine tells_of_record? ?_
  intro found result memory answered
  cases found with
  | none => cases answered
  | some r =>
    cases answered
    rfl

/-- Once a transaction is known, the calls for an operation on it that tells what the vote says look
it up and do nothing else, however the run goes on. -/
theorem onlyTells_of_vote {answer : Record → op.Result} {result : op.Result}
    {failed : LogError → op.Result} {r : Record} (h : Reachable self n)
    (known : Sees self n.log tx (some r))
    (tells : Tells self tx ((role self).program op) (Option.map answer) failed)
    (same : ∀ r', r'.vote = r.vote → answer r' = result) (leads : Leads self n n') :
    OnlyTells self n n' op tx result failed := by
  refine onlyTells_of_leads h tells leads fun n₁ before _ => ?_
  have grown := (Leads.grows before).log
  obtain ⟨r₁, known₁⟩ := known_of_prefix (h.leads before).holds grown known
  have vote := Record.History.vote_of_prefix known known₁ (Log.history_prefix grown _ _)
  exact ⟨some r₁, known₁, congrArg some (same r₁ vote)⟩

theorem looksUp_of_leads {answer : Record → op.Result} {result : op.Result}
    {failed : LogError → op.Result} {r : Record} (h : Reachable self n)
    (known : Sees self n.log tx (some r))
    (tells : Tells self tx ((role self).program op) (Option.map answer) failed)
    (same : ∀ r', r'.vote = r.vote → answer r' = result) (leads : Leads self n n')
    (started : ⟨call, .started op, log⟩ ∈ n'.past) (later : ⟨call, .started op, log⟩ ∉ n.past) :
    LooksUp self call op tx result failed (momentsOf n'.past call) :=
  (onlyTells_of_vote h known tells same leads).trace call ⟨log, started, later⟩

/-! ## Votes -/

/-- A vote on a transaction was given. -/
def Votes (p : ProcessId) (past : List (Moment (role p))) (tx : TransactionId) (v : Vote) : Prop :=
  ∃ call message log, message.transaction = tx ∧
    ⟨call, .returned (.handlePrepare message) (.ok v), log⟩ ∈ past

/-- A vote on a transaction was given, or told. -/
def Shows (p : ProcessId) (past : List (Moment (role p))) (tx : TransactionId) (v : Vote) : Prop :=
  Votes p past tx v ∨ ∃ call log, ⟨call, .returned (.queryVote tx) (.ok (some v)), log⟩ ∈ past

/-- The first that was logged of a transaction is that it is to be aborted; no vote was. -/
def AbortedUnasked (p : ProcessId) (log : List Entry) (tx : TransactionId) : Prop :=
  ∃ e, Log.history log p tx = [e] ∧ e.Takes tx .idle .aborted (.resolved .abort)

theorem Votes.logged (holds : (discipline self).Holds n) {v : Vote} (h : Votes self n.past tx v) :
    VoteLogged self n.log tx v := by
  obtain ⟨call, message, log, rfl, returned⟩ := h
  obtain ⟨⟨before, justified⟩, -⟩ := holds.chronicle.returned returned
  exact (voteLogged_of_returned justified).mono holds (holds.grown _ returned)

theorem Shows.logged (holds : (discipline self).Holds n) {v : Vote} (h : Shows self n.past tx v) :
    VoteLogged self n.log tx v := by
  rcases h with given | ⟨call, log, returned⟩
  · exact given.logged holds
  · obtain ⟨⟨before, justified⟩, -⟩ := holds.chronicle.returned returned
    exact (voteLogged_of_told justified).mono holds (holds.grown _ returned)

/-- A transaction that is known without a vote was told to be aborted before it was voted on. -/
theorem abortedUnasked_of_sees {r : Record} (known : Sees self log tx (some r))
    (unvoted : r.vote = none) : AbortedUnasked self log tx := by
  have history : Record.History tx (Log.history log self tx) r := known
  unfold AbortedUnasked
  generalize Log.history log self tx = es at history
  cases history with
  | prepared _ => cases unvoted
  | resolved _ _ => cases unvoted
  | refused _ => cases unvoted
  | early takes => exact ⟨_, rfl, takes⟩

theorem AbortedUnasked.sees (h : AbortedUnasked self log tx) :
    ∃ r, Sees self log tx (some r) ∧ r.vote = none := by
  obtain ⟨e, only, takes⟩ := h
  refine ⟨{ transaction := tx, coordinator := none, state := .aborted }, ?_, rfl⟩
  rw [Sees, only]
  exact .early takes

theorem AbortedUnasked.mono (holds : (discipline self).Holds n) (grown : log <+: n.log)
    (h : AbortedUnasked self log tx) : AbortedUnasked self n.log tx := by
  obtain ⟨r, known, unvoted⟩ := h.sees
  obtain ⟨r', known'⟩ := known_of_prefix holds grown known
  refine abortedUnasked_of_sees known' ?_
  rw [Record.History.vote_of_prefix known known' (Log.history_prefix grown _ _), unvoted]

/-- Who has logged an abort before any vote was sent the decision. -/
theorem AbortedUnasked.told (holds : (discipline self).Holds n) (h : AbortedUnasked self n.log tx) :
    ∃ call log, ⟨call, .started (.handleDecision tx .abort), log⟩ ∈ n.past := by
  obtain ⟨e, only, takes⟩ := h
  obtain ⟨call, ⟨log, started⟩ | ⟨coordinator, log, answered⟩⟩ :=
    told_of_resolved holds.toSound (only ▸ List.mem_singleton_self e) takes.payload
  · exact ⟨call, log, started⟩
  · -- a recovery asks only for what is prepared
    obtain ⟨log', asked⟩ := holds.chronicle.asked answered
    obtain ⟨-, -, -, -, -, -, e', he', payload, prepared⟩ := holds.chronicle.justified asked
    have mem := (Log.history_prefix (holds.grown _ asked) self tx).subset he'
    rw [only, List.mem_singleton] at mem
    rw [mem, takes.payload] at prepared
    cases prepared

/-- In every run of a participant, whatever it is told, whatever its resource manager answers and
whatever fails, all votes given on a transaction are the same. Once a vote was given or told, every
call that starts later and asks for it looks it up and asks for nothing else, and the vote is what
it is answered, unless the log can not be read. The only transaction with a vote that is not told is
one that was told to be aborted before any vote was logged: from then on it is told to have none,
and voted on with `no`. What a recovery has found in the log is assumed to be left to it until it
asks for the first decision (`recoveryLocks`). -/
theorem votes_never_change {p : ProcessId} {n : Node (role p)} (h : Reachable p n)
    (tx : TransactionId) :
    (∀ v v', Votes p n.past tx v → Votes p n.past tx v' → v' = v) ∧
    (∀ v n', Shows p n.past tx v → Leads p n n' →
      (∀ call message, message.transaction = tx → StartsSince n n' call (.handlePrepare message) →
        LooksUp p call (.handlePrepare message) tx (.ok v) (fun failure => .error (.log failure))
          (momentsOf n'.past call)) ∧
      (¬AbortedUnasked p n.log tx → ∀ call, StartsSince n n' call (.queryVote tx) →
        LooksUp p call (.queryVote tx) tx (.ok (some v)) (fun failure => .error (.log failure))
          (momentsOf n'.past call))) ∧
    (AbortedUnasked p n.log tx →
      (∃ call log, ⟨call, .started (.handleDecision tx .abort), log⟩ ∈ n.past) ∧
      (∀ v, Shows p n.past tx v → v = .no) ∧
      ∀ n', Leads p n n' → AbortedUnasked p n'.log tx ∧
        (∀ call message, message.transaction = tx →
          StartsSince n n' call (.handlePrepare message) →
          LooksUp p call (.handlePrepare message) tx (.ok .no)
            (fun failure => .error (.log failure)) (momentsOf n'.past call)) ∧
        ∀ call, StartsSince n n' call (.queryVote tx) →
          LooksUp p call (.queryVote tx) tx (.ok none) (fun failure => .error (.log failure))
            (momentsOf n'.past call)) := by
  have holds := h.holds
  -- whoever is asked for the vote on a known transaction tells the one in the log
  have prepares : ∀ r n', Sees p n.log tx (some r) → Leads p n n' → ∀ call message,
      message.transaction = tx → StartsSince n n' call (.handlePrepare message) →
      LooksUp p call (.handlePrepare message) tx (.ok (r.vote.getD .no))
        (fun failure => .error (.log failure)) (momentsOf n'.past call) := by
    rintro r n' known leads call message rfl ⟨log, started, later⟩
    refine looksUp_of_leads h known (tells_handlePrepare message) ?_ leads started later
    exact fun r' same => congrArg (fun vote : Option Vote => Except.ok (vote.getD .no)) same
  have queries : ∀ r n', Sees p n.log tx (some r) → Leads p n n' → ∀ call,
      StartsSince n n' call (.queryVote tx) →
      LooksUp p call (.queryVote tx) tx (.ok r.vote)
        (fun failure => .error (.log failure)) (momentsOf n'.past call) := by
    rintro r n' known leads call ⟨log, started, later⟩
    refine looksUp_of_leads h known (tells_queryVote tx) ?_ leads started later
    exact fun r' same => congrArg Except.ok same
  refine ⟨?_, ?_, ?_⟩
  · intro v v' given given'
    exact (given.logged holds).unique (given'.logged holds)
  · intro v n' shown leads
    obtain ⟨r, known, voted⟩ := shown.logged holds
    constructor
    · rw [← voted]
      exact prepares r n' known leads
    · intro asked
      cases vote : r.vote with
      | none => exact absurd (abortedUnasked_of_sees known vote) asked
      | some w =>
        obtain rfl : w = v := by simpa [vote] using voted
        rw [← vote]
        exact queries r n' known leads
  · intro unasked
    obtain ⟨r, known, unvoted⟩ := unasked.sees
    refine ⟨unasked.told holds, ?_, ?_⟩
    · intro v shown
      obtain ⟨r', known', voted⟩ := shown.logged holds
      rw [Record.History.unique known known', unvoted] at voted
      exact voted.symm
    · intro n' leads
      refine ⟨unasked.mono (h.leads leads).holds (Leads.grows leads).log, ?_, ?_⟩
      · simpa [unvoted] using prepares r n' known leads
      · simpa [unvoted] using queries r n' known leads

/-! ## A vote that is asked for again -/

section Repeats

/-- Another coordinator asks for the vote on the same transaction. -/
abbrev repetition : PrepareMessage := { proposal with coordinator := ⟨"d"⟩ }

/-- A participant that has voted restarts. -/
def forgetfulRun : Node (role cohort) where
  log := votedRun.log
  past := votedRun.past

/-- It is asked again, while its resource manager does not answer. -/
def repeatedRun : Node (role cohort) :=
  (forgetfulRun.opens 1 (.handlePrepare repetition)).moves { outside := fun _ => none } 1

theorem leads_repeatedRun : Leads cohort votedRun repeatedRun := by
  have alone : forgetfulRun.Alone 1 := fun _ _ => rfl
  have start : forgetfulRun.Step (Allows cohort forgetfulRun)
      (forgetfulRun.opens 1 (.handlePrepare repetition)) :=
    .start (rested_votedRun.new le_rfl) (allows_of_alone alone)
  have alone' : (forgetfulRun.opens 1 (.handlePrepare repetition)).Alone 1 := Node.alone_opens alone
  have read : Node.Step (Allows cohort (forgetfulRun.opens 1 (.handlePrepare repetition)))
      (forgetfulRun.opens 1 (.handlePrepare repetition)) repeatedRun :=
    Node.Attains.step_moves { outside := fun _ => none }
      { attains with outside := nofun } alone' rfl nofun
  exact .tail (.tail (.single .restart) start) read

/-- Who has voted to commit, restarts and is asked by another coordinator reads its log and gives
the vote again. -/
theorem votes_never_change_repeatedRun :
    Reachable cohort votedRun ∧ Shows cohort votedRun.past proposal.transaction .yes ∧
    Leads cohort votedRun repeatedRun ∧
    StartsSince votedRun repeatedRun 1 (.handlePrepare repetition) ∧
    LooksUp cohort 1 (.handlePrepare repetition) proposal.transaction (.ok .yes)
      (fun failure => .error (.log failure)) (momentsOf repeatedRun.past 1) ∧
    (momentsOf repeatedRun.past 1).length = 4 := by
  have shown : Shows cohort votedRun.past proposal.transaction .yes := by
    refine .inl ⟨0, proposal, votedRun.log, rfl, ?_⟩
    exact List.mem_of_getLast? (by rfl)
  have since : StartsSince votedRun repeatedRun 1 (.handlePrepare repetition) := by
    refine ⟨votedRun.log, ?_, fun old => ?_⟩
    · have first : (momentsOf repeatedRun.past 1).head? =
          some ⟨1, .started (.handlePrepare repetition), votedRun.log⟩ := rfl
      exact mem_of_mem_momentsOf (List.mem_of_head? first)
    · have first : ∀ m ∈ votedRun.past, m.call = 0 := by decide +kernel
      exact Nat.one_ne_zero (first _ old)
  obtain ⟨-, later, -⟩ := votes_never_change reachable_votedRun proposal.transaction
  exact ⟨reachable_votedRun, shown, leads_repeatedRun, since,
    (later .yes _ shown leads_repeatedRun).1 1 repetition rfl since, by decide +kernel⟩

end Repeats

end AtomicCommit.Participant
