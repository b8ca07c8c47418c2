import AtomicCommit.Proofs.Coordinator.Ballot
import AtomicCommit.Proofs.System.Links

/-!
# What is asked again when a transaction is resumed

A coordinator that has lost its memory goes on with an undecided transaction from what its log says.
It asks only those whose vote it has not entered, and asks them what they were asked in the
beginning: each is asked for the vote it has logged, and sent PREPARE only if it has logged none.
What has been entered is not entered again.

## Main definitions

* `Coordinator.requested`: who has been asked for a vote, and by which message.
* `Coordinator.missing`: who is to be asked when a transaction is resumed.
* `Coordinator.Seeks`: what a resumption may ask, after what has been said.
* `Coordinator.Resumed`: the invariant of a resumption.

## Main results

* `Transport.ballot_asks_first`: how a participant is asked.
* `Coordinator.Resumed.meets_collectVotes`, `Coordinator.Resumed.meets_deliver`: what the loops of a
  resumption keep.
* `Coordinator.resume_asks_for_what_is_missing`: what a resumption asks for, whatever it is told.
-/

namespace AtomicCommit

/-- A participant of a resumed transaction is asked for the vote it has logged, and after that it is
sent PREPARE if it has logged none, and otherwise nothing. -/
theorem Transport.ballot_asks_first (p : ProcessId) (message : PrepareMessage) :
    ∃ next, (ballot true p message).run =
        .ask (I := Transport) ⟨p, .queryVote message.transaction⟩ next ∧
      ∀ reply answers q, (next reply).Reaches answers q ↔
        reply = .ok none ∧ q = ⟨p, .prepare message⟩ := by
  refine ⟨_, run_ballot_resuming, fun reply answers q => ?_⟩
  match reply with
  | .ok (some v) => exact ⟨nofun, nofun⟩
  | .error failure => exact ⟨nofun, nofun⟩
  | .ok none =>
    constructor
    · rintro (_ | ⟨_, ⟨⟩⟩)
      exact ⟨rfl, rfl⟩
    · rintro ⟨-, rfl⟩
      exact .here

namespace Coordinator

variable {self : Coordinator} {t t' : Transaction} {history : List Entry}
  {asked : List (Bool × ProcessId × PrepareMessage)} {said : List (Exchange self.role)}
  {memory : Memory} {next : CoordinatorState} {payload : Payload} {p : ProcessId} {v : Vote}

/-! ## What is asked for -/

/-- By which messages participants have been asked for their votes, in order, and whether they were
to be asked for a logged vote first. -/
def requested (said : List (Exchange self.role)) : List (Bool × ProcessId × PrepareMessage) :=
  said.flatMap fun
    | ⟨.inr (.requestVotes resuming messages _), _⟩ => messages.map (resuming, ·)
    | _ => []

/-- A question asks for votes. -/
def asksVotes (q : self.role.Request) : Bool :=
  match q with
  | .inr (.requestVotes _ _ _) => true
  | _ => false

theorem requested_concat {q : self.role.Request} {a : self.role.Answer q}
    (other : asksVotes q = false) : requested (said ++ [⟨q, a⟩]) = requested said := by
  rw [requested, List.flatMap_append]
  refine (congrArg (_ ++ ·) ?_).trans (List.append_nil _)
  rcases q with q | q
  · rfl
  · cases q with
    | requestVotes _ _ _ => cases other
    | _ => rfl

theorem requested_concat_request {resuming : Bool} {messages : List (ProcessId × PrepareMessage)}
    {time : Duration} {start : Instant} :
    requested
        (said ++ [(⟨.inr (.requestVotes resuming messages time), start⟩ : Exchange self.role)]) =
      requested said ++ messages.map (resuming, ·) := by
  simp [requested]

/-- What participants are to be asked when a transaction is resumed: nothing if the votes entered
determine the decision, and otherwise for each vote that is missing. -/
def missing (c : Coordinator) (t : Transaction) : List (Bool × ProcessId × PrepareMessage) :=
  if t.tally = none then t.pendingVotes.map fun p => (true, p, c.prepareMessage t p) else []

/-- A vote of a participant is among some entries. -/
def Voted (entries : List Entry) (p : ProcessId) : Prop :=
  ∃ v, .vote p v ∈ entries.map Entry.payload

/-- What a resumption of an undecided transaction may ask, after what has been said. -/
inductive Seeks (c : Coordinator) (t : Transaction) (said : List (Exchange c.role)) :
    c.role.Request → Prop where
  /-- The time. -/
  | now : Seeks c t said (.inl .now)
  /-- To let time pass. -/
  | pause {time : Duration} : Seeks c t said (.inr (.pause time))
  /-- For all the votes that are missing, once, unless the votes entered determine the decision. -/
  | request {time : Duration} (undetermined : t.tally = none) (first : requested said = []) :
      Seeks c t said (.inr (.requestVotes true
        (t.pendingVotes.map fun p => (p, c.prepareMessage t p)) time))
  /-- For a reply of those whose votes are still missing. -/
  | await {awaited : List ProcessId}
      (pending : ∀ p ∈ awaited, p ∈ t.pendingVotes ∧ ¬Voted (stored said) p) :
      Seeks c t said (.inr (.awaitVote t.id awaited))
  /-- To store a vote that was missing and has been heard. -/
  | vote {e : Entry} {p : ProcessId} {v : Vote} {awaited : List ProcessId}
      {reply : Reply awaited Vote} (own : e.actor = c.id) (about : e.transaction = t.id)
      (payload : e.payload = .vote p v) (pending : p ∈ t.pendingVotes)
      (new : ¬Voted (stored said) p) (sender : reply.sender = p) (result : reply.result = .ok v)
      (heard : ⟨.inr (.awaitVote t.id awaited), some reply⟩ ∈ said) :
      Seeks c t said (.inl (.append e))
  /-- To store something else. -/
  | enter {e : Entry} (own : e.actor = c.id) (about : e.transaction = t.id)
      (other : ∀ p v, e.payload ≠ .vote p v) : Seeks c t said (.inl (.append e))
  /-- To send a decision. -/
  | send {message : DecisionMessage} {participants : List ProcessId} {time : Duration}
      (about : message.transaction = t.id) :
      Seeks c t said (.inr (.sendDecision message participants time))
  /-- What comes of that. -/
  | acknowledge {message : DecisionMessage} {awaited : List ProcessId}
      (about : message.transaction = t.id) :
      Seeks c t said (.inr (.awaitAcknowledgement message awaited))
  /-- Nothing more, if the clock can not tell when replies would no longer be awaited; all the votes
  that are missing have been asked for then. -/
  | panic (asked : requested said = c.missing t) (overdue : Overdue said) :
      Seeks c t said (.inr .panic)

/-- The contract of a resumption, which may be told anything. -/
abbrev seeking (c : Coordinator) (t : Transaction) :
    Contract (interface.sharing Memory) (List (Exchange c.role)) :=
  c.role.hearing (c.Seeks t) fun _ _ _ => True

/-! ## How far a resumption has come -/

/-- A resumption has asked for these votes, and its entries have taken the transaction on. -/
structure Resumed (c : Coordinator) (history : List Entry) (t : Transaction)
    (asked : List (Bool × ProcessId × PrepareMessage)) (said : List (Exchange c.role))
    (t' : Transaction) : Prop where
  /-- It is the same transaction. -/
  id : t'.id = t.id
  /-- With the same participants. -/
  participants : t'.participants = t.participants
  /-- The entries lead to it. -/
  replay : Transaction.replay (history ++ stored said) = .ok t'
  /-- These votes have been asked for. -/
  requested : requested said = asked

/-- A resumption has failed before it came to ask for votes: the start could not be stored, or a
time that it was told was too late. -/
inductive Unreached (c : Coordinator) (said : List (Exchange c.role)) : CommitError → Prop where
  /-- The start could not be stored. -/
  | unstored {e : Entry} {cause : LogError} (payload : e.payload = .none)
      (refused : ⟨.inl (.append e), (.error cause : Except LogError Unit)⟩ ∈ said) :
      Unreached c said (.log cause)
  /-- It is too late. -/
  | late {now : Timestamp} (told : ⟨.inl .now, now⟩ ∈ said)
      (late : now.add? c.config.prepareTimeout = none) :
      Unreached c said (.invalidRequest (.timeoutRange c.config.prepareTimeout))

namespace Resumed

theorem start (replay : Transaction.replay history = .ok t) :
    self.Resumed history t [] [] t :=
  ⟨rfl, rfl, by rwa [stored_nil, List.append_nil], rfl⟩

/-- A question that stores nothing and asks for no vote changes nothing. -/
theorem concat (h : self.Resumed history t asked said t') {q : self.role.Request}
    (stores : self.role.stores q = false) (other : asksVotes q = false) (a : self.role.Answer q) :
    self.Resumed history t asked (said ++ [⟨q, a⟩]) t' where
  id := h.id
  participants := h.participants
  replay := by rw [stored_concat_of_not_append stores]; exact h.replay
  requested := by rw [requested_concat other, h.requested]

/-- Nor does an entry that is not stored. -/
theorem refuse (h : self.Resumed history t asked said t') (e : Entry) (cause : LogError) :
    self.Resumed history t asked
      (said ++ [⟨.inl (.append e), (.error cause : Except LogError Unit)⟩]) t' where
  id := h.id
  participants := h.participants
  replay := by rw [stored_append, stored_of_error, List.append_nil]; exact h.replay
  requested := by rw [requested_concat rfl, h.requested]

/-- An entry that is stored takes the transaction on. -/
theorem store (h : self.Resumed history t asked said t') {e : Entry}
    (takes : self.Takes t' next payload e) (u : Unit) :
    self.Resumed history t asked
      (said ++ [⟨.inl (.append e), (.ok u : Except LogError Unit)⟩]) (t'.record next payload) where
  id := (Transaction.id_record ..).trans h.id
  participants := (Transaction.participants_record ..).trans h.participants
  replay := by
    rw [stored_append, stored_of_ok, ← List.append_assoc]
    exact Transaction.replay_append_of_apply h.replay takes.apply
  requested := by rw [requested_concat rfl, h.requested]

/-- What a step of the transaction stores may be stored, unless it is a vote. -/
theorem enters (h : self.Resumed history t asked said t') {e : Entry}
    (takes : self.Takes t' next payload e) (other : ∀ p v, payload ≠ .vote p v)
    {said' : List (Exchange self.role)} : self.Seeks t said' (.inl (.append e)) :=
  .enter takes.actor (takes.transaction.trans h.id) (takes.carries ▸ other)

/-- Who has no vote in the transaction had none before, and none has been stored. -/
theorem unvoted (h : self.Resumed history t asked said t')
    (before : Transaction.replay history = .ok t) (member : t'.participants.contains p = true)
    (none : t'.votes.get? p = none) :
    p ∈ t.pendingVotes ∧ ¬Voted (stored said) p := by
  have votes := (Transaction.summarizes_of_replay h.replay).votes p
  have votes₀ := (Transaction.summarizes_of_replay before).votes p
  simp only [List.map_append, List.mem_append, none] at votes
  refine ⟨mem_pendingVotes_iff.2 ⟨h.participants ▸ member, ?_⟩, ?_⟩
  · cases voted : t.votes.get? p with
    | none => rfl
    | some v => exact absurd ((votes v).2 (.inl ((votes₀ v).1 voted))) nofun
  · rintro ⟨v, voted⟩
    exact absurd ((votes v).2 (.inr voted)) nofun

/-- The votes that had been entered are as they were. -/
theorem votes (h : self.Resumed history t asked said t')
    (before : Transaction.replay history = .ok t) (voted : t.votes.get? p = some v) :
    t'.votes.get? p = some v := by
  refine ((Transaction.summarizes_of_replay h.replay).votes p v).2 ?_
  rw [List.map_append]
  exact List.mem_append_left _ (((Transaction.summarizes_of_replay before).votes p v).1 voted)

/-! ## What a resumption keeps -/

variable {ok : Transaction → Memory → List (Exchange self.role) → Prop}
  {err : CommitError → Memory → List (Exchange self.role) → Prop}

/-- A step of the transaction. One that is new fails only because its entry is not stored. -/
theorem meets_transition (h : self.Resumed history t asked said t')
    (appends : ∀ time e, self.Takes t' next payload e →
      self.Seeks t (said ++ [⟨.inl .now, time⟩]) (.inl (.append e)))
    (advanced : ∀ memory' said', self.Resumed history t asked said' (t'.record next payload) →
      t'.Advances next payload → ok (t'.record next payload) memory' said')
    (repeated : ∀ memory' said', self.Resumed history t asked said' t' →
      t'.Repeats next payload → ok t' memory' said')
    (failed : ∀ failure memory' said', self.Resumed history t asked said' t' →
      (t'.Advances next payload → ∃ e cause, failure = .log cause ∧ e.payload = payload ∧
        ⟨.inl (.append e), (.error cause : Except LogError Unit)⟩ ∈ said') →
      err failure memory' said') :
    (self.transition t' next payload).Meets (self.seeking t) ok err memory said := by
  refine meets_transition_of .now ?_ ?_ ?_
  · rintro time failure memory' _ ⟨-, rfl⟩ refused
    exact failed _ memory' _ (h.concat rfl rfl time) fun advances => absurd advances refused
  · rintro time memory' _ ⟨-, rfl⟩ _ repeats
    exact repeated memory' _ (h.concat rfl rfl time) repeats
  · rintro time memory₁ _ e ⟨-, rfl⟩ advances takes
    have h := h.concat rfl rfl time
    refine meets_append_hearing (appends time e takes) ?_ ?_
    · exact fun memory₂ _ => advanced _ _ (h.store takes ()) advances
    · exact fun cause memory₂ _ => failed _ memory₂ _ (h.refuse e cause) fun _ =>
        ⟨e, cause, rfl, takes.carries, by simp⟩

theorem meets_collectVotes {outstanding : ℕ} {awaited : List ProcessId}
    (h : self.Resumed history t asked said t') (before : Transaction.replay history = .ok t)
    (preparing : t'.state = .preparing) (awaits : AwaitsVotes t' awaited)
    (collected : ∀ t'' memory' said', self.Resumed history t asked said' t'' →
      t''.state = .preparing → ok t'' memory' said')
    (failed : ∀ failure t'' memory' said', self.Resumed history t asked said' t'' →
      err failure memory' said') :
    (self.collectVotes outstanding awaited t').Meets (self.seeking t) ok err memory said := by
  refine meets_collectVotes_of
    (I := fun awaited t'' _ said' => self.Resumed history t asked said' t'' ∧
      t''.state = .preparing ∧ AwaitsVotes t'' awaited) ?_ ?_ ⟨h, preparing, awaits⟩
  · rintro - t'' memory' said' ⟨h, preparing, -⟩
    exact collected t'' memory' said' h preparing
  rintro awaited t₁ memory₁ said₁ ⟨h, preparing, awaits⟩
  have pending : ∀ {said'}, self.Resumed history t asked said' t₁ → ∀ p ∈ awaited,
      p ∈ t.pendingVotes ∧ ¬Voted (stored said') p :=
    fun h p hp => h.unvoted before (awaits.member p hp) (awaits.pending p hp)
  refine meets_ask_hearing (by rw [h.id]; exact .await (pending h)) fun reply? memory₂ _ => ?_
  have h₂ := h.concat rfl rfl reply?
  refine ⟨⟨h₂, preparing, awaits⟩, ?_⟩
  rintro reply vote rfl result
  have mem := reply.sender_mem
  refine h₂.meets_transition ?_ ?_ ?_ ?_
  · intro time e takes
    obtain ⟨missing, new⟩ := pending (h₂.concat rfl rfl time) _ mem
    exact .vote takes.actor (takes.transaction.trans h.id) takes.carries missing new rfl result
      (by simp [h.id])
  · intro memory₃ said₃ h advances
    exact ⟨h, Transaction.state_record advances, awaits.record⟩
  · intro memory₃ said₃ _ repeats
    exact absurd repeats (Transaction.Advances.vote vote preparing (awaits.member _ mem)
      (awaits.pending _ mem)).not_repeats
  · exact fun failure memory₃ said₃ h _ => failed failure t₁ memory₃ said₃ h

/-- Those whose votes are missing are asked for them. -/
theorem meets_prepare {deadline : Timestamp}
    (h : self.Resumed history t [] said (t.record .preparing .none))
    (before : Transaction.replay history = .ok t)
    (prepared : ∀ t'' memory' said', self.Resumed history t (self.missing t) said' t'' →
      t''.state = .preparing → ok t'' memory' said')
    (failed : ∀ failure t'' memory' said', self.Resumed history t (self.missing t) said' t'' →
      err failure memory' said') :
    (self.prepare (t.record .preparing .none) deadline true).Meets (self.seeking t) ok err memory
      said := by
  have tally : (t.record .preparing .none).tally = t.tally := rfl
  refine meets_prepare_of (fun determined => ?_) fun undetermined => ?_
  · rw [tally] at determined
    refine prepared _ memory said ?_ rfl
    rwa [missing, if_neg determined]
  rw [tally] at undetermined
  refine meets_ask_hearing .now fun now memory₁ _ => ?_
  have h₁ := h.concat rfl rfl now
  refine meets_ask_hearing (.request undetermined h₁.requested) fun start memory₂ _ => ?_
  have h₂ : self.Resumed history t (self.missing t) (said ++ [⟨.inl .now, now⟩] ++ [⟨_, start⟩])
      (t.record .preparing .none) := by
    refine ⟨h₁.id, h₁.participants, ?_, ?_⟩
    · rw [stored_concat_of_not_append rfl]
      exact h₁.replay
    · rw [requested_concat_request, h₁.requested, missing, if_pos undetermined, List.nil_append,
        List.map_map]
      rfl
  refine meets_within.2 ⟨fun _ => ?_, fun late =>
    .panic h₂.requested (.votes List.getLast?_concat late)⟩
  exact h₂.meets_collectVotes before rfl (awaitsVotes_pending _) prepared failed

/-- The decision is made by what has been entered, and nobody is asked for it. -/
theorem meets_decide {ok : Decision × Transaction → Memory → List (Exchange self.role) → Prop}
    (h : self.Resumed history t asked said t')
    (decided : ∀ d t'' memory' said', self.Resumed history t asked said' t'' →
      ok (d, t'') memory' said')
    (failed : ∀ failure t'' memory' said', self.Resumed history t asked said' t'' →
      err failure memory' said') :
    (self.decide t').Meets (self.seeking t) ok err memory said := by
  rw [decide, Action.meets_bind]
  refine h.meets_transition ?_ ?_ ?_ ?_
  · exact fun time e takes => h.enters takes (by simp)
  · exact fun memory' said' h _ => decided _ _ memory' said' h
  · exact fun memory' said' _ repeats => absurd repeats Transaction.not_repeats_decision
  · exact fun failure memory' said' h _ => failed failure t' memory' said' h

theorem meets_collectAcknowledgements {message : DecisionMessage} {outstanding : ℕ}
    {awaited : List ProcessId} (h : self.Resumed history t asked said t')
    (about : message.transaction = t.id) (count : awaited.length = outstanding)
    (collected : ∀ t'' memory' said', self.Resumed history t asked said' t'' →
      ok t'' memory' said') :
    (self.collectAcknowledgements message outstanding awaited t').Meets (self.seeking t) ok err
      memory said := by
  refine meets_collectAcknowledgements_of
    (I := fun _ t'' _ said' => self.Resumed history t asked said' t'') count
    (fun t'' memory' said' h => collected t'' memory' said' h) ?_ h
  intro awaited t₁ memory₁ said₁ _ h
  refine meets_ask_hearing (.acknowledge about) fun reply? memory₂ _ => ?_
  have h := h.concat rfl rfl reply?
  refine ⟨fun _ => collected t₁ memory₂ _ h, fun reply _ => ⟨fun _ _ => h, fun _ => ?_⟩⟩
  refine h.meets_transition ?_ ?_ ?_ ?_
  · exact fun time e takes => h.enters takes (by simp)
  · exact fun memory' said' h _ => h
  · exact fun memory' said' h _ => h
  · exact fun failure memory' said' h _ => h

theorem meets_deliverRounds {message : DecisionMessage} {rounds round : ℕ}
    (h : self.Resumed history t (self.missing t) said t') (about : message.transaction = t.id)
    (delivered : ∀ t'' memory' said', self.Resumed history t (self.missing t) said' t'' →
      ok t'' memory' said') :
    (self.deliverRounds message rounds round t').Meets (self.seeking t) ok err memory said := by
  refine meets_deliverRounds_of
    (I := fun _ t'' _ said' => self.Resumed history t (self.missing t) said' t'') delivered
    (fun _ t'' memory' said' h _ => delivered t'' memory' said' h) ?_ ?_ h
  · exact fun _ t₁ time memory₁ said₁ h =>
      meets_ask_hearing .pause fun u memory₂ _ => h.concat rfl rfl u
  · intro _ t₁ memory₁ said₁ h _
    refine meets_ask_hearing (.send about) fun start memory₂ _ => ?_
    have h := h.concat rfl rfl start
    refine meets_within.2 ⟨fun _ => ?_, fun late =>
      .panic h.requested (.decision List.getLast?_concat late)⟩
    exact h.meets_collectAcknowledgements about rfl fun _ _ _ h => h

/-- A delivery asks for no vote. -/
theorem meets_deliver {d : Decision} {ok : Bool → Memory → List (Exchange self.role) → Prop}
    (h : self.Resumed history t (self.missing t) said t')
    (delivered : ∀ b t'' memory' said', self.Resumed history t (self.missing t) said' t'' →
      ok b memory' said') :
    (self.deliver t' d).Meets (self.seeking t) ok err memory said := by
  refine meets_deliver_of (h.meets_deliverRounds h.id ?_)
  intro t₁ memory₁ said₁ h
  refine ⟨fun _ => delivered false t₁ memory₁ said₁ h, fun _ =>
    ⟨fun _ => delivered true t₁ memory₁ said₁ h, fun _ => ?_⟩⟩
  refine h.meets_transition ?_ ?_ ?_ ?_
  · exact fun time e takes => h.enters takes (by simp)
  · exact fun memory' said' h _ => delivered true _ memory' said' h
  · exact fun memory' said' h _ => delivered true _ memory' said' h
  · exact fun failure memory' said' h _ => delivered false _ memory' said' h

end Resumed

/-- What a resumption has asked for when it ends. If it fails before it comes to ask, nothing. -/
theorem meets_resume_seeking (before : Transaction.replay history = .ok t)
    (undecided : t.decision = none)
    {ok : CommitOutcome → Memory → List (Exchange self.role) → Prop}
    {err : CommitError → Memory → List (Exchange self.role) → Prop}
    (resumed : ∀ outcome t' memory' said', self.Resumed history t (self.missing t) said' t' →
      ok outcome memory' said')
    (failed : ∀ failure t' memory' said', self.Resumed history t (self.missing t) said' t' →
      err failure memory' said')
    (unreached : ∀ failure t' memory' said', self.Resumed history t [] said' t' →
      self.Unreached said' failure → err failure memory' said') :
    (self.resume t).Meets (self.seeking t) ok err memory [] := by
  have wellFormed := Transaction.wellFormed_of_replay before
  have start : self.Resumed history t [] [] t := .start before
  refine meets_resume_of
    (I := fun t' _ said' => t' = t.record .preparing .none ∧
      self.Resumed history t [] said' t') ?_ ?_ ?_
  · intro started
    have preparing := (wellFormed.undecided.1 undecided).resolve_left started
    have same : t = t.record .preparing .none := by
      cases t
      simp_all [Transaction.record]
    exact ⟨same, start⟩
  · intro initial
    refine start.meets_transition ?_ ?_ ?_ ?_
    · exact fun time e takes => start.enters takes (by simp)
    · exact fun memory' said' h _ => ⟨rfl, h⟩
    · exact fun memory' said' _ repeats => absurd repeats Transaction.not_repeats_none
    · intro failure memory' said' h stored
      obtain ⟨e, cause, rfl, payload, refused⟩ := stored (.start initial)
      exact unreached _ t memory' said' h (.unstored payload refused)
  · rintro _ memory₁ said₁ ⟨rfl, h⟩
    rw [meets_deadlineAfter]
    refine meets_ask_hearing .now fun now memory₂ _ => ?_
    have h := h.concat rfl rfl now
    refine ⟨fun deadline _ => ?_, fun late => ?_⟩
    · refine meets_drive_of
        (I := fun _ t' _ said' => self.Resumed history t (self.missing t) said' t') ?_ ?_ ?_
      · intro d decided
        have decided : t.decision = some d := decided
        simp [undecided] at decided
      · intro _
        refine h.meets_prepare before ?_ failed
        exact fun t' memory' said' h _ => h.meets_decide (fun _ _ _ _ h => h) failed
      · exact fun d t' memory' said' h =>
          h.meets_deliver fun _ t'' memory'' said'' h => resumed _ t'' _ said'' h
    · exact unreached _ _ memory₂ _ h (.late (by simp) late)

/-! ## What was asked before -/

section Runs

variable {s : Scene self.role} {log log' : List Entry}

/-- Participants and operations stay as they are however far a transaction comes. -/
theorem Logged.agree (logged : self.Logged log t) (logged' : self.Logged log' t')
    (grown : log <+: log') (same : t'.id = t.id) :
    t'.participants = t.participants ∧ t'.operations = t.operations := by
  obtain ⟨e, he, begin⟩ := logged.summary.begun
  have he' : e ∈ Log.history log' self.id t'.id :=
    same ▸ (Log.history_prefix grown self.id t.id).subset he
  exact logged'.summary.agree begin he'

/-- Every transaction that is logged is as it was asked for by whoever began it. -/
theorem Logged.commissioned (logged : self.Logged s.log t) (sound : self.discipline.Sound s) :
    ∃ call, self.Drawn s.past call t.id ∧ self.Commissioned s.past call t := by
  obtain ⟨e, he, begin⟩ := logged.summary.begun
  obtain ⟨members, payload, -⟩ := begin.payload
  obtain ⟨mem, about, own⟩ := Log.mem_history_iff.1 he
  obtain ⟨before, call, log, sub, -, -, -, extends_⟩ := sound.asked_of_mem mem own
  have sub := (List.prefix_append _ _).trans sub
  refine ⟨call, ?_⟩
  cases extends_ with
  | begin drawn _ begins commissioned =>
    obtain ⟨participants, operations⟩ := (Transaction.ofBegin?_eq_some begins).1.agree begin
    refine ⟨(about ▸ drawn).mono sub, ?_⟩
    rw [Commissioned, participants, operations]
    exact commissioned.mono sub
  | advance _ apply _ _ =>
    obtain ⟨next, -, -, -, advances, -⟩ := Transaction.apply_eq_new_iff.1 apply
    rw [payload] at advances
    cases advances

/-- Whenever participants have been asked for their votes on a transaction, they were those whose
vote was not logged then, and the messages were those of today. -/
theorem Logged.requested_iff (logged : self.Logged s.log t) (sound : self.discipline.Sound s)
    {call : ℕ} {resuming : Bool} {messages : List (ProcessId × PrepareMessage)} {time : Duration}
    (asks : ⟨call, .asked (.inr (.requestVotes resuming messages time)), log⟩ ∈ s.past)
    (about : ∃ pm ∈ messages, pm.2.transaction = t.id) (pm : ProcessId × PrepareMessage) :
    pm ∈ messages ↔ pm.2 = self.prepareMessage t pm.1 ∧ t.participants.contains pm.1 = true ∧
      ∀ v, ¬self.VoteLogged log t.id pm.1 v := by
  obtain ⟨before, -, -, -, -, justified⟩ := sound.chronicle.justified asks
  obtain ⟨-, t₀, logged₀, -, -, rfl⟩ := justified
  obtain ⟨_, mem, about⟩ := about
  obtain ⟨p₀, -, rfl⟩ := List.mem_map.1 mem
  have same : t.id = t₀.id := about.symm
  obtain ⟨participants, operations⟩ := logged₀.agree logged (sound.grown _ asks) same
  have message : ∀ p, self.prepareMessage t₀ p = self.prepareMessage t p := fun p => by
    simp only [prepareMessage, Transaction.operationsFor, same, operations]
  have unvoted : ∀ p, t₀.votes.get? p = none ↔ ∀ v, ¬self.VoteLogged log t.id p v := fun p => by
    simp only [same, logged₀.vote_iff]
    cases t₀.votes.get? p <;> simp
  obtain ⟨p, m⟩ := pm
  simp only [List.mem_map, mem_pendingVotes_iff, Prod.mk.injEq, message, participants, unvoted]
  constructor
  · rintro ⟨_, ⟨member, unvoted⟩, rfl, rfl⟩
    exact ⟨rfl, member, unvoted⟩
  · rintro ⟨rfl, member, unvoted⟩
    exact ⟨p, ⟨member, unvoted⟩, rfl, rfl⟩

end Runs

/-- What has been stored leaves a transaction that has all the votes it had. -/
def KeepsVotes (history : List Entry) (t : Transaction) (said : List (Exchange self.role)) : Prop :=
  ∃ t', Transaction.replay (history ++ stored said) = .ok t' ∧
    ∀ p v, t.votes.get? p = some v → t'.votes.get? p = some v

theorem Resumed.keepsVotes (h : self.Resumed history t asked said t')
    (before : Transaction.replay history = .ok t) : KeepsVotes history t said :=
  ⟨t', h.replay, fun _ _ => h.votes before⟩

variable (self) in
/-- When an undecided transaction is resumed from any history, and whatever the coordinator is told,
it asks for exactly the votes that are not entered, or for none if those entered determine the
decision; it asks nobody if it fails before, as the start could not be stored or its deadline could
not be reckoned. A vote is entered only if it was missing and has been heard, and those entered
before remain. Whoever is asked is first asked for the vote it has logged, and is sent PREPARE only
if it has logged none. In every run the transaction is as it was asked for by the call that began
it, and whenever participants were asked for their votes they were those whose vote was not logged
then, and the messages were the same. -/
theorem resume_asks_for_what_is_missing (replay : Transaction.replay history = .ok t)
    (undecided : t.decision = none) :
    (∀ memory, (self.resume t).Meets (self.seeking t)
      (fun _ _ said => requested said = self.missing t ∧ KeepsVotes history t said)
      (fun failure _ said => (requested said = self.missing t ∨
        requested said = [] ∧ self.Unreached said failure) ∧ KeepsVotes history t said) memory []) ∧
    (∀ p message, ∃ next, (Transport.ballot true p message).run =
        .ask (I := Transport) ⟨p, .queryVote message.transaction⟩ next ∧
      ∀ reply answers q, (next reply).Reaches answers q ↔
        reply = .ok none ∧ q = ⟨p, .prepare message⟩) ∧
    ∀ n, self.Reachable n → self.Logged n.log t →
      (∃ call timeout log, self.Drawn n.past call t.id ∧
        ⟨call, .started (.begin t.participants t.operations timeout), log⟩ ∈ n.past) ∧
      ∀ call resuming messages time log,
        ⟨call, .asked (.inr (.requestVotes resuming messages time)), log⟩ ∈ n.past →
        (∃ pm ∈ messages, pm.2.transaction = t.id) →
        ∀ pm, pm ∈ messages ↔ pm.2 = self.prepareMessage t pm.1 ∧
          t.participants.contains pm.1 = true ∧ ∀ v, ¬self.VoteLogged log t.id pm.1 v := by
  refine ⟨fun memory => ?_, Transport.ballot_asks_first, fun n reachable logged => ?_⟩
  · refine meets_resume_seeking replay undecided ?_ ?_ ?_
    · exact fun _ t' _ said h => ⟨h.requested, h.keepsVotes replay⟩
    · exact fun _ t' _ said h => ⟨.inl h.requested, h.keepsVotes replay⟩
    · exact fun _ t' _ said h failure => ⟨.inr ⟨h.requested, failure⟩, h.keepsVotes replay⟩
  · have sound := reachable.holds.toSound
    obtain ⟨call, drawn, timeout, log, started⟩ := logged.commissioned sound
    exact ⟨⟨call, timeout, log, drawn, started⟩, fun call resuming messages time log =>
      logged.requested_iff sound⟩

/-! ## A transaction of which one vote is missing -/

section Pair

/-- What one of two participants is to do. -/
def errand : Assignment := SortedMap.insert ∅ partner [default]

/-- A transaction of two is to begin and waits for its identifier. -/
def pairDrawingRun : Node (default : Coordinator).role :=
  Node.begins { outside := sending default } {} 0
    (.begin (SortedSet.ofList [party, partner]) errand .zero)

/-- Both are asked for their votes. -/
def pairVotingRun : Node (default : Coordinator).role :=
  pairDrawingRun.resumes (drawing default deal) { outside := sending default } 0

/-- One of them votes to commit. -/
def pairVotedRun : Node (default : Coordinator).role :=
  pairVotingRun.resumes (voting default deal party .yes) { outside := sending default } 0

theorem reachable_pairVotedRun : (default : Coordinator).Reachable pairVotedRun := by
  have alone : pairDrawingRun.Alone 0 := Node.alone_begins fun _ _ => rfl
  have drawing : (default : Coordinator).Reachable pairDrawingRun :=
    attains.begins _ .initial (fun _ _ => rfl) (fun _ hm => nomatch hm)
      (allows_of_alone (fun _ _ => rfl) nofun)
  have voting : (default : Coordinator).Reachable pairVotingRun :=
    attains.resumes _ drawing alone fun op q a => allows_drawing alone (by decide +kernel)
  exact attains.resumes _ voting (Node.alone_resumes alone) fun op q a =>
    allows_other (Node.alone_resumes alone) rfl

/-- Only the other is asked when that is resumed, and for the same as before. -/
theorem resume_asks_for_what_is_missing_pairVotedRun :
    (default : Coordinator).Reachable pairVotedRun ∧
    (default : Coordinator).VoteLogged pairVotedRun.log deal party .yes ∧
    ∃ t, (default : Coordinator).Logged pairVotedRun.log t ∧ t.decision = none ∧
      ∀ memory, ((default : Coordinator).resume t).Meets ((default : Coordinator).seeking t)
        (fun _ _ said =>
          requested said = [(true, partner, ⟨deal, (default : Coordinator).id, [default]⟩)])
        (fun failure _ said =>
          requested said = [(true, partner, ⟨deal, (default : Coordinator).id, [default]⟩)] ∨
            requested said = [] ∧ (default : Coordinator).Unreached said failure) memory [] := by
  have reads : (Transaction.replay (Log.history pairVotedRun.log (default : Coordinator).id
      deal)).toOption.map (fun t => (t.id, t.decision, (default : Coordinator).missing t)) =
      some (deal, none, [(true, partner, ⟨deal, (default : Coordinator).id, [default]⟩)]) := by
    decide +kernel
  cases replay : Transaction.replay (Log.history pairVotedRun.log (default : Coordinator).id deal)
    with
  | error failure => simp [replay, Except.toOption] at reads
  | ok t =>
    obtain ⟨about, undecided, missing⟩ :
        t.id = deal ∧ t.decision = none ∧ (default : Coordinator).missing t = _ := by
      simpa [replay, Except.toOption] using reads
    obtain ⟨resumes, -, -⟩ := resume_asks_for_what_is_missing default replay undecided
    refine ⟨reachable_pairVotedRun, by decide +kernel, t, ?_, undecided, fun memory => ?_⟩
    · rwa [Logged, about]
    rw [missing] at resumes
    exact (resumes memory).mono (fun _ _ _ h => h.1) fun _ _ _ h => h.1

end Pair

end Coordinator

end AtomicCommit
