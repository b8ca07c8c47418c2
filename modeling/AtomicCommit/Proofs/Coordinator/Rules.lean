import AtomicCommit.Proofs.Coordinator.Transition

/-!
# Rules for a drive

What is to be shown of the parts of a drive, and of what lasts from one part to the next, for the
drive to meet a contract, whichever that is. Only these rules depend on how a drive is put together.

## Main results

* `Coordinator.meets_collectVotes_by`, `Coordinator.meets_collectVotes_of`,
  `Coordinator.meets_collectAcknowledgements_of`, `Coordinator.meets_deliverRounds_of`: rules for
  the loops.
* `Coordinator.meets_within`: the rule for a time to wait.
* `Coordinator.meets_prepare_of`, `Coordinator.meets_deliver_of`, `Coordinator.meets_drive_of`,
  `Coordinator.meets_resume_of`, `Coordinator.meets_begin_of`: rules for what is made of them.
-/

namespace AtomicCommit.Coordinator

variable {self : Coordinator} {W : Type} {c : Contract (interface.sharing Memory) W}
  {t : Transaction} {ok : Transaction → Memory → W → Prop} {err : CommitError → Memory → W → Prop}
  {memory : Memory} {w : W}

/-! ## Who is awaited -/

/-- Who is awaited takes part and has no vote recorded. -/
structure AwaitsVotes (t : Transaction) (awaited : List ProcessId) : Prop where
  /-- Nobody is awaited twice. -/
  nodup : awaited.Nodup
  /-- They take part. -/
  member : ∀ p ∈ awaited, t.participants.contains p = true
  /-- They have not voted. -/
  pending : ∀ p ∈ awaited, t.votes.get? p = none

theorem awaitsVotes_pending (t : Transaction) : AwaitsVotes t t.pendingVotes := by
  constructor
  · exact t.participants.nodup_keys.filter _
  · exact fun p hp => SortedSet.mem_toList_iff.1 (List.mem_filter.1 hp).1
  · intro p hp
    have absent := (List.mem_filter.1 hp).2
    simpa [SortedMap.contains] using absent

/-- Once one has voted the others are awaited. -/
theorem AwaitsVotes.record {awaited : List ProcessId} {p : ProcessId} {v : Vote}
    {next : CoordinatorState} (h : AwaitsVotes t awaited) :
    AwaitsVotes (t.record next (.vote p v)) (awaited.erase p) := by
  constructor
  · exact h.nodup.erase p
  · exact fun q hq => h.member q (List.mem_of_mem_erase hq)
  · intro q hq
    obtain ⟨ne, hq⟩ := h.nodup.mem_erase_iff.1 hq
    rw [Transaction.record, SortedMap.get?_insert, if_neg ne]
    exact h.pending q hq

/-- Who is awaited takes part and has not acknowledged. -/
structure AwaitsAcknowledgements (t : Transaction) (awaited : List ProcessId) : Prop where
  /-- Nobody is awaited twice. -/
  nodup : awaited.Nodup
  /-- They take part and have not acknowledged. -/
  pending : ∀ p ∈ awaited, t.participants.contains p = true ∧ t.acknowledged.contains p = false

theorem awaitsAcknowledgements_unacknowledged (t : Transaction) :
    AwaitsAcknowledgements t t.unacknowledged where
  nodup := t.participants.nodup_keys.filter _
  pending p hp := by
    simpa [Transaction.unacknowledged, SortedSet.mem_toList_iff] using hp

/-- Who has been heard is awaited no more, whatever has come of it. -/
theorem AwaitsAcknowledgements.erase {awaited : List ProcessId} {p : ProcessId}
    (h : AwaitsAcknowledgements t awaited) : AwaitsAcknowledgements t (awaited.erase p) where
  nodup := h.nodup.erase p
  pending q hq := h.pending q (List.mem_of_mem_erase hq)

/-- Once one has acknowledged the others are awaited. -/
theorem AwaitsAcknowledgements.record {awaited : List ProcessId} {p : ProcessId}
    {next : CoordinatorState} (h : AwaitsAcknowledgements t awaited) :
    AwaitsAcknowledgements (t.record next (.acknowledged p)) (awaited.erase p) where
  nodup := h.nodup.erase p
  pending q hq := by
    obtain ⟨ne, hq⟩ := h.nodup.mem_erase_iff.1 hq
    rw [Transaction.record, SortedSet.contains_insert]
    simpa [ne] using h.pending q hq

/-- Who has everybody's acknowledgement may end. -/
theorem advances_done (wellFormed : t.WellFormed) (unfinished : t.state ≠ .done)
    (decided : t.decision ≠ none) (all : t.unacknowledged = []) : t.Advances .done .none := by
  obtain ⟨d, decision⟩ := Option.ne_none_iff_exists'.1 decided
  refine .finish ?_ ?_
  · rcases wellFormed.deciding d decision with state | state
    · cases d
      · exact .inl state
      · exact .inr state
    · exact absurd state unfinished
  · congr 1
    refine SortedSet.eq_of_contains_eq fun p => ?_
    rw [Bool.eq_iff_iff]
    refine ⟨wellFormed.acknowledgers p, fun member => ?_⟩
    simpa using List.filter_eq_nil_iff.1 all p (SortedSet.mem_toList_iff.2 member)

/-! ## Rules -/

/-- A wait whose end the clock can tell goes on; of any other nothing comes but a panic. -/
theorem meets_within {ε : Type} {time : Duration} {now : Instant} {ok : Unit → Memory → W → Prop}
    {err : ε → Memory → W → Prop} :
    (within time now : Action interface Memory ε Unit).Meets c ok err memory w ↔
      (now.add? time ≠ none → ok () memory w) ∧
        (now.add? time = none → c.asks w (.inr .panic, memory)) := by
  rw [within]
  cases now.add? time with
  | some _ => simp
  | none =>
    simp only [panic, Action.meets_bind, ne_eq, not_true_eq_false,
      IsEmpty.forall_iff, forall_const, true_and]
    exact ⟨And.left, fun asks => ⟨asks, nofun⟩⟩

/-- The last that was said is that calls are out, and the time at which a coordinator would cease to
wait for their replies is beyond what its clock can tell. -/
inductive Overdue (said : List (Exchange self.role)) : Prop where
  /-- The calls are for votes. -/
  | votes {resuming : Bool} {messages : List (ProcessId × PrepareMessage)} {time : Duration}
      {start : Instant}
      (last : said.getLast? = some ⟨.inr (.requestVotes resuming messages time), start⟩)
      (late : start.add? time = none)
  /-- They tell a decision. -/
  | decision {message : DecisionMessage} {participants : List ProcessId} {time : Duration}
      {start : Instant}
      (last : said.getLast? = some ⟨.inr (.sendDecision message participants time), start⟩)
      (late : start.add? time = none)

/-- Votes are collected until there are enough, one fails to come, or one refuses. -/
theorem meets_collectVotes_by {I : ℕ → List ProcessId → Transaction → Memory → W → Prop}
    {outstanding : ℕ} {awaited : List ProcessId}
    (enough : ∀ awaited t memory w, I 0 awaited t memory w → ok t memory w)
    (awaits : ∀ outstanding awaited t memory w, I (outstanding + 1) awaited t memory w →
      (awaitVote t.id awaited : Step (Option (Reply awaited Vote))).Meets c
        (fun reply? memory w => (reply? = none → ok t memory w) ∧ ∀ reply, reply? = some reply →
          (∀ failure, reply.result = .error failure → ok t memory w) ∧
          ∀ vote, reply.result = .ok vote →
            (self.transition t .preparing (.vote reply.sender vote)).Meets c
              (fun t' memory w => (vote = .no → ok t' memory w) ∧
                (vote ≠ .no → I outstanding (awaited.erase reply.sender) t' memory w))
              err memory w) err memory w)
    (holds : I outstanding awaited t memory w) :
    (self.collectVotes outstanding awaited t).Meets c ok err memory w := by
  induction outstanding generalizing awaited t memory w with
  | zero => exact enough awaited t memory w holds
  | succ outstanding ih =>
    rw [collectVotes, Action.meets_bind]
    refine (awaits outstanding awaited t memory w holds).imp_ok ?_
    rintro reply? memory₁ w₁ ⟨missing, replied⟩
    cases reply? with
    | none => exact missing rfl
    | some reply =>
      obtain ⟨failed, voted⟩ := replied reply rfl
      dsimp only
      cases said : reply.result with
      | error failure => exact failed failure said
      | ok vote =>
        dsimp only
        rw [Action.meets_bind]
        refine (voted vote said).imp_ok ?_
        rintro t' memory₂ w₂ ⟨refused, assented⟩
        split
        · rename_i no
          exact refused no
        · rename_i yes
          exact ih (assented yes)

/-- Votes are collected as long as what holds of those who are awaited lasts: while one is awaited,
and when one is recorded. -/
theorem meets_collectVotes_of {I : List ProcessId → Transaction → Memory → W → Prop}
    {outstanding : ℕ} {awaited : List ProcessId}
    (collected : ∀ awaited t memory w, I awaited t memory w → ok t memory w)
    (awaits : ∀ awaited t memory w, I awaited t memory w →
      (awaitVote t.id awaited : Step (Option (Reply awaited Vote))).Meets c
        (fun reply? memory w => I awaited t memory w ∧ ∀ reply vote, reply? = some reply →
          reply.result = .ok vote →
          (self.transition t .preparing (.vote reply.sender vote)).Meets c
            (I (awaited.erase reply.sender)) err memory w) err memory w)
    (holds : I awaited t memory w) :
    (self.collectVotes outstanding awaited t).Meets c ok err memory w := by
  refine meets_collectVotes_by (I := fun _ => I) collected ?_ holds
  intro _ awaited t memory w holds
  refine (awaits awaited t memory w holds).imp_ok ?_
  rintro reply? memory₁ w₁ ⟨holds, records⟩
  refine ⟨fun _ => collected awaited t memory₁ w₁ holds, fun reply replied =>
    ⟨fun _ _ => collected awaited t memory₁ w₁ holds, fun vote said => ?_⟩⟩
  refine (records reply vote replied said).imp_ok ?_
  exact fun t' memory₂ w₂ holds => ⟨fun _ => collected _ t' memory₂ w₂ holds, fun _ => holds⟩

/-- Participants are asked for the votes that are missing, unless the decision is determined. -/
theorem meets_prepare_of {deadline : Timestamp} {resuming : Bool}
    (known : t.tally ≠ none → ok t memory w)
    (asks : t.tally = none → (Host.now : Step Timestamp).Meets c
      (fun now => (requestVotes resuming (t.pendingVotes.map fun p => (p, self.prepareMessage t p))
          (Timestamp.remaining now deadline) : Step Instant).Meets c
        (fun start => (within (Timestamp.remaining now deadline) start : Step Unit).Meets c
          (fun _ => (self.collectVotes t.pendingVotes.length t.pendingVotes t).Meets c ok err) err)
        err) err memory w) :
    (self.prepare t deadline resuming).Meets c ok err memory w := by
  rw [prepare]
  split
  · rename_i determined
    exact known (Option.isSome_iff_ne_none.1 determined)
  · rename_i open_
    rw [Action.meets_bind]
    refine (asks (by simpa using open_)).imp_ok fun now memory₁ w₁ requests => ?_
    rw [Action.meets_bind]
    refine requests.imp_ok fun start memory₂ w₂ waits => ?_
    rw [Action.meets_bind]
    exact waits

/-- Acknowledgements are collected until nobody is awaited or one fails to come. -/
theorem meets_collectAcknowledgements_of {message : DecisionMessage}
    {I : List ProcessId → Transaction → Memory → W → Prop} {outstanding : ℕ}
    {awaited : List ProcessId} (count : awaited.length = outstanding)
    (collected : ∀ t memory w, I [] t memory w → ok t memory w)
    (awaits : ∀ awaited t memory w, awaited ≠ [] → I awaited t memory w →
      (awaitAcknowledgement message awaited : Step (Option (Reply awaited Unit))).Meets c
        (fun reply? memory w => (reply? = none → ok t memory w) ∧
          ∀ reply, reply? = some reply →
            (∀ failure, reply.result = .error failure →
              I (awaited.erase reply.sender) t memory w) ∧
            (reply.result = .ok () →
              (self.transition t t.state (.acknowledged reply.sender)).Meets c
                (I (awaited.erase reply.sender)) (fun _ => I (awaited.erase reply.sender) t)
                memory w)) err memory w)
    (holds : I awaited t memory w) :
    (self.collectAcknowledgements message outstanding awaited t).Meets c ok err memory w := by
  induction outstanding generalizing awaited t memory w with
  | zero =>
    obtain rfl := List.eq_nil_of_length_eq_zero count
    exact collected t memory w holds
  | succ outstanding ih =>
    have nonempty : awaited ≠ [] := List.ne_nil_of_length_eq_add_one count
    rw [collectAcknowledgements, Action.meets_bind]
    refine (awaits awaited t memory w nonempty holds).imp_ok ?_
    rintro reply? memory₁ w₁ ⟨missing, replied⟩
    cases reply? with
    | none => exact missing rfl
    | some reply =>
      obtain ⟨failed, acknowledged⟩ := replied reply rfl
      have fewer : (awaited.erase reply.sender).length = outstanding := by
        rw [List.length_erase_of_mem reply.sender_mem, count]
        rfl
      dsimp only
      cases said : reply.result with
      | error failure => exact ih fewer (failed failure said)
      | ok u =>
        dsimp only
        rw [Action.meets_bind, Action.meets_orValue]
        exact (acknowledged said).mono (fun _ _ _ holds => ih fewer holds)
          fun _ _ _ holds => ih fewer holds

/-- A decision is sent round after round, with as many still to come as are left. -/
theorem meets_deliverRounds_of {message : DecisionMessage}
    {I : ℕ → Transaction → Memory → W → Prop} {rounds round : ℕ}
    (spent : ∀ t memory w, I 0 t memory w → ok t memory w)
    (complete : ∀ rounds t memory w, I (rounds + 1) t memory w → t.unacknowledged = [] →
      ok t memory w)
    (pauses : ∀ rounds t time memory w, I (rounds + 1) t memory w →
      (pause time : Step Unit).Meets c (fun _ => I (rounds + 1) t) err memory w)
    (sends : ∀ rounds t memory w, I (rounds + 1) t memory w → t.unacknowledged ≠ [] →
      (sendDecision message t.unacknowledged self.config.ackTimeout : Step Instant).Meets c
        (fun start => (within self.config.ackTimeout start : Step Unit).Meets c
          (fun _ => (self.collectAcknowledgements message t.unacknowledged.length t.unacknowledged
            t).Meets c (I rounds) err) err) err memory w)
    (holds : I rounds t memory w) :
    (self.deliverRounds message rounds round t).Meets c ok err memory w := by
  induction rounds generalizing round t memory w with
  | zero => exact spent t memory w holds
  | succ rounds ih =>
    rw [deliverRounds]
    split
    · rename_i none
      exact complete rounds t memory w holds (List.isEmpty_iff.1 none)
    · rename_i some
      have unacknowledged : t.unacknowledged ≠ [] := by simpa using some
      -- one round, once any pause is over
      have goesOn : ∀ memory' w', I (rounds + 1) t memory' w' →
          (do
            within self.config.ackTimeout
              (← sendDecision message t.unacknowledged self.config.ackTimeout)
            let t ← self.collectAcknowledgements message t.unacknowledged.length t.unacknowledged t
            self.deliverRounds message rounds (round + 1) t : Step Transaction).Meets c ok err
            memory' w' := by
        intro memory' w' holds
        rw [Action.meets_bind]
        refine (sends rounds t memory' w' holds unacknowledged).imp_ok ?_
        intro start memory₁ w₁ waits
        rw [Action.meets_bind]
        refine waits.imp_ok fun _ memory₂ w₂ collects => ?_
        rw [Action.meets_bind]
        exact collects.imp_ok fun _ _ _ holds => ih holds
      dsimp only
      split
      · rw [Action.meets_bind]
        exact (pauses rounds t _ memory w holds).imp_ok fun _ => goesOn
      · exact goesOn memory w holds

/-- A decision is delivered, and if everybody has acknowledged it the transaction is ended. -/
theorem meets_deliver_of {d : Decision} {ok : Bool → Memory → W → Prop}
    (rounds : (self.deliverRounds { transaction := t.id, decision := d }
      self.config.retry.maxAttempts 0 t).Meets c
        (fun t' memory w => (t'.unacknowledged ≠ [] → ok false memory w) ∧
          (t'.unacknowledged = [] →
            (t'.state = .done → ok true memory w) ∧
            (t'.state ≠ .done → (self.transition t' .done .none).Meets c (fun _ => ok true)
              (fun _ => ok false) memory w))) err memory w) :
    (self.deliver t d).Meets c ok err memory w := by
  rw [deliver, Action.meets_bind]
  refine rounds.imp_ok ?_
  rintro t' memory' w' ⟨missing, complete⟩
  dsimp only
  split
  · rename_i some
    exact missing (by simpa using some)
  rename_i none
  obtain ⟨ended, ends⟩ := complete (by simpa using none)
  split
  · rename_i done
    exact ended done
  · rename_i unfinished
    rw [Action.meets_orValue, Action.meets_bind, Action.meets_discard]
    exact ends unfinished

/-- A transaction is decided if it is not, and what has been decided is delivered. -/
theorem meets_drive_of {I : Decision → Transaction → Memory → W → Prop} {deadline : Timestamp}
    {resuming : Bool} {ok : CommitOutcome → Memory → W → Prop}
    (decided : ∀ d, t.decision = some d → I d t memory w)
    (decides : t.decision = none →
      (self.prepare t deadline resuming).Meets c
        (fun t' => (self.decide t').Meets c (fun dt => I dt.1 dt.2) err) err memory w)
    (delivers : ∀ d t' memory' w', I d t' memory' w' →
      (self.deliver t' d).Meets c
        (fun acknowledged memory => ok
          { transaction := t'.id, outcome := d.outcome, fullyAcknowledged := acknowledged }
          (if acknowledged then memory.erase t'.id else memory)) err memory' w') :
    (self.drive t deadline resuming).Meets c ok err memory w := by
  have goesOn : ∀ d t' memory' w', I d t' memory' w' →
      (do
        let fullyAcknowledged ← self.deliver t' d
        if fullyAcknowledged then modify fun memory => memory.erase t'.id
        return { transaction := t'.id, outcome := d.outcome, fullyAcknowledged } :
          Step CommitOutcome).Meets c ok err memory' w' := by
    intro d t' memory' w' holds
    rw [Action.meets_bind]
    refine (delivers d t' memory' w' holds).imp_ok ?_
    intro acknowledged memory'' w'' ends
    cases acknowledged <;> exact ends
  rw [drive]
  cases decision : t.decision with
  | some d => exact goesOn d t memory w (decided d decision)
  | none =>
    dsimp only
    rw [Action.meets_bind]
    refine (decides decision).imp_ok ?_
    intro t' memory₁ w₁ decides
    rw [Action.meets_bind]
    exact decides.imp_ok fun dt => goesOn dt.1 dt.2

theorem meets_deadlineAfter {time : Duration} {ok : Timestamp → Memory → W → Prop} :
    (deadlineAfter time).Meets c ok err memory w ↔
      (Host.now : Step Timestamp).Meets c
        (fun now memory w => (∀ deadline, now.add? time = some deadline → ok deadline memory w) ∧
          (now.add? time = none → err (.invalidRequest (.timeoutRange time)) memory w)) err
        memory w := by
  rw [deadlineAfter, Action.meets_bind]
  refine iff_of_eq (congrArg (Action.Meets c _ · err memory w) ?_)
  funext now memory w
  cases now.add? time <;> simp

/-- A transaction is started if it has not been, and driven on. -/
theorem meets_resume_of {I : Transaction → Memory → W → Prop}
    {ok : CommitOutcome → Memory → W → Prop}
    (started : t.state ≠ .init → I t memory w)
    (starts : t.state = .init → (self.transition t .preparing .none).Meets c I err memory w)
    (drives : ∀ t' memory' w', I t' memory' w' →
      (deadlineAfter self.config.prepareTimeout).Meets c
        (fun deadline => (self.drive t' deadline true).Meets c ok err) err memory' w') :
    (self.resume t).Meets c ok err memory w := by
  have goesOn : ∀ t' memory' w', I t' memory' w' →
      (do
        let deadline ← deadlineAfter self.config.prepareTimeout
        self.drive t' deadline true : Step CommitOutcome).Meets c ok err memory' w' := by
    intro t' memory' w' holds
    rw [Action.meets_bind]
    exact drives t' memory' w' holds
  rw [resume]
  split
  · rename_i init
    rw [Action.meets_bind]
    exact (starts init).imp_ok fun t' => goesOn t'
  · rename_i unstarted
    exact goesOn t memory w (started unstarted)

/-- An entry begins a transaction. -/
structure Opens (c : Coordinator) (t : Transaction) (e : Entry) : Prop where
  /-- The coordinator appends it. -/
  actor : e.actor = c.id
  /-- It is about the transaction. -/
  transaction : e.transaction = t.id
  /-- It says who takes part. -/
  payload : ∃ participants operations deadline, e.payload = .begin participants operations deadline
  /-- It is what the transaction is read from. -/
  begins : Transaction.ofBegin? e = some t
  /-- The transaction has only been begun. -/
  init : t.state = .init

/-- A request makes no sense, whatever the time. -/
inductive Misconceived (participants : SortedSet ProcessId) (operations : Assignment) :
    RequestError → Prop where
  /-- Nobody takes part. -/
  | empty (none : participants.isEmpty = true) :
      Misconceived participants operations .noParticipants
  /-- There is work for a process that takes no part. -/
  | stranger {p : ProcessId} (given : operations.contains p = true)
      (outside : participants.contains p = false) :
      Misconceived participants operations (.stranger p)

/-- A request is refused, or a transaction is logged under a new identifier and driven. -/
theorem meets_begin_of {participants : SortedSet ProcessId} {operations : Assignment}
    {timeout : Duration} {ok : CommitOutcome → Memory → W → Prop}
    (refused : ∀ request, Misconceived participants operations request →
      err (.invalidRequest request) memory w)
    (reads : (∀ request, ¬Misconceived participants operations request) →
      (Host.now : Step Timestamp).Meets c
      (fun now memory w =>
        (now.add? timeout = none → err (.invalidRequest (.timeoutRange timeout)) memory w) ∧
        ∀ deadline, now.add? timeout = some deadline →
          (freshId : Step TransactionId).Meets c
            (fun id memory w => ∀ t e, t.id = id → t.participants = participants →
              t.operations = operations → self.Opens t e →
              (Host.append e : Action interface Memory LogError Unit).Meets c
                (fun _ memory => (self.transition t .preparing .none).Meets c
                  (fun t' => (self.drive t' deadline false).Meets c ok err) err
                  (memory.insert t.id t))
                (fun failure => err (.log failure)) memory w) err memory w) err memory w) :
    (self.begin participants operations timeout).Meets c ok err memory w := by
  rw [begin]
  split
  · rename_i none
    exact refused _ (.empty none)
  rename_i some
  dsimp only
  split
  · rename_i p found
    have outside : participants.contains p = false := by
      simpa using List.find?_some found
    exact refused _ (.stranger (SortedMap.mem_keys_iff.1 (List.mem_of_find?_eq_some found)) outside)
  rename_i inside
  have sensible : ∀ request, ¬Misconceived participants operations request := by
    rintro request (none | ⟨given, outside⟩)
    · exact some none
    · have within := List.find?_eq_none.1 inside _ (SortedMap.mem_keys_iff.2 given)
      simp [outside] at within
  rw [Action.meets_bind]
  refine (reads sensible).imp_ok ?_
  rintro now memory₁ w₁ ⟨late, draws⟩
  split
  · rename_i unrepresentable
    exact late unrepresentable
  rename_i deadline representable
  rw [Action.meets_bind]
  refine (draws deadline representable).imp_ok ?_
  intro id memory₂ w₂ appends
  have opens : self.Opens { id, participants, operations, createdAt := now, deadline }
      { transaction := id, actor := self.id, previous := none, state := .init,
        payload := .begin participants.toList operations deadline, time := now } := by
    refine ⟨rfl, rfl, ⟨_, _, _, rfl⟩, ?_, rfl⟩
    simp only [Transaction.ofBegin?, SortedSet.ofList_toList]
  rw [Action.meets_bind, Action.meets_mapError]
  refine (appends _ _ rfl rfl rfl opens).imp_ok ?_
  intro _ memory₃ w₃ starts
  rwa [Action.meets_bind, Action.meets_modify, Action.meets_bind]

end AtomicCommit.Coordinator
