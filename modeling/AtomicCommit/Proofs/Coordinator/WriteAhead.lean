import AtomicCommit.Proofs.Coordinator.Smooth

/-!
# Entries before messages

A coordinator logs before it speaks: the start of a transaction before anybody is asked to vote, and
a decision before anybody is told. So an unknown transaction may be presumed aborted: nobody has
been asked to vote on it. A call that fails to store what a message would rest on does not send it.

## Main results

* `Coordinator.log_precedes_messages`: the entries that a message rests on are there before it.
-/

namespace AtomicCommit

/-- Whether an entry begins a transaction or opens the collection of its votes. -/
def Entry.Opens (e : Entry) : Prop :=
  (∃ members operations deadline, e.payload = .begin members operations deadline) ∨
    e.state = .preparing ∧ e.payload = .none

/-- Whether an entry is a vote or a decision. -/
def Entry.Decides (e : Entry) : Prop :=
  (∃ p v, e.payload = .vote p v) ∨ ∃ d, e.payload = .decision d

namespace Entry

theorem Opens.isVital {e : Entry} (h : e.Opens) : e.isVital = true := by
  rcases h with ⟨members, operations, deadline, payload⟩ | ⟨state, payload⟩
  · simp [Entry.isVital, payload]
  · simp [Entry.isVital, payload, state]

theorem Decides.isVital {e : Entry} (h : e.Decides) : e.isVital = true := by
  rcases h with ⟨p, v, payload⟩ | ⟨d, payload⟩ <;> simp [Entry.isVital, payload]

end Entry

namespace Coordinator

variable {self : Coordinator}

variable (self) in
/-- A participant is sent anything about a transaction. -/
def Messages (m : Moment self.role) (tx : TransactionId) : Prop :=
  self.AsksVote m tx ∨ ∃ d, self.SendsDecision m tx d

variable (self) in
/-- An entry fails to be stored. -/
def FailsToStore (m : Moment self.role) (e : Entry) : Prop :=
  ∃ failure, m.event = .answered (.inl (.append e)) (.error failure)

variable (self) in
/-- A call begins a transaction. -/
def Begins (past : List (Moment self.role)) (call : ℕ) : Prop :=
  ∃ participants operations timeout log,
    ⟨call, .started (.begin participants operations timeout), log⟩ ∈ past

/-! ## Messages rest on entries -/

section Moments

variable {past : List (Moment self.role)} {m : Moment self.role} {tx : TransactionId}

theorem AsksVote.precedes (h : self.AsksVote m tx) (justified : self.discipline.Justified past m) :
    self.BeginLogged m.log tx ∧ self.PreparingLogged m.log tx := by
  obtain ⟨t, rfl, logged, preparing⟩ := h.logged justified
  exact ⟨logged.begin, logged.preparing_iff.2 (by simp [preparing])⟩

theorem SendsDecision.precedes {d : Decision} (h : self.SendsDecision m tx d)
    (justified : self.discipline.Justified past m) : self.DecisionLogged m.log tx d := by
  obtain ⟨t, rfl, logged, decided⟩ := h.logged justified
  exact logged.decision_iff.2 decided

theorem AnswersQuery.precedes {d : Decision} (h : self.AnswersQuery m tx (some d))
    (begun : self.BeginLogged m.log tx) (justified : self.discipline.Justified past m) :
    self.DecisionLogged m.log tx d := by
  rcases h.logged justified with ⟨empty, -⟩ | ⟨t, rfl, logged, decided⟩
  · exact absurd empty begun.history_ne_nil
  · exact logged.decision_iff.2 decided.symm

/-- A transaction of which anything was sent has got beyond INIT. -/
theorem Messages.preparingLogged (h : self.Messages m tx)
    (justified : self.discipline.Justified past m) : self.PreparingLogged m.log tx := by
  rcases h with h | ⟨d, h⟩
  · exact (h.precedes justified).2
  · obtain ⟨t, rfl, logged, decided⟩ := h.logged justified
    refine logged.preparing_iff.2 fun init => ?_
    have undecided := logged.wellFormed.undecided.2 (.inl init)
    simp [undecided] at decided

end Moments

/-! ## What is still appended has not been spoken of -/

section Extends

variable {past : List (Moment self.role)} {log : List Entry} {call : ℕ} {e : Entry}

/-- An entry that opens a transaction is new to a log that has it at most in INIT. -/
theorem Extends.not_preparingLogged (h : self.Extends past log call e) (opens : e.Opens) :
    ¬self.PreparingLogged log e.transaction := by
  cases h with
  | begin _ fresh _ _ =>
    rintro ⟨e', he', -⟩
    simp [fresh] at he'
  | @advance t t' logged apply vote acknowledged =>
    obtain ⟨next, about, -, state, advances, -⟩ := Transaction.apply_eq_new_iff.1 apply
    rw [about, logged.preparing_iff, not_not]
    rcases opens with ⟨members, operations, deadline, payload⟩ | ⟨preparing, payload⟩
    · rw [payload] at advances
      cases advances
    · rw [payload] at advances
      cases advances with
      | start init => exact init
      | finish _ _ =>
        rw [preparing] at state
        cases state

/-- An entry that decides a transaction is new to a log that has it undecided. -/
theorem Extends.not_decisionLogged (h : self.Extends past log call e) (decides : e.Decides)
    (d : Decision) : ¬self.DecisionLogged log e.transaction d := by
  cases h with
  | begin _ fresh _ _ =>
    rintro ⟨e', he', -⟩
    simp [fresh] at he'
  | @advance t t' logged apply vote acknowledged =>
    obtain ⟨next, about, -, state, advances, -⟩ := Transaction.apply_eq_new_iff.1 apply
    have preparing : t.state = .preparing := by
      rcases decides with ⟨p, v, payload⟩ | ⟨d, payload⟩
      · rw [payload] at advances
        cases advances with
        | vote _ preparing _ _ => exact preparing
      · rw [payload] at advances
        cases advances with
        | decision preparing _ _ => exact preparing
    rw [about, logged.decision_iff, logged.wellFormed.undecided.2 (.inr preparing)]
    simp

end Extends

/-! ## Calls that fail -/

variable {past : List (Moment self.role)}

/-- After a failure to store a vital entry a call asks nothing more. -/
theorem silent_after_failure (h : self.discipline.Chronicle past) :
    past.Pairwise fun m m' => ∀ e q, self.FailsToStore m e → e.isVital = true →
      m'.call = m.call → m'.event ≠ .asked q := by
  refine h.pairwise ?_
  rintro before m' - - justified m hm - e q ⟨failure, fails⟩ vital same asked
  simp only [Justified, asked] at justified
  refine justified.1 ⟨e, failure, m.log, vital, ?_⟩
  rw [same, ← fails]
  exact hm

/-- Before an entry is appended nothing has been sent that would rest on it. -/
theorem unspoken_before_append (h : self.discipline.Chronicle past) :
    past.Pairwise fun m m' => ∀ e, m'.event = .asked (.inl (.append e)) →
      (e.Opens → ¬self.Messages m e.transaction) ∧
        (e.Decides → ∀ d, ¬self.SendsDecision m e.transaction d) := by
  refine h.pairwise ?_
  intro before m' chronicle _ justified' m hm grown e asked
  obtain ⟨before', -, -, -, -, justified⟩ := chronicle.justified hm
  simp only [Justified, asked] at justified'
  obtain ⟨-, -, -, extends_⟩ := justified'
  constructor
  · intro opens messages
    exact extends_.not_preparingLogged opens ((messages.preparingLogged justified).mono grown)
  · intro decides d sends
    exact extends_.not_decisionLogged decides d ((sends.precedes justified).mono grown)

/-- What a call speaks of it works on by right. -/
theorem Messages.entitled {m : Moment self.role} {tx : TransactionId} (h : self.Messages m tx)
    (justified : self.discipline.Justified past m) : self.Entitled past m.call tx := by
  rcases h with ⟨resuming, messages, time, p, message, event, mem, rfl⟩ |
    ⟨d, message, participants, time, event, rfl, -⟩
  · simp only [Justified, event] at justified
    obtain ⟨-, t, -, entitled, -, rfl⟩ := justified
    obtain ⟨p', -, same⟩ := List.mem_map.1 mem
    cases same
    exact entitled
  · simp only [Justified, event] at justified
    obtain ⟨-, t, -, entitled, about, -⟩ := justified
    exact about ▸ entitled

/-- A call draws at most one identifier. -/
theorem drawn_once (h : self.discipline.Chronicle past) {call : ℕ} {tx tx' : TransactionId}
    (drawn : self.Drawn past call tx) (drawn' : self.Drawn past call tx') : tx' = tx := by
  have once : past.Pairwise fun m m' => ∀ tx tx', m.event = .answered (.inr .freshId) tx →
      m'.event = .answered (.inr .freshId) tx' → m.call ≠ m'.call := by
    refine h.pairwise ?_
    rintro before ⟨call', event, log⟩ chronicle follows - ⟨call, _, log'⟩ hm - tx tx' rfl rfl same
    dsimp only at same
    subst same
    obtain ⟨log'', last⟩ := follows
    obtain ⟨-, earlier, others, rfl, between⟩ := eq_append_of_lastOf last
    have undrawn : ∀ tx, ¬self.Drawn earlier call tx :=
      (chronicle.of_prefix (List.prefix_append_right_inj earlier |>.2
        (List.prefix_append [_] others))).last.2.2
    rcases List.mem_append.1 hm with hm | hm
    · exact undrawn tx ⟨log', hm⟩
    · rcases List.mem_cons.1 hm with hm | hm
      · cases hm
      · exact between _ hm rfl
  obtain ⟨log, hm⟩ := drawn
  obtain ⟨log', hm'⟩ := drawn'
  have same := Discipline.eq_of_pairwise once hm hm' (fun h => h tx tx' rfl rfl rfl)
    (fun h => h tx' tx rfl rfl rfl)
  cases same
  rfl

/-- A call that begins a transaction works on the one that it has drawn. -/
theorem Begins.drawn (h : self.discipline.Chronicle past) {call : ℕ}
    (begins : self.Begins past call) {before : List (Moment self.role)} (sub : before <+: past)
    {tx : TransactionId} (entitled : self.Entitled before call tx) : self.Drawn past call tx := by
  obtain ⟨participants, operations, timeout, log, hm⟩ := begins
  obtain ⟨op, log', hm', claimed⟩ := entitled
  cases h.started_unique hm (sub.subset hm')
  exact Drawn.mono claimed sub

theorem SendsDecision.messages {m : Moment self.role} {tx : TransactionId} {d : Decision}
    (h : self.SendsDecision m tx d) : self.Messages m tx :=
  .inr ⟨d, h⟩

theorem Messages.asked {m : Moment self.role} {tx : TransactionId} (h : self.Messages m tx) :
    ∃ q, m.event = .asked (.inr q) := by
  rcases h with ⟨resuming, messages, time, p, message, event, -⟩ |
    ⟨d, message, participants, time, event, -⟩
  · exact ⟨_, event⟩
  · exact ⟨_, event⟩

/-- A call that fails to store a vital entry sends all that it sends before it tries. -/
theorem before_append_of_fails (h : self.discipline.Chronicle past) {m m' : Moment self.role}
    (hm : m ∈ past) (hm' : m' ∈ past) (same : m'.call = m.call) {e : Entry}
    (fails : self.FailsToStore m e) (vital : e.isVital = true) {tx : TransactionId}
    (messages : self.Messages m' tx) :
    (e.Opens → ¬self.Messages m' e.transaction) ∧
      (e.Decides → ∀ d, ¬self.SendsDecision m' e.transaction d) := by
  obtain ⟨q, asked⟩ := messages.asked
  have unspoken := unspoken_before_append h
  have silent := silent_after_failure h
  obtain ⟨before, others, after, log, rfl, between⟩ := h.split_answered hm fails.choose_spec
  rcases List.mem_append.1 hm' with hm' | hm'
  · exact (List.pairwise_append.1 unspoken).2.2 m' hm' _ (.head _) e rfl
  rcases List.mem_cons.1 hm' with rfl | hm'
  · cases asked
  rcases List.mem_append.1 hm' with hm' | hm'
  · exact absurd same (between m' hm')
  rcases List.mem_cons.1 hm' with rfl | hm'
  · rw [fails.choose_spec] at asked
    cases asked
  · have silent := (List.pairwise_append.1 silent).2.1
    rw [← List.cons_append, List.pairwise_append] at silent
    exact absurd asked ((List.pairwise_cons.1 silent.2.1).1 m' hm' e _ fails vital same)

/-- What a call that begins a transaction fails to store is about the one that it has drawn. -/
theorem FailsToStore.drawn (h : self.discipline.Chronicle past) {m : Moment self.role}
    (hm : m ∈ past) {e : Entry} (fails : self.FailsToStore m e)
    (begins : self.Begins past m.call) : self.Drawn past m.call e.transaction := by
  obtain ⟨before, others, after, log, rfl, -⟩ := h.split_answered hm fails.choose_spec
  have asked := (h.of_prefix (List.prefix_append_right_inj before |>.2
    (List.prefix_append [_] _))).last.2
  obtain ⟨-, -, entitled, -⟩ := asked
  exact begins.drawn h (List.prefix_append _ _) entitled

/-- A coordinator logs before it speaks, in every run. When a participant is asked for its vote the
entries that begin the transaction and open its votes are in the log, and when a decision is sent or
given in answer to a query the entry of that decision is. So no query is given the answer for an
unknown transaction once anybody has been asked to vote on it. A call that fails to store the
beginning or the opening of a transaction sends nothing of it, one that fails to store a vote or a
decision sends no decision on it, and neither asks anything more; a call that begins a transaction
speaks of no other. -/
theorem log_precedes_messages {n : Node self.role} (h : self.Reachable n) :
    (∀ m ∈ n.past, ∀ tx, self.AsksVote m tx →
      self.BeginLogged m.log tx ∧ self.PreparingLogged m.log tx) ∧
    (∀ m ∈ n.past, ∀ tx d, self.SendsDecision m tx d ∨
      self.AnswersQuery m tx (some d) ∧ self.BeginLogged m.log tx →
        self.DecisionLogged m.log tx d) ∧
    (n.past.Pairwise fun m m' => ∀ tx answer, self.AsksVote m tx →
      self.AnswersQuery m' tx answer → self.BeginLogged m'.log tx) ∧
    (∀ m ∈ n.past, ∀ m' ∈ n.past, ∀ e, self.FailsToStore m e → m'.call = m.call →
      ∀ tx, tx = e.transaction ∨ self.Begins n.past m.call →
        (e.Opens → ¬self.Messages m' tx) ∧ (e.Decides → ∀ d, ¬self.SendsDecision m' tx d)) ∧
    n.past.Pairwise fun m m' => ∀ e q, self.FailsToStore m e → e.Opens ∨ e.Decides →
      m'.call = m.call → m'.event ≠ .asked q := by
  have chronicle := h.holds.chronicle
  refine ⟨?_, ?_, ?_, ?_, ?_⟩
  · intro m hm tx asks
    obtain ⟨before, -, -, -, -, justified⟩ := chronicle.justified hm
    exact asks.precedes justified
  · intro m hm tx d told
    obtain ⟨before, -, -, -, -, justified⟩ := chronicle.justified hm
    rcases told with sends | ⟨answers, begun⟩
    · exact sends.precedes justified
    · exact answers.precedes begun justified
  · refine chronicle.pairwise ?_
    intro before m' chronicle _ _ m hm grown tx answer asks _
    obtain ⟨before', -, -, -, -, justified⟩ := chronicle.justified hm
    exact (asks.precedes justified).1.mono grown
  · intro m hm m' hm' e fails same tx concerns
    have own : self.Messages m' tx → tx = e.transaction := by
      rcases concerns with rfl | begins
      · exact fun _ => rfl
      · intro messages
        have drawn := fails.drawn chronicle hm begins
        obtain ⟨before, sub, -, -, -, justified⟩ := chronicle.justified hm'
        have entitled := messages.entitled justified
        rw [same] at entitled
        exact drawn_once chronicle drawn
          (begins.drawn chronicle ((List.prefix_append _ _).trans sub) entitled)
    constructor
    · intro opens messages
      obtain rfl := own messages
      exact (before_append_of_fails chronicle hm hm' same fails opens.isVital messages).1 opens
        messages
    · intro decides d sends
      obtain rfl := own sends.messages
      exact (before_append_of_fails chronicle hm hm' same fails decides.isVital sends.messages).2
        decides d sends
  · refine (silent_after_failure chronicle).imp ?_
    intro m m' silent e q fails kind
    refine silent e q fails ?_
    rcases kind with opens | decides
    · exact opens.isVital
    · exact decides.isVital

section Refused

/-- The entry that opens a transaction. -/
def opening : Entry where
  transaction := deal
  actor := (default : Coordinator).id
  previous := some .init
  state := .preparing
  payload := .none
  time := .epoch

/-- The entry that opens a transaction is not stored. -/
def unopened : Node.Manner (default : Coordinator).role where
  outside := sending default
  refuses e := if e = opening then some (.unavailable (.reported "disk full")) else none

/-- A transaction begins and can not be opened. -/
def refusedRun : Node (default : Coordinator).role :=
  drawingRun.resumes (drawing default deal) unopened 0

theorem reachable_refusedRun : (default : Coordinator).Reachable refusedRun := by
  have alone : drawingRun.Alone 0 := Node.alone_begins fun _ _ => rfl
  refine attains.resumes unopened reachable_drawingRun alone fun op q a first => ?_
  exact allows_drawing alone (by decide +kernel) first

instance (m : Moment self.role) (e : Entry) : Decidable (self.FailsToStore m e) :=
  match m with
  | ⟨_, .answered (.inl (.append e')) (.error failure), _⟩ =>
    decidable_of_iff (e' = e) ⟨by rintro rfl; exact ⟨failure, rfl⟩, by rintro ⟨_, ⟨⟩⟩; rfl⟩
  | ⟨_, .answered (.inl (.append _)) (.ok _), _⟩ => isFalse (by simp [FailsToStore])
  | ⟨_, .answered (.inl .now) _, _⟩ | ⟨_, .answered (.inl (.load _)) _, _⟩
  | ⟨_, .answered (.inl (.scan _)) _, _⟩ | ⟨_, .answered (.inr _) _, _⟩
  | ⟨_, .started _, _⟩ | ⟨_, .asked _, _⟩ | ⟨_, .returned _ _, _⟩ => isFalse nofun

end Refused

/-- In the run of a transaction that commits its entries precede its messages; and where it can not
be opened no message is sent. -/
theorem log_precedes_messages_queriedRun :
    (default : Coordinator).Reachable queriedRun ∧
    (∃ m ∈ queriedRun.past, (default : Coordinator).AsksVote m deal) ∧
    (∃ m ∈ queriedRun.past, (default : Coordinator).SendsDecision m deal .commit) ∧
    (∀ m ∈ queriedRun.past, (default : Coordinator).AsksVote m deal →
      (default : Coordinator).PreparingLogged m.log deal) ∧
    (∀ m ∈ queriedRun.past, (default : Coordinator).SendsDecision m deal .commit →
      (default : Coordinator).DecisionLogged m.log deal .commit) ∧
    (default : Coordinator).Reachable refusedRun ∧
    (∃ m ∈ refusedRun.past, m.call = 0 ∧ (default : Coordinator).FailsToStore m opening) ∧
    ∀ m ∈ refusedRun.past, m.call = 0 → ¬(default : Coordinator).Messages m deal := by
  obtain ⟨asked, told, -⟩ := log_precedes_messages reachable_queriedRun
  obtain ⟨-, -, -, unsent, -⟩ := log_precedes_messages reachable_refusedRun
  have fails : ∃ m ∈ refusedRun.past, m.call = 0 ∧
      (default : Coordinator).FailsToStore m opening := by
    decide +kernel
  refine ⟨reachable_queriedRun, by decide +kernel, by decide +kernel, ?_, ?_,
    reachable_refusedRun, fails, ?_⟩
  · exact fun m hm asks => (asked m hm deal asks).2
  · exact fun m hm sends => told m hm deal .commit (.inl sends)
  · obtain ⟨m, hm, zero, fails⟩ := fails
    intro m' hm' same
    exact (unsent m hm m' hm' opening fails (same.trans zero.symm) deal (.inl rfl)).1
      (.inr ⟨rfl, rfl⟩)

end Coordinator

end AtomicCommit
