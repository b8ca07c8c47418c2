import AtomicCommit.Proofs.Coordinator.Backoff
import AtomicCommit.Proofs.Coordinator.Report

/-!
# Whether a recovery gets as far as sending a decision

A recovery reckons a deadline for votes before it goes on with any transaction, also with one that
has its decision and needs no votes. Where it gets beyond that it sends the decision to everybody
who has not acknowledged it. It does not where the time that it is told is too late for the deadline
to be represented; it fails then, and no check of a configuration keeps that from happening.

Once a decision is on its way the time up to which acknowledgements are awaited is reckoned. Where
that can not be represented the recovery panics, and what comes after is not sent. No check of a
configuration keeps that from happening either.

## Main definitions

* `Coordinator.Concluded`: what a recovery has sent when it ends.
* `Coordinator.Over`: how a recovery is over.
* `Coordinator.SendsFirst`: a program that begins by sending a decision.

## Main results

* `Coordinator.decision_is_resent_or_too_late`: a recovery sends what is decided, or says why not.
* `Coordinator.recovery_is_too_late`, `Coordinator.recovery_overruns`: accepted configurations with
  which it can not.
-/

namespace AtomicCommit.Coordinator

/-- What a recovery that started with this log has sent when it ends. -/
inductive Concluded (c : Coordinator) (log : List Entry) (past : List (Moment c.role))
    (call : ℕ) : Except RecoveryError RecoveryReport → Prop where
  /-- Every decision that it found has been sent. -/
  | finished {transactions : List Transaction} {report : RecoveryReport}
    (finds : c.Finds log transactions) (resent : ∀ t ∈ transactions, c.Resent past call t) :
    Concluded c log past call (.ok report)
  /-- The log has not been read. -/
  | unread {cause : LogError} {log' : List Entry}
    (told : ⟨call, .answered (.inl (.scan c.id)) (.error cause : Except LogError _), log'⟩ ∈ past) :
    Concluded c log past call (.error (.log cause))
  /-- One transaction could not be finished. -/
  | stopped {transactions : List Transaction} {failure : RecoveryError}
    (finds : c.Finds log transactions) (stops : c.Stops past call transactions failure) :
    Concluded c log past call (.error failure)

variable (self : Coordinator)

/-- Every recovery has sent what it should when it ends, or says why not. -/
def concluding : Aim self.role where
  Good _ _ := True
  Fits past m :=
    match m.event with
    | .returned .recover result => ∀ log,
      (momentsOf past m.call).head? = some ⟨m.call, .started .recover, log⟩ →
        self.Concluded log past m.call result
    | _ => True

variable {self} {call : ℕ} {s : Scene self.role} {t : Transaction} {log log' : List Entry}

theorem recover_concludes (sound : self.discipline.Sound s) (new : ∀ m ∈ s.past, m.call ≠ call) :
    (self.run .recover s.memory).Meets (self.discipline.favoured self.concluding call .recover)
      (Discipline.Succeeds self.concluding call .recover) (s.note call (.started .recover)) := by
  refine Discipline.meets_favoured ?_ fun _ _ _ => trivial
  have start : ∀ {past log}, (s.note call (.started .recover)).past <+: past →
      (momentsOf past call).head? = some ⟨call, .started .recover, log⟩ → s.log = log := by
    intro past log grown started
    rw [Scene.head_of_note_started new grown] at started
    cases started
    rfl
  refine Action.Meets.program (meets_recover (calm_start sound new) ?_ ?_ ?_)
  · intro transactions report memory' s' finds accounts resent _ log started
    exact start accounts.past started ▸ .finished finds resent
  · exact fun cause memory' s' _ told _ log _ => .unread told
  · intro transactions failure memory' s' grown finds stops _ log started
    exact start grown started ▸ .stopped finds stops

theorem Concluded.mono {past later : List (Moment self.role)}
    {result : Except RecoveryError RecoveryReport} (h : self.Concluded log past call result)
    (sub : past <+: later) : self.Concluded log later call result := by
  cases h with
  | finished finds resent => exact .finished finds fun t ht => (resent t ht).mono sub
  | unread told => exact .unread (sub.subset told)
  | stopped finds stops => exact .stopped finds (stops.mono sub)

theorem Reachable.concluded {n : Node self.role} (h : self.Reachable n)
    {result : Except RecoveryError RecoveryReport}
    (started : ⟨call, .started .recover, log⟩ ∈ n.past)
    (returned : ⟨call, .returned .recover result, log'⟩ ∈ n.past) :
    self.Concluded log n.past call result := by
  have concludes : self.discipline.Prospers self.concluding (fun _ op => op = .recover) n := by
    refine h.prospers (fun _ _ => trivial) ?_
    rintro call _ s rfl sound new
    exact recover_concludes sound new
  obtain ⟨before, sub, fits, first⟩ := concludes.returned h.holds.chronicle rfl started returned
  exact (fits log first).mono sub

/-- Going on with a transaction that has been started begins with reading the clock, and ends there
where it is too late. -/
theorem program_resume (started : t.state ≠ .init) (memory : Memory) :
    (self.resume t).program memory =
      .ask (I := interface.sharing Memory) (.inl .now, memory) fun reply =>
        match reply.1.add? self.config.prepareTimeout with
        | none =>
          .done (.error (.invalidRequest (.timeoutRange self.config.prepareTimeout)), reply.2)
        | some deadline => (self.drive t deadline true).program reply.2 := by
  rw [resume, if_neg started, deadlineAfter]
  simp only [Action.program_bind, Action.program_pure, Host.program_now, Program.done_bind,
    Program.ask_bind]
  congr 1
  funext reply
  cases reply.1.add? self.config.prepareTimeout <;> rfl

/-- A program begins by sending a decision, and panics after that if its clock can not tell when it
would cease to wait for acknowledgements. -/
def SendsFirst (c : Coordinator) (message : DecisionMessage) (participants : List ProcessId)
    (memory : Memory) {α : Type} (p : Program (interface.sharing Memory) α) : Prop :=
  ∃ goesOn, p = .ask (.inr (.sendDecision message participants c.config.ackTimeout), memory)
    fun reply => (within c.config.ackTimeout reply.1 : Step Unit).program reply.2 >>= goesOn

theorem SendsFirst.bind {message : DecisionMessage} {participants : List ProcessId} {α β : Type}
    {memory : Memory} {p : Program (interface.sharing Memory) α}
    (h : self.SendsFirst message participants memory p)
    (f : α → Program (interface.sharing Memory) β) :
    self.SendsFirst message participants memory (p >>= f) := by
  obtain ⟨goesOn, rfl⟩ := h
  refine ⟨fun a => goesOn a >>= f, ?_⟩
  rw [Program.ask_bind]
  congr 1
  funext reply
  rw [Program.bind_assoc]

/-- Where it is too late for that, it panics. -/
theorem SendsFirst.panics {message : DecisionMessage} {participants : List ProcessId} {α : Type}
    {memory : Memory} {p : Program (interface.sharing Memory) α}
    (h : self.SendsFirst message participants memory p) :
    ∃ next, p = .ask (I := interface.sharing Memory)
        (.inr (.sendDecision message participants self.config.ackTimeout), memory) next ∧
      ∀ start memory', Timestamp.add? start self.config.ackTimeout = none →
        ∃ never, next (start, memory') =
          .ask (I := interface.sharing Memory) (.inr .panic, memory') never := by
  obtain ⟨goesOn, rfl⟩ := h
  refine ⟨_, rfl, fun start memory' late => ?_⟩
  simp only [program_within, late, Option.isSome_none, Bool.false_eq_true, if_false,
    Program.ask_bind]
  exact ⟨_, rfl⟩

theorem sendsFirst_deliverRounds {message : DecisionMessage} {rounds : ℕ}
    (missing : t.unacknowledged ≠ []) (memory : Memory) :
    self.SendsFirst message t.unacknowledged memory
      ((self.deliverRounds message (rounds + 1) 0 t).program memory) := by
  rw [deliverRounds, if_neg (by simpa using missing)]
  exact ⟨_, rfl⟩

/-- Driving a decided transaction begins by sending the decision to all who have not acknowledged
it. -/
theorem sendsFirst_drive {d : Decision} (decided : t.decision = some d)
    (attempts : self.config.retry.maxAttempts ≠ 0) (missing : t.unacknowledged ≠ [])
    (deadline : Timestamp) (resuming : Bool) (memory : Memory) :
    self.SendsFirst { transaction := t.id, decision := d } t.unacknowledged memory
      ((self.drive t deadline resuming).program memory) := by
  obtain ⟨rounds, attempts⟩ := Nat.exists_eq_succ_of_ne_zero attempts
  have sends : self.SendsFirst { transaction := t.id, decision := d } t.unacknowledged memory
      ((self.deliverRounds { transaction := t.id, decision := d } (rounds + 1) 0 t).program
        memory) :=
    sendsFirst_deliverRounds missing memory
  rw [drive, decided]
  simp only [deliver, Action.program_bind, Action.program_pure, Program.done_bind, attempts]
  exact (sends.bind _).bind _

/-- A recovery is over: it has ended with this result, or it has panicked and has none. -/
def Over (c : Coordinator) (past : List (Moment c.role)) (call : ℕ) :
    Option (Except RecoveryError RecoveryReport) → Prop
  | some result => ∃ log, ⟨call, .returned .recover result, log⟩ ∈ past
  | none => ∃ log, ⟨call, .asked (.inr .panic), log⟩ ∈ past

/-- Where a recovery has ended, every decision that it had to deliver has been sent, or the recovery
failed: it could not read the log, or not store an entry for an undecided transaction, or a time
that it was told was too late for its deadline for votes. -/
theorem Concluded.told {past : List (Moment self.role)}
    {result : Except RecoveryError RecoveryReport} {d : Decision}
    (h : self.Concluded log past call result) (attempts : self.config.retry.maxAttempts ≠ 0)
    (logged : self.Logged log t) (unfinished : t.state ≠ .done) (decided : t.decision = some d)
    (missing : t.unacknowledged ≠ []) :
    self.Told past call { transaction := t.id, decision := d } t.unacknowledged ∨
      (∃ cause log₁, result = .error (.log cause) ∧
        ⟨call, .answered (.inl (.scan self.id)) (.error cause : Except LogError _), log₁⟩ ∈ past) ∨
      (∃ cause t', result = .error (.log cause) ∧ self.Logged log t' ∧
        t'.id ∈ Log.unfinished log self.id ∧ t'.decision = none ∧ self.Failed past call) ∨
      (result = .error (.commit (.invalidRequest (.timeoutRange self.config.prepareTimeout))) ∧
        ∃ now log₁, ⟨call, .answered (.inl .now) now, log₁⟩ ∈ past ∧
          now.add? self.config.prepareTimeout = none) := by
  cases h with
  | finished finds resent =>
    exact .inl (resent t (finds.mem logged unfinished) d decided attempts missing)
  | @unread cause log₁ told => exact .inr (.inl ⟨cause, log₁, rfl, told⟩)
  | stopped finds stops =>
    obtain ⟨rfl, -, hinders⟩ := stops
    rename_i before rest stuck failure
    have found : stuck ∈ before ++ stuck :: rest := by simp
    cases hinders with
    | @refused cause undecided failed =>
      refine .inr (.inr (.inl ⟨cause, stuck, rfl, finds.logged stuck found, ?_, undecided, failed⟩))
      rw [← finds.ids]
      exact List.mem_map_of_mem found
    | @late now log₁ told late => exact .inr (.inr (.inr ⟨rfl, now, log₁, told, late⟩))

/-- A recovery under a configuration that has passed its checks sends every logged decision to all
who have not acknowledged it, or it fails or panics. It fails before that only where it could not
read the log, or not store an entry of a transaction that is undecided, or where a time that it was
told is too late for the deadline for votes, which it reckons for a decided transaction as well. It
panics only where it has calls out, and the time up to which it would wait for their replies is
beyond what its clock can tell. And there it does fail, and does panic: the time is the first that
it asks for when it goes on with a decided transaction, and where that is too late nothing is sent.
Otherwise it sends the decision at once, to all who have not acknowledged it, and where the time at
which that is done is too late for the deadline for acknowledgements it does nothing more. -/
theorem decision_is_resent_or_too_late {options : Config.Options} {n : Node self.role}
    (h : self.Reachable n) (built : Config.build options = .ok self.config)
    {result : Option (Except RecoveryError RecoveryReport)}
    (started : ⟨call, .started .recover, log⟩ ∈ n.past) (ends : self.Over n.past call result)
    {d : Decision} (logged : self.Logged log t) (unfinished : t.state ≠ .done)
    (decided : t.decision = some d) (missing : t.unacknowledged ≠ []) :
    (self.Told n.past call { transaction := t.id, decision := d } t.unacknowledged ∨
      (∃ cause log₁, result = some (.error (.log cause)) ∧
        ⟨call, .answered (.inl (.scan self.id)) (.error cause : Except LogError _), log₁⟩ ∈
          n.past) ∨
      (∃ cause t', result = some (.error (.log cause)) ∧ self.Logged log t' ∧
        t'.id ∈ Log.unfinished log self.id ∧ t'.decision = none ∧ self.Failed n.past call) ∨
      (result =
          some (.error (.commit (.invalidRequest (.timeoutRange self.config.prepareTimeout)))) ∧
        ∃ now log₁, ⟨call, .answered (.inl .now) now, log₁⟩ ∈ n.past ∧
          now.add? self.config.prepareTimeout = none) ∨
      (result = none ∧ self.Overruns n.past call)) ∧
    ∀ memory, ∃ next, (self.resume t).program memory =
        .ask (I := interface.sharing Memory) (.inl .now, memory) next ∧
      (∀ now memory', now.add? self.config.prepareTimeout = none → next (now, memory') =
        .done (.error (.invalidRequest (.timeoutRange self.config.prepareTimeout)), memory')) ∧
      ∀ now memory', now.add? self.config.prepareTimeout ≠ none →
        ∃ next', next (now, memory') = .ask (I := interface.sharing Memory)
            (.inr (.sendDecision { transaction := t.id, decision := d } t.unacknowledged
              self.config.ackTimeout), memory') next' ∧
          ∀ start memory'', start.add? self.config.ackTimeout = none →
            ∃ never, next' (start, memory'') =
              .ask (I := interface.sharing Memory) (.inr .panic, memory'') never := by
  have attempts := Config.attempts_of_build built
  have begun : t.state ≠ .init := by
    intro initial
    have undecided := (Transaction.wellFormed_of_replay logged).undecided.2 (.inl initial)
    simp [undecided] at decided
  refine ⟨?_, fun memory => ⟨_, program_resume begun memory, fun now memory' late => ?_,
    fun now memory' fits => ?_⟩⟩
  · cases result with
    | some result =>
      obtain ⟨log', returned⟩ := ends
      simpa using (h.concluded started returned).told attempts logged unfinished decided missing
    | none =>
      obtain ⟨log', panics⟩ := ends
      exact .inr (.inr (.inr (.inr ⟨rfl, h.overruns panics⟩)))
  · dsimp only
    rw [late]
  · obtain ⟨deadline, fits⟩ := Option.ne_none_iff_exists'.1 fits
    dsimp only
    rw [fits]
    exact (sendsFirst_drive decided attempts missing deadline true memory').panics

/-! ## Runs with a decision to deliver -/

/-- A log has a decision that these have not acknowledged. -/
def owes (self : Coordinator) (log : List Entry) (tx : TransactionId) (d : Decision)
    (missing : List ProcessId) : Bool :=
  match Transaction.replay (Log.history log self.id tx) with
  | .ok t => t.id = tx ∧ t.state ≠ .done ∧ t.decision = some d ∧ t.unacknowledged = missing
  | .error _ => false

theorem exists_of_owes {tx : TransactionId} {d : Decision} {missing : List ProcessId}
    (h : self.owes log tx d missing = true) :
    ∃ t, t.id = tx ∧ self.Logged log t ∧ t.state ≠ .done ∧ t.decision = some d ∧
      t.unacknowledged = missing := by
  unfold owes at h
  split at h
  · rename_i t replay
    obtain ⟨rfl, unfinished, decided, same⟩ := of_decide_eq_true h
    exact ⟨t, rfl, replay, unfinished, decided, same⟩
  · cases h

section Delivers

/-- A recovery finds a decided transaction, and its participant acknowledges. -/
def resentRun : Node (default : Coordinator).role :=
  restartedRun.begins { outside := losing } 1 .recover

theorem reachable_resentRun : (default : Coordinator).Reachable resentRun := by
  have alone : restartedRun.Alone 1 := fun _ _ => rfl
  exact attains_losing.begins _ (reachable_decidedRun.step .restart) alone (by decide +kernel)
    (allows_of_alone alone nofun)

/-- With the default configuration the decision is sent again. -/
theorem decision_is_resent_or_too_late_resentRun :
    (default : Coordinator).Reachable resentRun ∧
    Config.build {} = .ok (default : Coordinator).config ∧
    ∃ log log', ⟨1, .started .recover, log⟩ ∈ resentRun.past ∧
      ⟨1, .returned .recover (.ok ⟨[], [deal], [deal], []⟩), log'⟩ ∈ resentRun.past ∧
      ∃ t, t.id = deal ∧ (default : Coordinator).Logged log t ∧ t.state ≠ .done ∧
        t.decision = some .commit ∧ t.unacknowledged = [party] ∧
        (default : Coordinator).Told resentRun.past 1 ⟨deal, .commit⟩ [party] := by
  have built : Config.build {} = .ok (default : Coordinator).config := rfl
  obtain ⟨⟨_, _, log⟩, hm, rfl, starts, owing, ⟨_, _, log'⟩, hm', rfl, returns⟩ :
      ∃ m ∈ resentRun.past, m.call = 1 ∧ recovers m = true ∧
        (default : Coordinator).owes m.log deal .commit [party] = true ∧
        ∃ m' ∈ resentRun.past, m'.call = 1 ∧ reports m' ⟨[], [deal], [deal], []⟩ = true := by
    decide +kernel
  obtain rfl := event_of_recovers starts
  obtain rfl := event_of_reports returns
  obtain ⟨t, about, logged, unfinished, decided, missing⟩ := exists_of_owes owing
  have ends : (default : Coordinator).Over resentRun.past 1 (some (.ok ⟨[], [deal], [deal], []⟩)) :=
    ⟨log', hm'⟩
  obtain ⟨resent, -⟩ := decision_is_resent_or_too_late reachable_resentRun built hm ends logged
    unfinished decided (by simp [missing])
  refine ⟨reachable_resentRun, built, log, log', hm, hm', t, about, logged, unfinished, decided,
    missing, ?_⟩
  simpa [missing, about] using resent

end Delivers

section Late

variable {n : Node self.role} {tx : TransactionId}

/-- A transaction begins, and its participant votes to commit. -/
def decides (n : Node self.role) (call : ℕ) (tx : TransactionId) : Node self.role :=
  ((n.begins { outside := sending self } call (.begin (SortedSet.ofList [party]) ∅ .zero)).resumes
    (drawing self tx) { outside := sending self } call).resumes
    (voting self tx party .yes) { outside := sending self } call

theorem Reachable.decides (h : self.Reachable n) (alone : n.Alone call)
    (new : ∀ m ∈ n.past, m.call ≠ call)
    (fresh : ∀ m ∈ (n.begins { outside := sending self } call
      (.begin (SortedSet.ofList [party]) ∅ .zero)).past, draws m tx = false) :
    self.Reachable (decides n call tx) := by
  have waits : self.Reachable (n.begins { outside := sending self } call
      (.begin (SortedSet.ofList [party]) ∅ .zero)) :=
    attains.begins _ h alone new (allows_of_alone alone nofun)
  have drawn := attains.resumes { outside := sending self } waits (Node.alone_begins alone)
    fun op q a first => allows_drawing (Node.alone_begins alone) fresh first
  exact attains.resumes _ drawn (Node.alone_resumes (Node.alone_begins alone)) fun op q a =>
    allows_other (Node.alone_resumes (Node.alone_begins alone)) rfl

theorem alone_decides (alone : n.Alone call) : (decides n call tx).Alone call :=
  Node.alone_resumes (Node.alone_resumes (Node.alone_begins alone))

/-- A coordinator restarts and recovers. -/
def restarts (n : Node self.role) (call : ℕ) : Node self.role :=
  Node.begins { outside := sending self } { log := n.log, past := n.past } call .recover

theorem Reachable.restarts (h : self.Reachable n) (new : ∀ m ∈ n.past, m.call ≠ call) :
    self.Reachable (restarts n call) :=
  attains.begins _ (h.step .restart) (fun _ _ => rfl) new
    (allows_of_alone (fun _ _ => rfl) nofun)

/-- A coordinator that waits for votes longer than time can be told. -/
def patient : Coordinator :=
  { id := (default : Coordinator).id
    config := { Config.default with prepareTimeout := { nanos := 2 ^ 63 * nanosPerSecond } } }

/-- It decides on a transaction, restarts and recovers. -/
def lateRun : Node patient.role :=
  restarts (decides {} 0 deal) 1

/-- A moment ends a recovery so. -/
def failsWith (m : Moment self.role) (failure : RecoveryError) : Bool :=
  match m.event with
  | .returned .recover (.error failure') => failure' = failure
  | _ => false

/-- A moment sends a decision to anybody. -/
def delivers (m : Moment self.role) : Bool :=
  match m.event with
  | .asked (.inr (.sendDecision _ _ _)) => true
  | _ => false

/-- With an accepted configuration a recovery finds a decision that a participant has not
acknowledged, fails, and has sent nothing. -/
theorem recovery_is_too_late :
    (∃ options, Config.build options = .ok patient.config) ∧ patient.Reachable lateRun ∧
    (∃ m ∈ lateRun.past, m.call = 1 ∧ recovers m = true ∧
      patient.owes m.log deal .commit [party] = true) ∧
    (∃ m ∈ lateRun.past, m.call = 1 ∧ failsWith m
      (.commit (.invalidRequest (.timeoutRange patient.config.prepareTimeout))) = true) ∧
    ∀ m ∈ lateRun.past, m.call = 1 → delivers m = false := by
  have alone : ({} : Node patient.role).Alone 0 := fun _ _ => rfl
  have decided : patient.Reachable (decides {} 0 deal) :=
    Reachable.initial.decides alone (fun _ hm => nomatch hm) (by decide +kernel)
  exact ⟨⟨{ prepareTimeout := some patient.config.prepareTimeout }, rfl⟩,
    decided.restarts (by decide +kernel), by decide +kernel, by decide +kernel, by decide +kernel⟩

/-- A coordinator that waits for acknowledgements longer than time can be told. -/
def tardy : Coordinator :=
  { id := (default : Coordinator).id
    config := { Config.default with ackTimeout := { nanos := 2 ^ 63 * nanosPerSecond } } }

/-- It decides on two transactions, restarts and recovers. -/
def overrunRun : Node tardy.role :=
  restarts (decides (decides {} 0 deal) 1 sale) 2

/-- A moment panics. -/
def panics (m : Moment self.role) : Bool :=
  match m.event with
  | .asked (.inr .panic) => true
  | _ => false

/-- With an accepted configuration a recovery finds two decisions that a participant has not
acknowledged, panics, and has not sent the second. -/
theorem recovery_overruns :
    (∃ options, Config.build options = .ok tardy.config) ∧ tardy.Reachable overrunRun ∧
    (∃ m ∈ overrunRun.past, m.call = 2 ∧ recovers m = true ∧
      tardy.owes m.log deal .commit [party] = true ∧
      tardy.owes m.log sale .commit [party] = true) ∧
    (∃ m ∈ overrunRun.past, m.call = 2 ∧ panics m = true) ∧
    ∀ m ∈ overrunRun.past, m.call = 2 → sends m party ⟨sale, .commit⟩ = false := by
  have alone : ({} : Node tardy.role).Alone 0 := fun _ _ => rfl
  have first : tardy.Reachable (decides {} 0 deal) :=
    Reachable.initial.decides alone (fun _ hm => nomatch hm) (by decide +kernel)
  have alone : (decides {} 0 deal : Node tardy.role).Alone 1 :=
    (alone_decides alone).of_ended (by decide +kernel)
  have second : tardy.Reachable (decides (decides {} 0 deal) 1 sale) :=
    first.decides alone (by decide +kernel) (by decide +kernel)
  exact ⟨⟨{ ackTimeout := some tardy.config.ackTimeout }, rfl⟩,
    second.restarts (by decide +kernel), by decide +kernel, by decide +kernel, by decide +kernel⟩

end Late

end AtomicCommit.Coordinator
