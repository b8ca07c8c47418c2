import AtomicCommit.Proofs.Coordinator.Smooth

/-!
# What the report of a recovery says

A recovery that succeeds reports exactly what it did. Its lists split what was unfinished when it
started: by whether the decision had been logged before, and by whether the transaction is done
now. Whatever is not done remains to the next recovery, and that only delivers.

## Main definitions

* `Coordinator.RecoveryReport.Tells`: what a report says of the log before and after.
* `Coordinator.accounting`: what a recovery aims at, however it is answered.

## Main results

* `Coordinator.recovery_reports_what_it_did`: what a recovery reports is so.
-/

namespace AtomicCommit.Coordinator

/-- What a report says of the log at the start of a recovery and of the log at its end. Each list
is in the order in which the coordinator began the transactions. -/
structure RecoveryReport.Tells (report : RecoveryReport) (actor : ProcessId)
    (log log' : List Entry) : Prop where
  /-- What was unfinished and undecided has been decided. -/
  decided : report.decided =
    (Log.unfinished log actor).filter fun tx => !Log.isDecided log actor tx
  /-- What was unfinished and decided has been delivered again. -/
  redelivered : report.redelivered =
    (Log.unfinished log actor).filter fun tx => Log.isDecided log actor tx
  /-- What has come to its end is completed. -/
  completed : report.completed =
    (Log.unfinished log actor).filter fun tx => Log.lastState? log' actor tx = some .done
  /-- The rest is undelivered. -/
  undelivered : report.undelivered =
    (Log.unfinished log actor).filter fun tx => Log.lastState? log' actor tx ≠ some .done
  /-- Every transaction that was unfinished is decided. -/
  settled : ∀ tx ∈ Log.unfinished log actor, Log.isDecided log' actor tx = true
  /-- What is undelivered is all that is unfinished now. -/
  remaining : Log.unfinished log' actor = report.undelivered

variable (self : Coordinator)

/-- The report of a recovery that succeeds tells of the log at its start and at its end. -/
def Accounted (past : List (Moment self.role)) (call : ℕ) (log' : List Entry) :
    (op : Operation) → op.Result → Prop
  | .recover, .ok report => ∀ log,
      (momentsOf past call).head? = some ⟨call, .started .recover, log⟩ →
      report.Tells self.id log log'
  | _, _ => True

/-- What a recovery aims at, however it is answered. -/
def accounting : Aim self.role where
  Good _ _ := True
  Fits past m :=
    match m.event with
    | .returned op result => self.Accounted past m.call m.log op result
    | _ => True

variable {self} {call : ℕ} {op : Operation} {s s' : Scene self.role} {memory : Memory}
  {tx : TransactionId} {log log' : List Entry} {report report' : RecoveryReport}

/-! ## A single recovery -/

/-- What is decided replays. -/
theorem Calm.exists_replay (h : self.Calm call op s memory)
    (decided : Log.isDecided s.log self.id tx = true) :
    ∃ t, Transaction.replay (Log.history s.log self.id tx) = .ok t := by
  cases h.kept tx with
  | unknown empty _ =>
    have empty : Log.history s.log self.id tx = [] := empty
    simp [Log.isDecided, empty] at decided
  | @known t _ replay _ _ => exact ⟨t, replay⟩

/-- The account of all that was unfinished is a report on the log before and after. -/
theorem Accounts.tells {transactions : List Transaction}
    (h : self.Accounts transactions {} report s s') (calm : self.Calm call op s' memory)
    (all : transactions.map Transaction.id = Log.unfinished s.log self.id) :
    report.Tells self.id s.log s'.log := by
  have settled : ∀ tx ∈ Log.unfinished s.log self.id, Log.isDecided s'.log self.id tx = true := by
    intro tx listed
    rw [← all] at listed
    obtain ⟨t, ht, rfl⟩ := List.mem_map.1 listed
    exact h.settled t ht
  have last : ∀ tx ∈ Log.unfinished s.log self.id, Log.isIncomplete s'.log self.id tx =
      Decidable.decide (Log.lastState? s'.log self.id tx ≠ some .done) := by
    intro tx listed
    obtain ⟨t, replay⟩ := calm.exists_replay (settled tx listed)
    exact Log.isIncomplete_eq_of_replay replay
  have undelivered : report.undelivered = (Log.unfinished s.log self.id).filter
      fun tx => Log.isIncomplete s'.log self.id tx := by
    rw [h.undelivered, all, List.nil_append]
  constructor
  · rw [h.decided, all, List.nil_append]
  · rw [h.redelivered, all, List.nil_append]
  · rw [h.completed, all, List.nil_append]
    refine List.filter_congr fun tx listed => ?_
    rw [last tx listed]
    simp
  · rw [undelivered]
    exact List.filter_congr last
  · exact settled
  · rw [undelivered]
    refine Log.unfinished_of_prefix h.log fun tx finished => h.others tx fun t ht same => ?_
    rw [← all, ← same] at finished
    exact finished (List.mem_map_of_mem ht)

/-- A recovery that succeeds reports what it did, however it is answered. -/
theorem recover_accounts (sound : self.discipline.Sound s) (new : ∀ m ∈ s.past, m.call ≠ call) :
    (self.run .recover s.memory).Meets (self.discipline.favoured self.accounting call .recover)
      (Discipline.Succeeds self.accounting call .recover) (s.note call (.started .recover)) := by
  refine Discipline.meets_favoured ?_ fun _ _ _ => trivial
  refine Action.Meets.program (meets_recover (calm_start sound new) ?_
    (fun _ _ _ _ _ _ => trivial) fun _ _ _ _ _ _ _ _ => trivial)
  intro transactions report memory' s' finds accounts _ calm log started
  rw [Scene.head_of_note_started new accounts.past] at started
  cases started
  exact accounts.tells calm finds.ids

/-- In every run recoveries that succeed report what they did. -/
theorem Reachable.accounts {n : Node self.role} (h : self.Reachable n) :
    self.discipline.Prospers self.accounting (fun _ op => op = .recover) n := by
  refine h.prospers (fun _ _ => trivial) ?_
  rintro call _ s rfl sound new
  exact recover_accounts sound new

/-! ## One recovery after another -/

theorem isDecided_of_own {actor : ProcessId} (same : Log.own log' actor = Log.own log actor) :
    Log.isDecided log' actor tx = Log.isDecided log actor tx := by
  refine Log.isDecided_congr ?_
  rw [← Log.history_own log', same, Log.history_own]

namespace RecoveryReport.Tells

variable {actor : ProcessId}

theorem perm_decided (h : report.Tells actor log log') :
    (report.decided ++ report.redelivered).Perm (Log.unfinished log actor) := by
  rw [h.decided, h.redelivered]
  exact List.perm_append_comm.trans (List.filter_append_perm _ _)

theorem perm_completed (h : report.Tells actor log log') :
    (report.completed ++ report.undelivered).Perm (Log.unfinished log actor) := by
  have rest : report.undelivered = (Log.unfinished log actor).filter
      fun tx => !Decidable.decide (Log.lastState? log' actor tx = some .done) := by
    rw [h.undelivered]
    exact List.filter_congr fun tx _ => by simp
  rw [h.completed, rest]
  exact List.filter_append_perm _ _

/-- A recovery that starts where another has ended finds what that has left undelivered. -/
theorem unfinished_next (h : report.Tells actor log log') {log₁ : List Entry}
    (same : Log.own log₁ actor = Log.own log' actor) :
    Log.unfinished log₁ actor = report.undelivered :=
  (Log.unfinished_congr same).trans h.remaining

/-- All that has been left undelivered is decided. -/
theorem isDecided_next (h : report.Tells actor log log') {log₁ : List Entry}
    (same : Log.own log₁ actor = Log.own log' actor) (left : tx ∈ report.undelivered) :
    Log.isDecided log₁ actor tx = true := by
  rw [isDecided_of_own same]
  rw [h.undelivered] at left
  exact h.settled tx (List.mem_filter.1 left).1

/-- The next recovery decides nothing and delivers all of that again. -/
theorem next (h : report.Tells actor log log') {log₁ log₁' : List Entry}
    (same : Log.own log₁ actor = Log.own log' actor) (h' : report'.Tells actor log₁ log₁') :
    report'.decided = [] ∧ report'.redelivered = report.undelivered := by
  have decided : ∀ tx ∈ report.undelivered, Log.isDecided log₁ actor tx = true :=
    fun tx left => h.isDecided_next same left
  rw [h'.decided, h'.redelivered, h.unfinished_next same]
  constructor
  · exact List.filter_eq_nil_iff.2 fun tx left => by simp [decided tx left]
  · exact List.filter_eq_self.2 decided

end RecoveryReport.Tells

/-- A recovery that succeeds reports exactly what it did, whatever it has been answered. The
transactions that were unfinished when it started are split into decided and redelivered by whether
their decision was logged, and into completed and undelivered by whether their last entry now says
that they are done; all of them have a logged decision; each list is in the order in which they were
begun. A further recovery, started before the coordinator has written anything else, finds what was
left undelivered, all of it decided; if it succeeds it has decided nothing and redelivered all of
that. -/
theorem recovery_reports_what_it_did {n : Node self.role} (h : self.Reachable n)
    (started : ⟨call, .started .recover, log⟩ ∈ n.past)
    (returned : ⟨call, .returned .recover (.ok report), log'⟩ ∈ n.past) :
    report.Tells self.id log log' ∧
    (Log.unfinished log self.id).Nodup ∧
    (report.decided ++ report.redelivered).Perm (Log.unfinished log self.id) ∧
    (report.completed ++ report.undelivered).Perm (Log.unfinished log self.id) ∧
    ∀ call₁ log₁, ⟨call₁, .started .recover, log₁⟩ ∈ n.past →
      Log.own log₁ self.id = Log.own log' self.id →
      Log.unfinished log₁ self.id = report.undelivered ∧
      (∀ tx ∈ report.undelivered, Log.isDecided log₁ self.id tx = true) ∧
      ∀ report₁ log₁', ⟨call₁, .returned .recover (.ok report₁), log₁'⟩ ∈ n.past →
        report₁.decided = [] ∧ report₁.redelivered = report.undelivered := by
  have tells : ∀ call log log' report, ⟨call, .started .recover, log⟩ ∈ n.past →
      ⟨call, .returned .recover (.ok report), log'⟩ ∈ n.past → report.Tells self.id log log' := by
    intro call log log' report started returned
    obtain ⟨before, -, accounted, first⟩ :=
      h.accounts.returned h.holds.chronicle rfl started returned
    exact accounted log first
  have first := tells call log log' report started returned
  refine ⟨first, Log.nodup_unfinished _ _, first.perm_decided, first.perm_completed, ?_⟩
  intro call₁ log₁ started₁ same
  refine ⟨first.unfinished_next same, fun tx left => first.isDecided_next same left, ?_⟩
  intro report₁ log₁' returned₁
  exact first.next same (tells call₁ log₁ log₁' report₁ started₁ returned₁)

/-! ## A recovery that loses replies -/

section Losing

/-- A second transaction. -/
abbrev sale : TransactionId := ⟨2⟩

/-- Nobody votes, and only the acknowledgements of one transaction arrive. -/
def losing : Node.Outside (default : Coordinator).role
  | .awaitVote _ _ => some none
  | .awaitAcknowledgement message (p :: _) =>
    if message.transaction = deal then
      some (some { sender := p, sender_mem := .head _, result := .ok () })
    else some none
  | q => sending default q

theorem attains_losing :
    Node.Attains (default : Coordinator).Reachable (default : Coordinator).Allows losing := by
  constructor
  · exact fun n n' before step => before.step step
  · exact fun n call op q a log alone => allows_of_alone alone nofun
  · intro n call op q a log alone answered
    exact allows_other alone rfl answered

/-- The coordinator restarts when a transaction is decided. -/
def restartedRun : Node (default : Coordinator).role :=
  { log := decidedRun.log, past := decidedRun.past }

/-- Another transaction is to begin and waits for its identifier. -/
def redrawingRun : Node (default : Coordinator).role :=
  restartedRun.begins { outside := sending default } 1 (.begin (SortedSet.ofList [party]) ∅ .zero)

/-- The participant of that one is asked for a vote. -/
def revotingRun : Node (default : Coordinator).role :=
  redrawingRun.resumes (drawing default sale) { outside := sending default } 1

/-- The coordinator restarts again and recovers. -/
def recoveredRun : Node (default : Coordinator).role :=
  Node.begins { outside := losing } { log := revotingRun.log, past := revotingRun.past } 2 .recover

/-- It recovers once more. -/
def recoveredTwiceRun : Node (default : Coordinator).role :=
  recoveredRun.begins { outside := losing } 3 .recover

theorem reachable_recoveredTwiceRun : (default : Coordinator).Reachable recoveredTwiceRun := by
  have nobody (n : Node (default : Coordinator).role) (call : ℕ) :
      ({ log := n.log, past := n.past } : Node (default : Coordinator).role).Alone call :=
    fun _ _ => rfl
  have restarted : (default : Coordinator).Reachable restartedRun :=
    reachable_decidedRun.step .restart
  have redrawing : (default : Coordinator).Reachable redrawingRun :=
    attains.begins _ restarted (nobody _ 1) (by decide +kernel) (allows_of_alone (nobody _ 1) nofun)
  have revoting : (default : Coordinator).Reachable revotingRun := by
    have alone : redrawingRun.Alone 1 := Node.alone_begins (nobody _ 1)
    refine attains.resumes _ redrawing alone fun op q a first => ?_
    exact allows_drawing alone (by decide +kernel) first
  have recovered : (default : Coordinator).Reachable recoveredRun :=
    attains_losing.begins _ (revoting.step .restart) (nobody _ 2) (by decide +kernel)
      (allows_of_alone (nobody _ 2) nofun)
  have alone : recoveredRun.Alone 3 :=
    (Node.alone_begins (nobody _ 2)).of_ended (by decide +kernel)
  exact attains_losing.begins _ recovered alone (by decide +kernel) (allows_of_alone alone nofun)

/-- A moment reports a recovery. -/
def reports (m : Moment (default : Coordinator).role) (report : RecoveryReport) : Bool :=
  match m.event with
  | .returned .recover (.ok report') => report' = report
  | _ => false

theorem event_of_reports {m : Moment (default : Coordinator).role} (h : reports m report = true) :
    m.event = .returned .recover (.ok report) := by
  unfold reports at h
  split at h
  · rw [← of_decide_eq_true h]
    assumption
  · cases h

/-- Of two unfinished transactions a recovery decides one, delivers the other again, and completes
only that one; the next recovery finds the first, and delivers it again. -/
theorem recovery_reports_what_it_did_recoveredTwiceRun :
    (default : Coordinator).Reachable recoveredTwiceRun ∧
    ∃ log log' log₁ log₁' report₁,
      ⟨2, .started .recover, log⟩ ∈ recoveredTwiceRun.past ∧
      ⟨2, .returned .recover (.ok ⟨[sale], [deal], [deal], [sale]⟩), log'⟩ ∈
        recoveredTwiceRun.past ∧
      ⟨3, .started .recover, log₁⟩ ∈ recoveredTwiceRun.past ∧
      ⟨3, .returned .recover (.ok report₁), log₁'⟩ ∈ recoveredTwiceRun.past ∧
      RecoveryReport.Tells ⟨[sale], [deal], [deal], [sale]⟩ (default : Coordinator).id log log' ∧
      Log.unfinished log₁ (default : Coordinator).id = [sale] ∧
      report₁.decided = [] ∧ report₁.redelivered = [sale] := by
  obtain ⟨⟨_, _, log⟩, hm, rfl, starts, ⟨_, _, log'⟩, hm', rfl, returns,
      ⟨_, _, log₁⟩, hm₁, rfl, starts₁, same⟩ :
      ∃ m ∈ recoveredTwiceRun.past, m.call = 2 ∧ recovers m = true ∧
        ∃ m' ∈ recoveredTwiceRun.past, m'.call = 2 ∧
          reports m' ⟨[sale], [deal], [deal], [sale]⟩ = true ∧
          ∃ m₁ ∈ recoveredTwiceRun.past, m₁.call = 3 ∧ recovers m₁ = true ∧
            Log.own m₁.log (default : Coordinator).id =
              Log.own m'.log (default : Coordinator).id := by
    decide +kernel
  obtain ⟨⟨_, _, log₁'⟩, hm₁', rfl, returns₁⟩ :
      ∃ m ∈ recoveredTwiceRun.past, m.call = 3 ∧ reports m ⟨[], [sale], [], [sale]⟩ = true := by
    decide +kernel
  obtain rfl := event_of_recovers starts
  obtain rfl := event_of_reports returns
  obtain rfl := event_of_recovers starts₁
  obtain rfl := event_of_reports returns₁
  obtain ⟨tells, -, -, -, next⟩ := recovery_reports_what_it_did reachable_recoveredTwiceRun hm hm'
  obtain ⟨found, -, delivers⟩ := next 3 log₁ hm₁ same
  obtain ⟨decided, redelivered⟩ := delivers _ log₁' hm₁'
  exact ⟨reachable_recoveredTwiceRun, log, log', log₁, log₁', _, hm, hm', hm₁, hm₁', tells, found,
    decided, redelivered⟩

end Losing

end AtomicCommit.Coordinator
