import AtomicCommit.Proofs.Coordinator.Conduct
import AtomicCommit.Proofs.Log.Scan
import AtomicCommit.Proofs.Participant.Conduct
import AtomicCommit.Proofs.Process.Cue

/-!
# Logs that can not be recovered from

A recovery starts by reading what is unfinished and replays all of it before it goes on. If one
history does not replay, the recovery is over: it has asked its host for the entries and nothing
else, and log and memory are as they were. A coordinator and a participant are alike in this.

No run of a process leads to such a log. The log is a file, and whatever it holds comes to the
recovery, so nothing is presupposed of the process that starts one.

## Main definitions

* `Log.FirstFailure`: the first of the unfinished histories that does not replay.
* `Node.Refused`: a call that has read the log and has given up.
* `Role.ReplaysFirst`: an operation that replays what is unfinished before it does anything.

## Main results

* `impossible_history_stops_recovery`: both recoveries replay first.
-/

namespace AtomicCommit

namespace Log

variable {ε α β : Type}

/-- A list is gone through up to the first element that fails, and no further. -/
theorem mapM_eq_error_of_mem {f : α → Except ε β} {l : List α} {a : α} (member : a ∈ l)
    (bad : ∃ failure, f a = .error failure) :
    ∃ before b after failure, l = before ++ b :: after ∧ (∀ x ∈ before, ∃ y, f x = .ok y) ∧
      f b = .error failure ∧ l.mapM f = .error failure := by
  induction l with
  | nil => cases member
  | cons x rest ih =>
    rw [List.mapM_cons]
    cases first : f x with
    | error failure => exact ⟨[], x, rest, failure, rfl, by simp, first, rfl⟩
    | ok y =>
      have later : a ∈ rest := by
        rcases List.mem_cons.1 member with rfl | later
        · obtain ⟨failure, failed⟩ := bad
          cases first.symm.trans failed
        · exact later
      obtain ⟨before, b, after, failure, rfl, fine, failed, stopped⟩ := ih later
      refine ⟨x :: before, b, after, failure, rfl, ?_, failed, ?_⟩
      · simpa [first] using fine
      · rw [stopped]
        rfl

/-- The first unfinished transaction of an actor whose entries do not replay, and the reason. -/
structure FirstFailure (replay : List Entry → Except StateError α) (log : List Entry)
    (actor : ProcessId) (tx : TransactionId) (reason : StateError) : Prop where
  /-- Those before it replay. -/
  first : ∃ before after, unfinished log actor = before ++ tx :: after ∧
    ∀ tx' ∈ before, ∃ a, replay (history log actor tx') = .ok a
  /-- Its entries do not. -/
  failure : replay (history log actor tx) = .error reason

/-- If any unfinished history does not replay, neither does the scan, for the reason of the first
such history. -/
theorem exists_firstFailure {replay : List Entry → Except StateError α} {log : List Entry}
    {actor : ProcessId}
    (impossible : ∃ tx ∈ unfinished log actor, ∃ failure,
      replay (history log actor tx) = .error failure) :
    ∃ tx reason, FirstFailure replay log actor tx reason ∧
      (groupByTransaction (scanIncomplete log actor)).mapM replay = .error reason := by
  obtain ⟨tx, listed, bad⟩ := impossible
  obtain ⟨before, tx', after, reason, split, fine, failure, stopped⟩ :=
    mapM_eq_error_of_mem (f := fun tx => replay (history log actor tx)) listed bad
  refine ⟨tx', reason, ⟨⟨before, after, split, fine⟩, failure⟩, ?_⟩
  rw [groupByTransaction_scan, transactions_scanIncomplete, List.mapM_map]
  exact stopped

end Log

/-! ## What a recovery does first -/

namespace Node

variable {R : Role}

/-- The process after a call that has read the log and given up with the result: two moments of the
call are new, and the call is over. -/
def refused (n : Node R) (call : ℕ) (op : R.Operation) (result : R.Result op) : Node R where
  toScene := (n.note call (.answered (.inl (.scan R.name))
    (.ok (Log.scanIncomplete n.log R.name)))).note call (.returned op result)
  threads := Function.update n.threads call none

end Node

namespace Role

variable {R : Role} {α : Type}

/-- An operation replays what is unfinished before it does anything. Whenever it starts, in any
state of the process, it asks for the entries and rests, and log and memory are as they were. If
an unfinished history does not replay when it is answered, whatever has happened meanwhile, it ends
with the reason of the first such history and has done nothing else. -/
def ReplaysFirst (R : Role) (op : R.Operation) (replay : List Entry → Except StateError α)
    (failed : StateError → R.Result op) : Prop :=
  ∀ (n₀ n₁ : Node R) (allows : R.Operation → Moment R → Prop) (call : ℕ),
    n₀.Reacts allows (.started call op) n₁ →
    n₁.toScene = (n₀.note call (.started op)).note call (.asked (.inl (.scan R.name))) ∧
    ∃ t, n₁.threads call = some t ∧
      ∀ (n : Node R) (allows : R.Operation → Moment R → Prop), n.threads call = some t →
        (∃ tx ∈ Log.unfinished n.log R.name, ∃ failure,
          replay (Log.history n.log R.name tx) = .error failure) →
        ∃ tx reason, Log.FirstFailure replay n.log R.name tx reason ∧
          (∀ entries n',
            n.Reacts allows (.answered call op (.inl (.scan R.name)) (.ok entries)) n' →
            n' = n.refused call op (failed reason)) ∧
          (allows op ⟨call, .answered (.inl (.scan R.name))
              (.ok (Log.scanIncomplete n.log R.name)), n.log⟩ →
            n.Reacts allows (.answered call op (.inl (.scan R.name))
              (.ok (Log.scanIncomplete n.log R.name))) (n.refused call op (failed reason)))

/-- An operation replays first if its program asks for the entries at once and ends if they do not
replay. -/
theorem replaysFirst_of_program {op : R.Operation} {replay : List Entry → Except StateError α}
    {failed : StateError → R.Result op}
    {next : R.Answer (.inl (.scan R.name)) × R.Memory → R.Run op}
    (opens : ∀ memory, R.program op memory = .ask (.inl (.scan R.name), memory) next)
    (stops : ∀ entries memory reason,
      (Log.groupByTransaction entries).mapM replay = .error reason →
      next (.ok entries, memory) = .done (failed reason, memory)) :
    R.ReplaysFirst op replay failed := by
  intro n₀ n₁ allows call started
  obtain ⟨scene, rests⟩ : n₁.toScene =
      (n₀.note call (.started op)).note call (.asked (.inl (.scan R.name))) ∧
      n₁.threads call = some ⟨op, .inl (.scan R.name), next⟩ := by
    cases started with
    | start new allowed => simp [opens, Node.settle, Scene.note, Role.restsAt]
  refine ⟨scene, _, rests, ?_⟩
  intro n allows resting impossible
  obtain ⟨tx, reason, first, scanned⟩ := Log.exists_firstFailure impossible
  have answer : allows op ⟨call, .answered (.inl (.scan R.name))
        (.ok (Log.scanIncomplete n.log R.name)), n.log⟩ →
      n.Reacts allows (.answered call op (.inl (.scan R.name))
        (.ok (Log.scanIncomplete n.log R.name))) (n.refused call op (failed reason)) := by
    intro allowed
    have answers : R.Answers n.log (.inl (.scan R.name))
        (.ok (Log.scanIncomplete n.log R.name)) n.log := ⟨rfl, by rintro es ⟨⟩; rfl⟩
    have reacts := Node.Reacts.answer resting answers allowed
    dsimp only at reacts
    rw [stops _ n.memory reason scanned] at reacts
    exact reacts
  refine ⟨tx, reason, first, fun entries n' reacts => ?_, answer⟩
  obtain ⟨log, ⟨rfl, read⟩, rfl⟩ := reacts.of_rests resting
  obtain rfl := read entries rfl
  dsimp only
  rw [stops _ n.memory reason scanned]
  rfl

end Role

/-- The recovery of a coordinator replays first. -/
theorem Coordinator.recover_replaysFirst (c : Coordinator) :
    c.role.ReplaysFirst .recover Transaction.replay
      fun reason => .error (.inconsistent reason) := by
  apply Role.replaysFirst_of_program
  · intro memory
    simp only [Coordinator.run, Coordinator.recover, Action.program_bind, Action.program_mapError,
      Host.program_scan, Program.ask_bind]
    rfl
  · intro entries memory reason failed
    have replays : Coordinator.replayAll entries = .error reason := failed
    simp [replays, Except.mapError]

/-- So does the recovery of a participant. -/
theorem Participant.recover_replaysFirst (p : ProcessId) :
    (Participant.role p).ReplaysFirst .recover Record.replay
      fun reason => .error (.inconsistent reason) := by
  apply Role.replaysFirst_of_program
  · intro memory
    simp only [Participant.run, Participant.recover, Action.program_bind, Action.program_mapError,
      Host.program_scan, Program.ask_bind]
    rfl
  · intro entries memory reason failed
    have replays : Participant.replayAll entries = .error reason := by
      rw [Participant.replayAll, failed]
      rfl
    simp [replays, Except.mapError]

/-- **An impossible history stops recovery before it does anything.** Of whatever log and in
whatever state of the process, the recoveries of a coordinator and of a participant replay
first. -/
theorem impossible_history_stops_recovery :
    (∀ c : Coordinator, c.role.ReplaysFirst .recover Transaction.replay
      fun reason => .error (.inconsistent reason)) ∧
    ∀ p : ProcessId, (Participant.role p).ReplaysFirst .recover Record.replay
      fun reason => .error (.inconsistent reason) :=
  ⟨Coordinator.recover_replaysFirst, Participant.recover_replaysFirst⟩

/-- A log in which one transaction is prepared as it should be, and another has been prepared out of
nothing. -/
def outOfNothing : List Entry :=
  let participant : ProcessId := ⟨"participant"⟩
  let entry (tx : Nat) (previous : Option State) : Entry :=
    { transaction := ⟨tx⟩, actor := participant, previous, state := .prepared,
      payload := .prepared ⟨"coordinator"⟩ ⟨[1, 2]⟩, time := .epoch }
  [entry 1 (some .idle), entry 2 none]

/-- The participant that finds this log gives up, and has neither asked for the decision on the
first transaction nor had its payload restored. -/
theorem impossible_history_stops_recovery_outOfNothing :
    ∃ (n₁ n' : Node (Participant.role ⟨"participant"⟩)) (reason : StateError),
      ({ log := outOfNothing } : Node (Participant.role ⟨"participant"⟩)).Reacts (fun _ _ => True)
        (.started 0 .recover) n₁ ∧
      n₁.Reacts (fun _ _ => True) (.answered 0 .recover (.inl (.scan ⟨"participant"⟩))
        (.ok (Log.scanIncomplete outOfNothing ⟨"participant"⟩))) n' ∧
      n'.log = outOfNothing ∧ n'.memory = ∅ ∧ n'.past.map Moment.event =
        [.started .recover, .asked (.inl (.scan ⟨"participant"⟩)),
          .answered (.inl (.scan ⟨"participant"⟩))
            (.ok (Log.scanIncomplete outOfNothing ⟨"participant"⟩)),
          .returned .recover (.error (.inconsistent reason))] := by
  have started : ({ log := outOfNothing } : Node (Participant.role ⟨"participant"⟩)).Reacts
      (fun _ _ => True) (.started 0 .recover) _ := .start (by simp) trivial
  obtain ⟨scene, t, rests, stops⟩ :=
    impossible_history_stops_recovery.2 ⟨"participant"⟩ _ _ _ 0 started
  generalize Node.settle _ _ _ _ _ = n₁ at started scene rests stops
  obtain ⟨log, memory, past⟩ : n₁.log = outOfNothing ∧ n₁.memory = ∅ ∧
      n₁.past.map Moment.event =
        [.started .recover, .asked (.inl (.scan ⟨"participant"⟩))] := by
    rw [scene]
    exact ⟨rfl, rfl, rfl⟩
  obtain ⟨tx, reason, -, -, answered⟩ := stops n₁ (fun _ _ => True) rests
    ⟨⟨2⟩, by rw [log]; decide, _, by rw [log]; rfl⟩
  have reacts := answered trivial
  rw [log] at reacts
  refine ⟨n₁, _, reason, started, reacts, log, memory, ?_⟩
  simp [Node.refused, Scene.note, past, log]

end AtomicCommit
