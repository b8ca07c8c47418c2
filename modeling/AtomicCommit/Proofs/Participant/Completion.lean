import AtomicCommit.Proofs.Participant.Acquiring
import AtomicCommit.Proofs.Participant.Smooth

/-!
# What is prepared can be finished

Three branches of a participant stand ready for a prepared record without its coordinator or its
payload: a recovery gives up, a decision is refused, and the resource manager is passed over. None
is ever taken, from whatever log a run starts: what is replayed can be finished, and a run puts
nothing else into memory.

## Main definitions

* `Participant.Arises`: what a participant may come to from a log.
* `Participant.Vouched`: what is prepared in memory after a step has been obtained.

## Main results

* `Participant.prepared_can_be_finished`: what is replayed can be finished, and no run meets
  anything prepared that can not.
-/

namespace AtomicCommit.Participant

variable {self : ProcessId} {memory : Memory} {r : Record} {n n' : Node (role self)}

/-- What a participant may come to from a log, whatever it is asked and answered, and whoever else
writes into the log. -/
inductive Arises (p : ProcessId) (log : List Entry) : Node (role p) → Prop where
  /-- It has not started. -/
  | initial : Arises p log { log }
  /-- Something happens. -/
  | step {n n' : Node (role p)} (before : Arises p log n) (step : n.Step (fun _ _ => True) n') :
      Arises p log n'

/-- A call that rests keeps to the contract when it goes on. -/
def Steady (p : ProcessId) (t : Thread (role p)) : Prop :=
  ∀ a log log', (role p).Answers log t.question a.1 log' → Equipped a.2 →
    (t.next a).Meets (acquiring p)
      (fun outcome w => w.Leaves outcome.2 ∧ Furnished t.operation outcome.1)
      ⟨.answered t.question a.1, a.2⟩

/-- What holds at every moment of a run. -/
structure Orderly {p : ProcessId} (n : Node (role p)) : Prop where
  /-- All that is in memory can be finished. -/
  equipped : Equipped n.memory
  /-- All that rests goes on so. -/
  steady : ∀ call t, n.threads call = some t → Steady p t
  /-- No call has ended for want of a payload or of a coordinator. -/
  furnished : ∀ call op result log, ⟨call, .returned op result, log⟩ ∈ n.past → Furnished op result

/-- Whatever is prepared in memory after a step was there before, or the step begins with an event
by which it has been obtained. -/
def Vouched {p : ProcessId} (n n' : Node (role p)) : Prop :=
  ∀ tx r, n'.memory.get? tx = some r → r.state = .prepared → n.memory.get? tx = some r ∨
    ∃ m rest, n'.past = n.past ++ m :: rest ∧ Obtains p r m.event

/-- What a call leaves behind when it rests or ends. -/
theorem Orderly.settle {log : List Entry} {call : ℕ} {op : Operation} {event : Event (role self)}
    {p : (role self).Run op} (h : Orderly n) (unreturned : ∀ op result, event ≠ .returned op result)
    (meets : p.Meets (acquiring self)
      (fun outcome w => w.Leaves outcome.2 ∧ Furnished op outcome.1) ⟨event, n.memory⟩) :
    let n' := Node.settle (({ n.toScene with log } : Scene (role self)).note call event) n.threads
      call op p
    Orderly n' ∧ Vouched n n' := by
  generalize scene : ({ n.toScene with log } : Scene (role self)).note call event = s
  have begun : s.past = n.past ++ [⟨call, event, log⟩] := by rw [← scene]; rfl
  have leaves : (⟨event, n.memory⟩ : Cause self).Leaves
      (Node.settle s n.threads call op p).memory := by
    cases p with
    | done outcome => exact meets.1
    | ask q next => exact meets.1
  refine ⟨⟨leaves.equipped, ?_, ?_⟩, ?_⟩
  · intro other t rests
    rcases Node.cases_of_rests_settle rests with ⟨-, earlier⟩ | ⟨-, q, next, rfl, rfl⟩
    · exact h.steady other t earlier
    · exact fun a log log' answers equipped => meets.2 a _ ⟨⟨log, log', answers⟩, equipped, rfl⟩
  · intro other op' result log' returned
    rcases Node.cases_of_returned_settle returned with old | ⟨outcome, rfl, same⟩
    · rw [begun] at old
      rcases List.mem_append.1 old with old | last
      · exact h.furnished other op' result log' old
      · cases List.mem_singleton.1 last
        exact absurd rfl (unreturned op' result)
    · cases same
      exact meets.2
  · intro tx r there prepared
    refine (leaves.obtained tx r there prepared).imp_right fun obtains => ?_
    obtain ⟨last, past, -⟩ := Node.settle_past s n.threads call op p
    exact ⟨⟨call, event, log⟩, [⟨call, last, s.log⟩], by simp [past, begun], obtains⟩

/-- What comes into memory in a step can be finished, and is vouched for. -/
theorem Orderly.step {allows : Operation → Moment (role self) → Prop} (h : Orderly n)
    (step : n.Step allows n') : Orderly n' ∧ Vouched n n' := by
  cases step with
  | @start call op new allowed =>
    have begun : (⟨.started op, n.memory⟩ : Cause self).Leaves n.memory := h.equipped.leaves _
    exact h.settle (fun _ _ => nofun) (completes_run self op begun)
  | @answer call t a log rests answers allowed =>
    exact h.settle (fun _ _ => nofun)
      (h.steady call t rests (a, n.memory) n.log log answers h.equipped)
  | restart =>
    exact ⟨⟨by simp [Equipped], by simp, h.furnished⟩, by simp [Vouched]⟩
  | @share e other => exact ⟨⟨h.equipped, h.steady, h.furnished⟩, fun _ _ there _ => .inl there⟩

theorem Arises.orderly {log : List Entry} (h : Arises self log n) : Orderly n := by
  induction h with
  | initial => exact ⟨by simp [Equipped], by simp, by simp⟩
  | step _ step ih => exact (ih.step step).1

/-- What has been prepared is taken hold of before it comes back into memory. -/
theorem program_restore {payload : PreparedPayload} (absent : memory.contains r.transaction = false)
    (prepared : r.state = .prepared) (carried : r.payload = some payload) :
    ∃ next, (restore r : Step Bool).program memory =
      .ask (I := interface.sharing Memory) (.inr (.restore payload), memory) next := by
  simp only [restore, Action.program_bind, Action.program_get, Program.done_bind, absent,
    Bool.false_eq_true, if_false, prepared, carried, program_reacquire, Program.ask_bind]
  exact ⟨_, rfl⟩

/-- **What is prepared can be finished.** Whatever entries are replayed, if there are any, the
record is not idle, and if it is prepared or committed it has the coordinator, the assent and the
payload of the only entry that leads to the prepared state. What is replayed and prepared is taken
hold of before it comes back into memory, and a decision never fails for want of a payload.

So it is in every run, from whatever log and with whatever answers: all that is in memory can be
finished, no decision has failed for want of a payload and no recovery for want of a coordinator,
and what comes into memory prepared has been obtained in this very step. -/
theorem prepared_can_be_finished :
    (∀ es found, Record.replay es = .ok found → es ≠ [] → ∃ r, found = some r ∧
      r.state ≠ .idle ∧ (r.state = .prepared ∨ r.state = .committed →
        ∃ e coordinator payload, r.PreparedBy es e coordinator payload)) ∧
    (∀ es r (memory : Memory), Record.replay es = .ok (some r) → r.state = .prepared →
      memory.contains r.transaction = false → ∃ payload next, r.payload = some payload ∧
        (restore r : Step Bool).program memory =
          .ask (I := interface.sharing Memory) (.inr (.restore payload), memory) next) ∧
    (∀ p tx d, Completes p (handleDecision p tx d) (fun _ => True) HasPayload) ∧
    ∀ p log (n : Node (role p)), Arises p log n →
      Equipped n.memory ∧
      (∀ call tx d failure log',
        ⟨call, .returned (.handleDecision tx d) (.error failure), log'⟩ ∈ n.past →
        HasPayload failure) ∧
      (∀ call failure log', ⟨call, .returned .recover (.error failure), log'⟩ ∈ n.past →
        HasCoordinator failure) ∧
      ∀ n' : Node (role p), n.Step (fun _ _ => True) n' → Vouched n n' := by
  refine ⟨?_, ?_, fun p => completes_handleDecision p, ?_⟩
  · intro es found replayed nonempty
    cases found with
    | none => exact absurd (Record.eq_nil_of_replay replayed) nonempty
    | some r =>
      exact ⟨r, rfl, Record.begun_of_replay replayed, Record.exists_preparedBy_of_replay replayed⟩
  · intro es r memory replayed prepared absent
    obtain ⟨_, _, payload, by_⟩ := Record.exists_preparedBy_of_replay replayed (.inl prepared)
    obtain ⟨next, asks⟩ := program_restore absent prepared by_.payload
    exact ⟨payload, next, by_.payload, asks⟩
  · intro p log n arises
    have orderly := arises.orderly
    refine ⟨orderly.equipped, ?_, ?_, fun n' step => (orderly.step step).2⟩
    · intro call tx d failure log' returned
      exact orderly.furnished _ _ _ _ returned failure rfl
    · intro call failure log' returned
      exact orderly.furnished _ _ _ _ returned failure rfl

/-! ## A recovery from a log that holds an assent -/

/-- The log of an assent. -/
def assentLog : List Entry := (Record.assentThen .committed (.resolved .commit)).take 1

/-- Who has assented. -/
abbrev assenter : ProcessId := ⟨"participant"⟩

/-- It recovers, and is to have its resource manager take hold of what it had prepared. -/
def reacquiringRun : Node (role assenter) :=
  (({ log := assentLog } : Node (role assenter)).opens 0 .recover).moves
    { outside := willing assenter } 0

/-- It has done so, and asks for the decision. -/
def reacquiredRun : Node (role assenter) := reacquiringRun.moves { outside := willing assenter } 0

theorem arises_reacquiringRun :
    Arises assenter assentLog reacquiringRun ∧
      reacquiringRun.Step (fun _ _ => True) reacquiredRun := by
  have attains : Node.Attains (Arises assenter assentLog) (fun _ _ _ => True) (willing assenter) :=
    { step := fun _ _ before step => before.step step
      host := fun _ _ _ _ _ _ _ => trivial
      outside := fun _ _ _ _ _ _ _ _ => trivial }
  have alone : ({ log := assentLog } : Node (role assenter)).Alone 0 := fun _ _ => rfl
  have opened : Arises assenter assentLog
      (({ log := assentLog } : Node (role assenter)).opens 0 .recover) :=
    .step .initial (.start (by simp) trivial)
  have alone' : reacquiringRun.Alone 0 := Node.alone_moves (Node.alone_opens alone)
  refine ⟨attains.moves _ opened (Node.alone_opens alone), ?_⟩
  exact attains.step_moves { outside := willing assenter } alone' rfl (by rintro _ ⟨⟩; rfl)

/-- The record of the assent is prepared and can be finished: it names the coordinator, and the
resource manager has taken hold of what it had prepared when the record comes into memory. -/
theorem prepared_can_be_finished_reacquiredRun :
    ∃ r, Record.replay assentLog = .ok (some r) ∧ r.state = .prepared ∧
      (∃ e, r.PreparedBy assentLog e ⟨"coordinator"⟩ ⟨[1, 2]⟩) ∧ r.Finishable ∧
      reacquiredRun.memory.get? ⟨1⟩ = some r ∧ reacquiringRun.memory.get? ⟨1⟩ = none ∧
      ∃ m rest, reacquiredRun.past = reacquiringRun.past ++ m :: rest ∧
        Obtains assenter r m.event := by
  obtain ⟨arises, step⟩ := arises_reacquiringRun
  have replayed : Record.replay assentLog = .ok (some (Record.assented .prepared .yes)) := rfl
  have there : reacquiredRun.memory.get? ⟨1⟩ = some (Record.assented .prepared .yes) := by
    decide +kernel
  have absent : reacquiringRun.memory.get? ⟨1⟩ = none := by decide +kernel
  obtain ⟨replays, -, -, runs⟩ := prepared_can_be_finished
  obtain ⟨_, ⟨⟩, -, prepares⟩ := replays _ _ replayed (by decide)
  obtain ⟨e, coordinator, payload, by_⟩ := prepares (.inl rfl)
  obtain rfl : ⟨"coordinator"⟩ = coordinator := Option.some.inj by_.coordinator
  obtain rfl : ⟨[1, 2]⟩ = payload := Option.some.inj by_.payload
  have equipped := (runs _ _ _ (arises.step step)).1
  have obtained := ((runs _ _ _ arises).2.2.2 _ step _ _ there rfl).resolve_left
    (by rw [absent]; nofun)
  exact ⟨_, replayed, rfl, ⟨e, by_⟩, equipped _ _ there, there, absent, obtained⟩

end AtomicCommit.Participant
