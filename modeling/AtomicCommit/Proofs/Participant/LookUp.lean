import AtomicCommit.Proofs.Participant.Run
import AtomicCommit.Proofs.Process.Progress
import Mathlib.Logic.Relation

/-!
# What is told at once

Whoever is asked about a transaction looks it up, in memory or else in the log, and may have the
answer then. Such a call reads the log at most once, asks for nothing else, and leaves log and
memory as they are.

## Main definitions

* `Participant.Leads`: what a run may go on to.
* `Participant.StartsSince`, `Participant.JustEnded`: a call has started, or has just ended.
* `Participant.Tells`: an operation tells at once what it can of what is known of a transaction.
* `Participant.LooksUp`: what a call goes through that looks up a transaction and tells of it.
* `Participant.OnlyTells`: what the calls for an operation are told from some point of a run on.

## Main results

* `Participant.tells_of_record?`: operations that start by looking a transaction up.
* `Participant.onlyTells_of_leads`: what the calls for such an operation go through.
-/

namespace AtomicCommit.Participant

/-- What a run may go on to. -/
abbrev Leads (p : ProcessId) : Node (role p) → Node (role p) → Prop :=
  Relation.ReflTransGen fun n n' => n.Step (Allows p n) n'

variable {self : ProcessId} {n n' : Node (role self)} {call : ℕ} {op : Operation}
  {tx : TransactionId} {log : List Entry}

theorem Reachable.leads (h : Reachable self n) (leads : Leads self n n') : Reachable self n' := by
  induction leads with
  | refl => exact h
  | tail _ step ih => exact ih.step step

theorem Leads.grows (leads : Leads self n n') : n.toScene.Grows n'.toScene := by
  induction leads with
  | refl => exact .refl _
  | tail _ step ih => exact ih.trans step.grows

/-- A call has started between two points of a run. -/
def StartsSince {p : ProcessId} (n n' : Node (role p)) (call : ℕ) (op : Operation) : Prop :=
  ∃ log, ⟨call, .started op, log⟩ ∈ n'.past ∧ ⟨call, .started op, log⟩ ∉ n.past

/-- A call has just ended. -/
def JustEnded {p : ProcessId} (n : Node (role p)) (call : ℕ) (op : Operation)
    (result : op.Result) : Prop :=
  ∃ log, n.past.getLast? = some ⟨call, .returned op result, log⟩

theorem StartsSince.mono {n₁ : Node (role self)} (since : StartsSince n n₁ call op)
    (leads : Leads self n₁ n') : StartsSince n n' call op := by
  obtain ⟨log, started, later⟩ := since
  exact ⟨log, (Leads.grows leads).past.subset started, later⟩

/-- Who rests has rested before, or has started since. -/
theorem Leads.cases_of_rests (leads : Leads self n n') {t : Thread (role self)}
    (rests : n'.threads call = some t) :
    (∃ t', n.threads call = some t' ∧ t'.operation = t.operation) ∨
      StartsSince n n' call t.operation := by
  induction leads generalizing t with
  | refl => exact .inl ⟨t, rests, rfl⟩
  | @tail n₁ n' leads step ih =>
    rcases step.cases_of_rests rests with ⟨t₁, rests₁, same⟩ | ⟨new, log, started⟩
    · rcases ih rests₁ with ⟨t', rests', same'⟩ | since
      · exact .inl ⟨t', rests', same'.trans same⟩
      · exact .inr (same ▸ since.mono (.single step))
    · refine .inr ⟨log, started, fun old => ?_⟩
      exact new _ ((Leads.grows leads).past.subset old) rfl

/-! ## Operations that tell what is known -/

section Tells

variable {α ρ : Type}

/-- What is left of a call that reads the log: it ends with what it has read. -/
structure Reads (p : ProcessId) (tx : TransactionId) (answer : Option Record → Option ρ)
    (failed : LogError → ρ)
    (next : Except LogError (List Entry) × Memory →
      Program (interface.sharing Memory) (ρ × Memory)) : Prop where
  /-- What it has read is told, if this is the answer. -/
  found : ∀ entries found result memory,
    Record.replay (entries.filter fun e => e.actor = p) = .ok found → answer found = some result →
    next (.ok entries, memory) = .done (result, memory)
  /-- A failure to read is passed on. -/
  failed : ∀ failure memory, next (.error failure, memory) = .done (failed failure, memory)

/-- A program tells at once what it can of what is known of a transaction: from memory, or else from
the log. -/
structure Tells (p : ProcessId) (tx : TransactionId)
    (program : Memory → Program (interface.sharing Memory) (ρ × Memory))
    (answer : Option Record → Option ρ) (failed : LogError → ρ) : Prop where
  /-- What is in memory is told. -/
  remembers : ∀ memory r result, memory.get? tx = some r → answer (some r) = some result →
    program memory = .done (result, memory)
  /-- Otherwise the log is read. -/
  reads : ∀ memory, memory.get? tx = none → ∃ next, Reads p tx answer failed next ∧
    program memory = .ask (I := interface.sharing Memory) (.inl (.load tx), memory) next

/-- How a call goes on that has read the log to look up a transaction. -/
def onceRead (self : ProcessId) (next : Option Record → Step α) :
    Except LogError (List Entry) × Memory →
      Program (interface.sharing Memory) (Except CommitError α × Memory)
  | (.error failure, memory) => .done (.error (.log failure), memory)
  | (.ok entries, memory) =>
    match Record.replay (entries.filter fun e => e.actor = self) with
    | .ok found => (next found).program memory
    | .error contradiction => .done (.error (.invalidState contradiction), memory)

/-- An action that looks up a transaction goes on at once with the copy in memory, and reads the
log if there is none. -/
theorem program_record? (next : Option Record → Step α) (memory : Memory) :
    (record? self tx >>= next).program memory =
      match memory.get? tx with
      | some r => (next (some r)).program memory
      | none => .ask (I := interface.sharing Memory) (.inl (.load tx), memory)
          (onceRead self next) := by
  cases cached : memory.get? tx with
  | some r => simp [record?, Action.program_bind, cached]
  | none =>
    simp only [record?, Action.program_bind, Action.program_get, cached, Action.program_mapError,
      Host.program_history, Program.done_bind, Program.ask_bind]
    congr 1
    funext answered
    obtain ⟨reply, memory⟩ := answered
    cases reply with
    | error failure => rfl
    | ok entries =>
      simp only [Except.map, Except.mapError, Action.program_ofExcept, Program.done_bind, onceRead]
      cases Record.replay (entries.filter fun e => e.actor = self) <;> rfl

/-- An operation that looks up a transaction tells what it can of what is known. -/
theorem tells_of_record? {next : Option Record → Step α}
    {answer : Option Record → Option (Except CommitError α)}
    (told : ∀ found result memory, answer found = some result →
      (next found).program memory = .done (result, memory)) :
    Tells self tx (record? self tx >>= next).program answer
      (fun failure => .error (.log failure)) where
  remembers memory r result cached answered := by
    rw [program_record?, cached]
    exact told (some r) result memory answered
  reads memory uncached := by
    refine ⟨onceRead self next, ⟨?_, fun _ _ => rfl⟩, by rw [program_record?, uncached]⟩
    intro entries found result memory replay answered
    rw [onceRead, replay]
    exact told found result memory answered

end Tells

/-! ## What such a call goes through -/

/-- What a call goes through that looks up a transaction and tells of it: it is told from memory, or
the log is read, and the call ends once it has been. It asks for nothing else. -/
inductive LooksUp (p : ProcessId) (call : ℕ) (op : Operation) (tx : TransactionId)
    (result : op.Result) (failed : LogError → op.Result) : List (Moment (role p)) → Prop where
  /-- It ends at once. -/
  | remembered (log log' : List Entry) :
      LooksUp p call op tx result failed
        [⟨call, .started op, log⟩, ⟨call, .returned op result, log'⟩]
  /-- It waits for the log. -/
  | reading (log log' : List Entry) :
      LooksUp p call op tx result failed
        [⟨call, .started op, log⟩, ⟨call, .asked (.inl (.load tx)), log'⟩]
  /-- It has read the log. -/
  | read (entries log log' log₁ log₂ : List Entry) :
      LooksUp p call op tx result failed
        [⟨call, .started op, log⟩, ⟨call, .asked (.inl (.load tx)), log'⟩,
          ⟨call, .answered (.inl (.load tx)) (.ok entries), log₁⟩,
          ⟨call, .returned op result, log₂⟩]
  /-- The log could not be read. -/
  | unread (failure : LogError) (log log' log₁ log₂ : List Entry) :
      LooksUp p call op tx result failed
        [⟨call, .started op, log⟩, ⟨call, .asked (.inl (.load tx)), log'⟩,
          ⟨call, .answered (.inl (.load tx)) (.error failure), log₁⟩,
          ⟨call, .returned op (failed failure), log₂⟩]

/-- In a step a call does nothing, or nothing to log and memory. -/
def Spares {p : ProcessId} (n n' : Node (role p)) (call : ℕ) : Prop :=
  momentsOf n'.past call = momentsOf n.past call ∨ n'.log = n.log ∧ n'.memory = n.memory

/-- From some point of a run on, every call for an operation looks a transaction up, is told what it
says, and does nothing to log and memory. -/
structure OnlyTells (p : ProcessId) (n n' : Node (role p)) (op : Operation) (tx : TransactionId)
    (result : op.Result) (failed : LogError → op.Result) : Prop where
  /-- What such a call has gone through. -/
  trace : ∀ call, StartsSince n n' call op →
    LooksUp p call op tx result failed (momentsOf n'.past call)
  /-- What it does next. -/
  spares : ∀ n'' call, n'.Step (Allows p n') n'' → StartsSince n n'' call op → Spares n' n'' call

/-- How far a call has come that looks up a transaction: while it rests it waits for the log. -/
structure Recalls (p : ProcessId) (n : Node (role p)) (call : ℕ) (op : Operation)
    (tx : TransactionId) (answer : Option Record → Option op.Result) (result : op.Result)
    (failed : LogError → op.Result) : Prop where
  /-- What it has gone through. -/
  trace : LooksUp p call op tx result failed (momentsOf n.past call)
  /-- What it waits for. -/
  rests : ∀ t, n.threads call = some t → ∃ next log log', Reads p tx answer failed next ∧
    t = { operation := op, question := .inl (.load tx), next } ∧
    momentsOf n.past call =
      [⟨call, .started op, log⟩, ⟨call, .asked (.inl (.load tx)), log'⟩]

section Recalls

variable {answer : Option Record → Option op.Result} {result : op.Result}
  {failed : LogError → op.Result} {found : Option Record}
  {allows : Operation → Moment (role self) → Prop}

/-- What others do leaves the call where it is. -/
theorem Recalls.of_same (h : Recalls self n call op tx answer result failed)
    (moments : momentsOf n'.past call = momentsOf n.past call)
    (threads : n'.threads call = n.threads call ∨ n'.threads call = none) :
    Recalls self n' call op tx answer result failed := by
  constructor
  · rw [moments]
    exact h.trace
  · intro t rests
    rw [moments]
    rcases threads with same | lost
    · exact h.rests t (same ▸ rests)
    · rw [lost] at rests
      cases rests

/-- A call that starts when the answer is known. -/
theorem recalls_of_start (holds : (discipline self).Holds n) (sees : Sees self n.log tx found)
    (tells : Tells self tx ((role self).program op) answer failed)
    (answered : answer found = some result) (new : n.Unstarted call)
    (starts : n' = Node.settle (n.note call (.started op)) n.threads call op
      ((role self).program op n.memory)) :
    Recalls self n' call op tx answer result failed ∧ Spares n n' call := by
  have none : momentsOf n.past call = [] := momentsOf_others new
  subst starts
  cases cached : n.memory.get? tx with
  | some r =>
    obtain rfl : some r = found := sees_unique (Kept.history (holds.kept tx) cached) sees
    rw [tells.remembers _ _ _ cached answered]
    refine ⟨⟨?_, ?_⟩, .inr ⟨rfl, rfl⟩⟩
    · simp only [Node.settle, momentsOf_note, none]
      exact .remembered _ _
    · intro t rests
      simp [Node.settle] at rests
  | none =>
    obtain ⟨next, reads, program⟩ := tells.reads _ cached
    rw [program]
    have moments : momentsOf (Node.settle (n.note call (.started op)) n.threads call op
        (.ask (I := interface.sharing Memory) (.inl (.load tx), n.memory) next)).past call =
          [⟨call, .started op, n.log⟩, ⟨call, .asked (.inl (.load tx)), n.log⟩] := by
      simp only [Node.settle, momentsOf_note, none]
      rfl
    refine ⟨⟨?_, ?_⟩, .inr ⟨rfl, rfl⟩⟩
    · rw [moments]
      exact .reading _ _
    · intro t rests
      rw [Node.threads_settle_ask (restsAt ..)] at rests
      exact ⟨next, _, _, reads, (Option.some.inj rests).symm, moments⟩

/-- A call that rests is answered, and ends. -/
theorem Recalls.answered (h : Recalls self n call op tx answer result failed)
    (sees : Sees self n.log tx found) (answered : answer found = some result)
    {t : Thread (role self)} {a : (role self).Answer t.question} (rests : n.threads call = some t)
    (answers : (role self).Answers n.log t.question a log)
    (goesOn : n' = Node.settle ({ n.toScene with log }.note call (.answered t.question a)) n.threads
      call t.operation (t.next (a, n.memory))) :
    Recalls self n' call op tx answer result failed ∧ Spares n n' call := by
  obtain ⟨next, log₁, log₂, reads, rfl, moments⟩ := h.rests t rests
  obtain ⟨rfl, loaded⟩ : log = n.log ∧ ∀ es, a = .ok es → es = Log.load n.log tx := answers
  subst goesOn
  cases a with
  | ok entries =>
    obtain rfl := loaded entries rfl
    dsimp only
    rw [reads.found _ found result _ sees.replay answered]
    refine ⟨⟨?_, ?_⟩, .inr ⟨rfl, rfl⟩⟩
    · simp only [Node.settle, momentsOf_note, moments]
      exact .read _ _ _ _ _
    · intro t rests
      simp [Node.settle] at rests
  | error failure =>
    dsimp only
    rw [reads.failed]
    refine ⟨⟨?_, ?_⟩, .inr ⟨rfl, rfl⟩⟩
    · simp only [Node.settle, momentsOf_note, moments]
      exact .unread _ _ _ _ _
    · intro t rests
      simp [Node.settle] at rests

/-- A call that looks up a transaction goes on so in a step. -/
theorem Recalls.step (h : Recalls self n call op tx answer result failed)
    (sees : Sees self n.log tx found) (answered : answer found = some result)
    (begun : ¬n.Unstarted call) (step : n.Step allows n') :
    Recalls self n' call op tx answer result failed ∧ Spares n n' call := by
  rcases step.cases_of_old begun with
    ⟨threads, moments⟩ | ⟨t, a, log, rests, answers, -, goesOn⟩
  · exact ⟨h.of_same moments threads, .inl moments⟩
  · exact h.answered sees answered rests answers goesOn

/-- So does one that starts in it. -/
theorem recalls_of_step (holds : (discipline self).Holds n) (sees : Sees self n.log tx found)
    (tells : Tells self tx ((role self).program op) answer failed)
    (answered : answer found = some result) (step : n.Step allows n')
    (started : ⟨call, .started op, log⟩ ∈ n'.past) (later : ⟨call, .started op, log⟩ ∉ n.past) :
    Recalls self n' call op tx answer result failed ∧ Spares n n' call := by
  rcases step.cases_of_started started with old | ⟨-, new, -, starts⟩
  · exact absurd old later
  · exact recalls_of_start holds sees tells answered new starts

/-- While the answer to an operation is known, a call for it looks the transaction up and does
nothing else. -/
theorem recalls_of_leads (h : Reachable self n)
    (tells : Tells self tx ((role self).program op) answer failed) (leads : Leads self n n')
    (known : ∀ n₁, Leads self n n₁ → Leads self n₁ n' →
      ∃ found, Sees self n₁.log tx found ∧ answer found = some result)
    (started : ⟨call, .started op, log⟩ ∈ n'.past) (later : ⟨call, .started op, log⟩ ∉ n.past) :
    Recalls self n' call op tx answer result failed := by
  induction leads with
  | refl => exact absurd started later
  | @tail n₁ n' leads step ih =>
    obtain ⟨found, sees, answered⟩ := known n₁ leads (.single step)
    by_cases old : ⟨call, .started op, log⟩ ∈ n₁.past
    · have recalls := ih (fun n₂ before after => known n₂ before (after.tail step)) old
      exact (recalls.step sees answered (Node.old_of_mem old) step).1
    · have holds := (h.leads leads).holds
      exact (recalls_of_step holds sees tells answered step started old).1

/-- So do all calls for it. -/
theorem onlyTells_of_leads (h : Reachable self n)
    (tells : Tells self tx ((role self).program op) answer failed) (leads : Leads self n n')
    (known : ∀ n₁, Leads self n n₁ → Leads self n₁ n' →
      ∃ found, Sees self n₁.log tx found ∧ answer found = some result) :
    OnlyTells self n n' op tx result failed where
  trace call since := by
    obtain ⟨log, started, later⟩ := since
    exact (recalls_of_leads h tells leads known started later).trace
  spares n'' call step since := by
    obtain ⟨log, started, later⟩ := since
    obtain ⟨found, sees, answered⟩ := known n' leads .refl
    by_cases old : ⟨call, .started op, log⟩ ∈ n'.past
    · have recalls := recalls_of_leads h tells leads known old later
      exact (recalls.step sees answered (Node.old_of_mem old) step).2
    · have holds := (h.leads leads).holds
      exact (recalls_of_step holds sees tells answered step started old).2

end Recalls

end AtomicCommit.Participant
