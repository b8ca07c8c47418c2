import AtomicCommit.Host
import AtomicCommit.Log.History
import AtomicCommit.Sorted.Map
import Mathlib.Data.List.Infix
import Mathlib.Logic.Function.Basic

/-!
# Runs of a process

A process carries out operations, each by a call of its own. A call runs until it asks a question
and rests until the answer comes; meanwhile other calls may run. A restart loses the memory and all
calls, and leaves the log. What a process did and was told is kept as its past, each moment with
the log as it stood then.

## Main definitions

* `Role`: what a process may be asked to do, and the programs that do it.
* `Event`, `Moment`, `Scene`: what a process has been through, and what it has.
* `Node`, `Node.Step`: a process with its resting calls, and what may happen to it.

## Main results

* `Node.Step.grows`: a step only adds to the past and the log.
* `Node.Step.log`: what a step may add to the log.
* `Node.Step.started`, `Node.Step.answered`: what is new has been allowed.
-/

namespace AtomicCommit

/-- A kind of process: its operations and the programs that carry them out. -/
structure Role where
  /-- The name under which it logs. -/
  name : ProcessId
  /-- What it may ask besides its host. -/
  surroundings : Interface
  /-- The questions by which a call is over, without a result. -/
  fatal : surroundings.Request → Bool := fun _ => false
  /-- They have no answer. -/
  mute : ∀ q, fatal q = true → IsEmpty (surroundings.Answer q) := by nofun
  /-- What it keeps in memory of a transaction. -/
  Copy : Type
  /-- What it may be asked to do. -/
  Operation : Type
  /-- The result of an operation. -/
  Result : Operation → Type
  /-- The program of an operation on a memory. -/
  program (op : Operation) (memory : SortedMap TransactionId Copy) :
    Program ((Host.beside surroundings).sharing (SortedMap TransactionId Copy))
      (Result op × SortedMap TransactionId Copy)

namespace Role

variable (R : Role)

/-- All it may ask. -/
abbrev interface : Interface := Host.beside R.surroundings

/-- The memory of a process. -/
abbrev Memory : Type := SortedMap TransactionId R.Copy

/-- A question. -/
abbrev Request : Type := R.interface.Request

/-- An answer. -/
abbrev Answer (q : R.Request) : Type := R.interface.Answer q

/-- Whether a call rests at a question. -/
def restsAt : R.Request → Bool
  | .inl _ => true
  | .inr q => !R.fatal q

variable {R} in
@[simp] theorem restsAt_inl (q : Host.Request) : R.restsAt (.inl q) = true := rfl

/-- A call rests at what has an answer. -/
theorem restsAt_of_answer {q : R.Request} (a : R.Answer q) : R.restsAt q = true := by
  cases q with
  | inl q => rfl
  | inr q =>
    rw [restsAt, Bool.not_eq_true', ← Bool.not_eq_true]
    exact fun fatal => (R.mute q fatal).elim a

/-- What is left to be done for an operation. -/
abbrev Run (op : R.Operation) : Type :=
  Program (R.interface.sharing R.Memory) (R.Result op × R.Memory)

end Role

/-- How a host with a log may answer, and the log after it: an entry is stored or an error is given,
and what is read is what the log holds. -/
def Host.Answers (log : List Entry) : (q : Host.Request) → Host.Answer q → List Entry → Prop
  | .now, _, log' => log' = log
  | .append e, .ok _, log' => log' = log ++ [e]
  | .append _, .error _, log' => log' = log
  | .load tx, found, log' => log' = log ∧ ∀ es, found = .ok es → es = Log.load log tx
  | .scan actor, found, log' =>
    log' = log ∧ ∀ es, found = .ok es → es = Log.scanIncomplete log actor

/-- How the log comes out of an answer; only the host's answers touch it. -/
def Role.Answers (R : Role) (log : List Entry) : (q : R.Request) → R.Answer q → List Entry → Prop
  | .inl q, a, log' => Host.Answers log q a log'
  | .inr _, _, log' => log' = log

/-- The entries that an answer of the host adds. -/
theorem Role.answers_log {R : Role} {log log' : List Entry} {q : R.Request} {a : R.Answer q}
    (h : R.Answers log q a log') :
    log' = log ∨ ∃ e, q = .inl (.append e) ∧ HEq a (.ok () : Except LogError Unit) ∧
      log' = log ++ [e] := by
  cases q with
  | inr q => exact .inl h
  | inl q =>
    cases q with
    | now => exact .inl h
    | load tx => exact .inl h.1
    | scan actor => exact .inl h.1
    | append e =>
      cases a with
      | error failure => exact .inl h
      | ok u => exact .inr ⟨e, rfl, HEq.rfl, h⟩

/-- The log after an answer is determined by the answer. -/
theorem Role.answers_unique {R : Role} {log log₁ log₂ : List Entry} {q : R.Request} {a : R.Answer q}
    (h : R.Answers log q a log₁) (h' : R.Answers log q a log₂) : log₂ = log₁ := by
  rcases q with q | q
  · cases q with
    | now => exact Eq.trans h' (Eq.symm h)
    | load tx => exact h'.1.trans h.1.symm
    | scan actor => exact h'.1.trans h.1.symm
    | append e =>
      cases a with
      | ok _ => exact Eq.trans h' (Eq.symm h)
      | error _ => exact Eq.trans h' (Eq.symm h)
  · exact Eq.trans h' (Eq.symm h)

/-- Whether a question is to store an entry. -/
def Role.stores (R : Role) : R.Request → Bool
  | .inl (.append _) => true
  | _ => false

theorem Role.ne_append_of_stores {R : Role} {q : R.Request} (h : R.stores q = false) (e : Entry) :
    q ≠ .inl (.append e) := by
  rintro rfl
  cases h

/-- What a call goes through. -/
inductive Event (R : Role) where
  /-- It starts. -/
  | started (op : R.Operation)
  /-- It asks and rests. -/
  | asked (q : R.Request)
  /-- It is answered. -/
  | answered (q : R.Request) (a : R.Answer q)
  /-- It ends. -/
  | returned (op : R.Operation) (result : R.Result op)

/-- An event of a call, with the log as it stands then. -/
structure Moment (R : Role) where
  /-- The number of the call. -/
  call : ℕ
  /-- The event. -/
  event : Event R
  /-- The log right after it. -/
  log : List Entry

/-- What a process has: its log, its memory, and what it has been through. -/
structure Scene (R : Role) where
  /-- The log. -/
  log : List Entry := []
  /-- The memory. -/
  memory : R.Memory := ∅
  /-- The past, in order. -/
  past : List (Moment R) := []

/-- The scene after one more event of a call. -/
def Scene.note {R : Role} (s : Scene R) (call : ℕ) (event : Event R) : Scene R :=
  { s with past := s.past ++ [⟨call, event, s.log⟩] }

/-- More has happened, and more is logged. -/
structure Scene.Grows {R : Role} (s s' : Scene R) : Prop where
  /-- The past has grown. -/
  past : s.past <+: s'.past
  /-- The log has grown. -/
  log : s.log <+: s'.log

theorem Scene.Grows.refl {R : Role} (s : Scene R) : s.Grows s :=
  ⟨List.prefix_rfl, List.prefix_rfl⟩

theorem Scene.Grows.trans {R : Role} {s₁ s₂ s₃ : Scene R} (h : s₁.Grows s₂) (h' : s₂.Grows s₃) :
    s₁.Grows s₃ :=
  ⟨h.past.trans h'.past, h.log.trans h'.log⟩

/-- A call that rests. -/
structure Thread (R : Role) where
  /-- The operation it carries out. -/
  operation : R.Operation
  /-- The question it rests at. -/
  question : R.Request
  /-- How it goes on. -/
  next : R.Answer question × R.Memory → R.Run operation

/-- A process with its resting calls. -/
structure Node (R : Role) extends Scene R where
  /-- The resting call of each number. -/
  threads : ℕ → Option (Thread R) := fun _ => none

namespace Node

variable {R : Role}

/-- The node once a running call comes to rest or to its end; it rests at no question that is
fatal. -/
def settle (s : Scene R) (threads : ℕ → Option (Thread R)) (call : ℕ) (op : R.Operation) :
    R.Run op → Node R
  | .done (result, memory) =>
    { toScene := { s with memory }.note call (.returned op result)
      threads := Function.update threads call none }
  | .ask (question, memory) next =>
    { toScene := { s with memory }.note call (.asked question)
      threads := Function.update threads call
        (if R.restsAt question then some { operation := op, question, next } else none) }

/-- What may happen to a process in which a call for an operation may start or be answered when
`allows` says so. -/
inductive Step (allows : R.Operation → Moment R → Prop) (n : Node R) : Node R → Prop where
  /-- A new call runs until it rests. -/
  | start {call : ℕ} {op : R.Operation} (new : ∀ m ∈ n.past, m.call ≠ call)
      (allowed : allows op ⟨call, .started op, n.log⟩) :
      Step allows n
        (settle (n.note call (.started op)) n.threads call op (R.program op n.memory))
  /-- A resting call is answered and runs until it rests again. -/
  | answer {call : ℕ} {t : Thread R} {a : R.Answer t.question} {log : List Entry}
      (rests : n.threads call = some t) (answers : R.Answers n.log t.question a log)
      (allowed : allows t.operation ⟨call, .answered t.question a, log⟩) :
      Step allows n
        (settle ({ n.toScene with log }.note call (.answered t.question a)) n.threads call
          t.operation (t.next (a, n.memory)))
  /-- The process loses its memory and its calls. -/
  | restart : Step allows n { log := n.log, past := n.past }
  /-- Another process stores an entry in the same log. -/
  | share {e : Entry} (other : e.actor ≠ R.name) :
      Step allows n { n with log := n.log ++ [e] }

/-! ## What a step adds -/

variable {allows : R.Operation → Moment R → Prop} {n n' : Node R}

theorem settle_past (s : Scene R) (threads : ℕ → Option (Thread R)) (call : ℕ) (op : R.Operation)
    (p : R.Run op) : ∃ event : Event R,
      (settle s threads call op p).past = s.past ++ [⟨call, event, s.log⟩] ∧
        (∀ op, event ≠ .started op) ∧ ∀ q a, event ≠ .answered q a := by
  cases p with
  | done outcome => exact ⟨.returned op outcome.1, rfl, fun _ => nofun, fun _ _ => nofun⟩
  | ask q next => exact ⟨.asked q.1, rfl, fun _ => nofun, fun _ _ => nofun⟩

theorem settle_log (s : Scene R) (threads : ℕ → Option (Thread R)) (call : ℕ) (op : R.Operation)
    (p : R.Run op) : (settle s threads call op p).log = s.log := by
  cases p <;> rfl

section Settle

variable {s : Scene R} {threads : ℕ → Option (Thread R)} {call other : ℕ} {op : R.Operation}
  {p : R.Run op}

theorem threads_settle_of_ne (ne : other ≠ call) :
    (settle s threads call op p).threads other = threads other := by
  cases p <;> exact Function.update_of_ne ne ..

theorem threads_settle_ask {q : R.Request × R.Memory} {next : R.Answer q.1 × R.Memory → R.Run op}
    (rests : R.restsAt q.1 = true) : (settle s threads call op (.ask q next)).threads call =
      some { operation := op, question := q.1, next } := by
  simp [settle, rests]

/-- Who rests when a running call comes to rest or to its end: whoever else has rested, and the call
at what it asks. -/
theorem cases_of_rests_settle {t : Thread R}
    (rests : (settle s threads call op p).threads other = some t) :
    other ≠ call ∧ threads other = some t ∨
      other = call ∧ ∃ q next, p = .ask q next ∧
        t = { operation := op, question := q.1, next } := by
  by_cases same : other = call
  · subst same
    refine .inr ⟨rfl, ?_⟩
    cases p with
    | done outcome => simp [settle] at rests
    | ask q next =>
      simp only [settle, Function.update_self, Option.ite_none_right_eq_some,
        Option.some.injEq] at rests
      exact ⟨q, next, rfl, rests.2.symm⟩
  · rw [threads_settle_of_ne same] at rests
    exact .inl ⟨same, rests⟩

/-- What has ended when a running call comes to rest or to its end: what had before, and the call if
it does. -/
theorem cases_of_returned_settle {op' : R.Operation} {result : R.Result op'} {log : List Entry}
    (returned : ⟨other, .returned op' result, log⟩ ∈ (settle s threads call op p).past) :
    ⟨other, .returned op' result, log⟩ ∈ s.past ∨
      ∃ outcome, p = .done outcome ∧
        (⟨other, .returned op' result, log⟩ : Moment R) =
          ⟨call, .returned op outcome.1, s.log⟩ := by
  cases p with
  | done outcome =>
    refine (List.mem_append.1 returned).imp_right fun last => ?_
    exact ⟨outcome, rfl, List.mem_singleton.1 last⟩
  | ask q next =>
    rcases List.mem_append.1 returned with old | last
    · exact .inl old
    · cases List.mem_singleton.1 last

/-- What has been asked when a running call comes to rest or to its end. -/
theorem cases_of_asked_settle {q : R.Request} {log : List Entry}
    (asked : ⟨other, .asked q, log⟩ ∈ (settle s threads call op p).past) :
    ⟨other, .asked q, log⟩ ∈ s.past ∨ ∃ request next, p = .ask request next ∧
      (⟨other, .asked q, log⟩ : Moment R) = ⟨call, .asked request.1, s.log⟩ := by
  cases p with
  | done outcome =>
    rcases List.mem_append.1 asked with old | last
    · exact .inl old
    · cases List.mem_singleton.1 last
  | ask request next =>
    refine (List.mem_append.1 asked).imp_right fun last => ?_
    exact ⟨request, next, rfl, List.mem_singleton.1 last⟩

/-- What has been started then had been before. -/
theorem started_of_settle {op' : R.Operation} {log : List Entry}
    (started : ⟨other, .started op', log⟩ ∈ (settle s threads call op p).past) :
    ⟨other, .started op', log⟩ ∈ s.past := by
  obtain ⟨event, past, unstarted, -⟩ := settle_past s threads call op p
  rw [past] at started
  refine (List.mem_append.1 started).resolve_right fun last => ?_
  cases List.mem_singleton.1 last
  exact unstarted op' rfl

end Settle

theorem Step.grows (step : n.Step allows n') : n.toScene.Grows n'.toScene := by
  cases step with
  | @start call op new allowed =>
    obtain ⟨event, past, -⟩ := settle_past (n.note call (.started op)) n.threads call op
      (R.program op n.memory)
    constructor
    · rw [past]
      exact (List.prefix_append _ _).trans (List.prefix_append _ _)
    · rw [settle_log]
      exact List.prefix_rfl
  | @answer call t a log rests answers allowed =>
    obtain ⟨event, past, -⟩ := settle_past
      ({ n.toScene with log }.note call (.answered t.question a)) n.threads call t.operation
      (t.next (a, n.memory))
    constructor
    · rw [past]
      exact (List.prefix_append _ _).trans (List.prefix_append _ _)
    · rw [settle_log]
      obtain rfl | ⟨e, -, -, rfl⟩ := Role.answers_log answers
      · exact List.prefix_rfl
      · exact List.prefix_append _ _
  | restart => exact ⟨List.prefix_rfl, List.prefix_rfl⟩
  | share other => exact ⟨List.prefix_rfl, List.prefix_append _ _⟩

/-- What a step logs: nothing, an entry of another process, or what a resting call has asked to
append. -/
theorem Step.log (step : n.Step allows n') : n'.log = n.log ∨
    (∃ e, e.actor ≠ R.name ∧ n'.log = n.log ++ [e]) ∨
    ∃ call t e, n.threads call = some t ∧ t.question = .inl (.append e) ∧
      n'.log = n.log ++ [e] := by
  cases step with
  | start new allowed => exact .inl (settle_log ..)
  | @answer call t a log rests answers allowed =>
    rw [settle_log]
    obtain rfl | ⟨e, question, -, rfl⟩ := Role.answers_log answers
    · exact .inl rfl
    · exact .inr (.inr ⟨call, t, e, rests, question, rfl⟩)
  | restart => exact .inl rfl
  | @share e other => exact .inr (.inl ⟨e, other, rfl⟩)

/-- What is new after a step: a start or an answer that is allowed, and what came of it. -/
theorem Step.new (step : n.Step allows n') {m : Moment R} (hm : m ∈ n'.past) :
    m ∈ n.past ∨
      (∃ op, m.event = .started op ∧ m.log = n.log ∧ allows op m) ∨
      (∃ op q a, m.event = .answered q a ∧ allows op m) ∨
      (∀ op, m.event ≠ .started op) ∧ ∀ q a, m.event ≠ .answered q a := by
  cases step with
  | @start call op new allowed =>
    obtain ⟨event, past, unstarted, unanswered⟩ := settle_past (n.note call (.started op))
      n.threads call op (R.program op n.memory)
    rw [past] at hm
    rcases List.mem_append.1 hm with hm | hm
    · rcases List.mem_append.1 hm with hm | hm
      · exact .inl hm
      · rw [List.mem_singleton.1 hm]
        exact .inr (.inl ⟨op, rfl, rfl, allowed⟩)
    · rw [List.mem_singleton.1 hm]
      exact .inr (.inr (.inr ⟨unstarted, unanswered⟩))
  | @answer call t a log rests answers allowed =>
    obtain ⟨event, past, unstarted, unanswered⟩ := settle_past
      ({ n.toScene with log }.note call (.answered t.question a)) n.threads call t.operation
      (t.next (a, n.memory))
    rw [past] at hm
    rcases List.mem_append.1 hm with hm | hm
    · rcases List.mem_append.1 hm with hm | hm
      · exact .inl hm
      · rw [List.mem_singleton.1 hm]
        exact .inr (.inr (.inl ⟨t.operation, t.question, a, rfl, allowed⟩))
    · rw [List.mem_singleton.1 hm]
      exact .inr (.inr (.inr ⟨unstarted, unanswered⟩))
  | restart => exact .inl hm
  | share other => exact .inl hm

/-- What is allowed in a step is noted. -/
theorem Step.noted (step : n.Step allows n') :
    n.Step (fun op m => allows op m ∧ m ∈ n'.past) n' := by
  -- a call that settles keeps its last moment
  have kept : ∀ (s : Scene R) call (op : R.Operation) (p : R.Run op) (m : Moment R), m ∈ s.past →
      m ∈ (settle s n.threads call op p).past := by
    intro s call op p m hm
    obtain ⟨event, past, -⟩ := settle_past s n.threads call op p
    rw [past]
    exact List.mem_append_left _ hm
  cases step with
  | start new allowed =>
    exact .start new ⟨allowed, kept _ _ _ _ _ (List.mem_append_right _ (.head _))⟩
  | answer rests answers allowed =>
    exact .answer rests answers ⟨allowed, kept _ _ _ _ _ (List.mem_append_right _ (.head _))⟩
  | restart => exact .restart
  | share other => exact .share other

/-- A call that is started in a step has been allowed to. -/
theorem Step.started (step : n.Step allows n') {call : ℕ} {op : R.Operation} {log : List Entry}
    (hm : ⟨call, .started op, log⟩ ∈ n'.past) :
    ⟨call, .started op, log⟩ ∈ n.past ∨ log = n.log ∧ allows op ⟨call, .started op, log⟩ := by
  rcases step.new hm with old | ⟨op', event, same, allowed⟩ | ⟨op', q, a, event, -⟩ | ⟨none, -⟩
  · exact .inl old
  · cases event
    exact .inr ⟨same, allowed⟩
  · cases event
  · exact absurd rfl (none op)

/-- An answer that is given in a step has been allowed. -/
theorem Step.answered (step : n.Step allows n') {call : ℕ} {q : R.Request} {a : R.Answer q}
    {log : List Entry} (hm : ⟨call, .answered q a, log⟩ ∈ n'.past) :
    ⟨call, .answered q a, log⟩ ∈ n.past ∨ ∃ op, allows op ⟨call, .answered q a, log⟩ := by
  rcases step.new hm with old | ⟨op, event, -⟩ | ⟨op, q', a', -, allowed⟩ | ⟨-, none⟩
  · exact .inl old
  · cases event
  · exact .inr ⟨op, allowed⟩
  · exact absurd rfl (none q a)

end Node

end AtomicCommit
