import AtomicCommit.Proofs.Process.Cue
import AtomicCommit.Proofs.Process.Smooth
import Mathlib.Logic.Relation

/-!
# A call that is left alone

While a call waits, its process may do other things. As long as these touch neither the memory nor
the entries of the process in the log, the call finds everything as it has left it, so what it comes
to can be read off its program, answer by answer.

## Main definitions

* `Trace`: the entries of a process and the events of a call.
* `Role.undisturbed`: the contract of a call that is left alone.
* `Node.Undisturbed`: a step that does not disturb a call.
* `Node.Performs`: how far a call has come that is left alone.

## Main results

* `Node.Performs.run`: a call that is left alone performs its program.
-/

namespace AtomicCommit

/-- What a call that is left alone can tell: the entries of its process in the log, and its own
events, in order. -/
structure Trace (R : Role) where
  /-- The entries of the process. -/
  own : List Entry
  /-- The events of the call. -/
  events : List (Event R)

namespace Trace

variable {R : Role}

/-- The trace after a question and its answer. -/
def tell (t : Trace R) (q : R.Request) (a : R.Answer q) : Trace R :=
  { t with events := t.events ++ [.asked q, .answered q a] }

@[simp] theorem own_tell (t : Trace R) (q : R.Request) (a : R.Answer q) :
    (t.tell q a).own = t.own := rfl

@[simp] theorem events_tell (t : Trace R) (q : R.Request) (a : R.Answer q) :
    (t.tell q a).events = t.events ++ [.asked q, .answered q a] := rfl

/-- The trace after an entry has been stored. -/
def store (t : Trace R) (e : Entry) : Trace R :=
  { t.tell (.inl (.append e)) (.ok ()) with own := t.own ++ [e] }

@[simp] theorem own_store (t : Trace R) (e : Entry) : (t.store e).own = t.own ++ [e] := rfl

@[simp] theorem events_store (t : Trace R) (e : Entry) : (t.store e).events =
    t.events ++ [.asked (.inl (.append e)), .answered (.inl (.append e)) (.ok ())] := rfl

end Trace

/-- The contract of a call that is left alone: it may ask anything, and finds memory and the entries
of its process as it has left them. -/
def Role.undisturbed (R : Role) : Contract (R.interface.sharing R.Memory) (Trace R) where
  asks _ _ := True
  answers t q a t' := a.2 = q.2 ∧ ∃ log log', Log.own log R.name = t.own ∧
    R.Answers log q.1 a.1 log' ∧ t' = { t.tell q.1 a.1 with own := Log.own log' R.name }

section Questions

variable {R : Role} {ε : Type} {memory : R.Memory} {t : Trace R}

/-- A question that stores nothing. -/
theorem meets_ask_undisturbed {q : R.Request} {ok : R.Answer q → R.Memory → Trace R → Prop}
    {err : ε → R.Memory → Trace R → Prop} (stores : R.stores q = false)
    (next : ∀ a, ok a memory (t.tell q a)) :
    (Action.ask q : Action R.interface R.Memory ε _).Meets R.undisturbed ok err memory t := by
  rw [Action.meets_ask]
  refine ⟨trivial, ?_⟩
  rintro a memory' t' ⟨same, log, log', own, answers, rfl⟩
  obtain rfl : memory' = memory := same
  rcases Role.answers_log answers with rfl | ⟨e, append, -⟩
  · rw [own]
    exact next a
  · exact absurd append (Role.ne_append_of_stores stores e)

/-- The entries that are unfinished are found, or the log can not be read. -/
theorem meets_scan_undisturbed {ok : List Entry → R.Memory → Trace R → Prop}
    {err : LogError → R.Memory → Trace R → Prop}
    (found : ok (Log.scanIncomplete t.own R.name) memory
      (t.tell (.inl (.scan R.name)) (.ok (Log.scanIncomplete t.own R.name))))
    (failed : ∀ failure, err failure memory (t.tell (.inl (.scan R.name)) (.error failure))) :
    (Host.scan R.name : Action R.interface R.Memory LogError _).Meets R.undisturbed ok err memory
      t := by
  rw [Host.meets_scan]
  refine ⟨trivial, ?_⟩
  rintro a memory' t' ⟨same, log, log', own, ⟨rfl, read⟩, rfl⟩
  obtain rfl : memory' = memory := same
  rw [own]
  constructor
  · rintro entries rfl
    obtain rfl := read entries rfl
    rw [← Log.scanIncomplete_own, own]
    exact found
  · rintro failure rfl
    exact failed failure

/-- An entry of the process is stored, or the log refuses it. -/
theorem meets_append_undisturbed {e : Entry} {ok : Unit → R.Memory → Trace R → Prop}
    {err : LogError → R.Memory → Trace R → Prop} (actor : e.actor = R.name)
    (stored : ok () memory (t.store e))
    (refused : ∀ failure, err failure memory (t.tell (.inl (.append e)) (.error failure))) :
    (Host.append e : Action R.interface R.Memory LogError _).Meets R.undisturbed ok err memory
      t := by
  rw [Host.meets_append]
  refine ⟨trivial, ?_⟩
  rintro a memory' t' ⟨same, log, log', own, answers, rfl⟩
  obtain rfl : memory' = memory := same
  constructor
  · rintro ⟨⟩ rfl
    obtain rfl : log' = log ++ [e] := answers
    have grown : Log.own (log ++ [e]) R.name = t.own ++ [e] := by
      simp [Log.own, ← own, actor]
    rw [grown]
    exact stored
  · rintro failure rfl
    obtain rfl : log' = log := answers
    rw [own]
    exact refused failure

end Questions

namespace Node

variable {R : Role} {allows : Node R → R.Operation → Moment R → Prop} {call : ℕ}

/-- The events of a call. -/
def eventsOf (n : Node R) (call : ℕ) : List (Event R) :=
  (momentsOf n.past call).map Moment.event

/-- A step that does not disturb a call: the call is answered, or something else happens that leaves
the memory, the entries of the process and the call as they are. -/
inductive Undisturbed (allows : Node R → R.Operation → Moment R → Prop) (call : ℕ) (n : Node R) :
    Node R → Prop where
  /-- The call is answered. -/
  | answered {n' : Node R} {op : R.Operation} {q : R.Request} {a : R.Answer q}
      (reacts : n.Reacts (allows n) (.answered call op q a) n') : Undisturbed allows call n n'
  /-- Something else happens. -/
  | aside {n' : Node R} (step : n.Step (allows n) n') (memory : n'.memory = n.memory)
      (own : Log.own n'.log R.name = Log.own n.log R.name)
      (thread : n'.threads call = n.threads call) (events : n'.eventsOf call = n.eventsOf call) :
      Undisturbed allows call n n'

theorem Undisturbed.step {n n' : Node R} (h : n.Undisturbed allows call n') :
    n.Step (allows n) n' := by
  cases h with
  | answered reacts => exact reacts.step
  | aside step _ _ _ _ => exact step

/-- How far a call has come that is left alone. -/
inductive Performs (n : Node R) (call : ℕ) (op : R.Operation)
    (post : R.Result op × R.Memory → Trace R → Prop) : Prop where
  /-- It rests at a question, if it can, and goes on under its contract. -/
  | rests {q : R.Request} {next : R.Answer q × R.Memory → R.Run op} {t : Trace R}
      (thread : ∀ t', n.threads call = some t' → t' = ⟨op, q, next⟩)
      (own : Log.own n.log R.name = t.own)
      (events : n.eventsOf call = t.events ++ [.asked q])
      (running : ∀ op result, .returned op result ∉ t.events)
      (goesOn : ∀ a t', R.undisturbed.answers t (q, n.memory) a t' →
        (next a).Meets R.undisturbed post t')
  /-- It has ended as promised. -/
  | ended {result : R.Result op} {t : Trace R} (thread : n.threads call = none)
      (own : Log.own n.log R.name = t.own)
      (events : n.eventsOf call = t.events ++ [.returned op result])
      (running : ∀ op result, .returned op result ∉ t.events) (post : post (result, n.memory) t)

variable {op : R.Operation} {post : R.Result op × R.Memory → Trace R → Prop} {n n' : Node R}

theorem eventsOf_note (s : Scene R) (threads : ℕ → Option (Thread R)) (event : Event R) :
    eventsOf { toScene := s.note call event, threads } call =
      (momentsOf s.past call).map Moment.event ++ [event] := by
  rw [eventsOf, momentsOf_note]
  simp

/-- A call that runs under its contract comes to rest or to its end. -/
theorem performs_settle {s : Scene R} {threads : ℕ → Option (Thread R)} {p : R.Run op}
    {t : Trace R} (own : Log.own s.log R.name = t.own)
    (events : (momentsOf s.past call).map Moment.event = t.events)
    (running : ∀ op result, .returned op result ∉ t.events)
    (meets : p.Meets R.undisturbed post t) :
    (settle s threads call op p).Performs call op post := by
  cases p with
  | done outcome =>
    refine .ended (t := t) (by simp [settle]) own ?_ running meets
    rw [settle, eventsOf_note, events]
  | ask q next =>
    have thread : ∀ t', (settle s threads call op (.ask q next)).threads call = some t' →
        t' = ⟨op, q.1, fun a => next a⟩ := by
      intro t' rests
      obtain ⟨ne, -⟩ | ⟨-, q', next', same, rfl⟩ := cases_of_rests_settle rests
      · exact absurd rfl ne
      · cases same
        rfl
    refine .rests (t := t) thread own ?_ running meets.2
    rw [settle, eventsOf_note, events]

/-- A call that starts performs its program. -/
theorem performs_start {allows : R.Operation → Moment R → Prop}
    (started : n.Reacts allows (.started call op) n')
    (meets : (R.program op n.memory).Meets R.undisturbed post
      ⟨Log.own n.log R.name, [.started op]⟩) : n'.Performs call op post := by
  cases started with
  | start new allowed =>
    refine performs_settle rfl ?_ (by simp) meets
    rw [momentsOf_note, momentsOf_others new]
    rfl

/-- A call that is left alone goes on performing its program. -/
theorem Performs.step (h : n.Performs call op post) (step : n.Undisturbed allows call n') :
    n'.Performs call op post := by
  cases step with
  | answered reacts =>
    cases reacts with
    | @answer _ thread' a log rests answers _ =>
      cases h with
      | @rests q next t thread own events running goesOn =>
        obtain rfl := thread _ rests
        refine performs_settle (t := { t.tell q a with own := Log.own log R.name }) rfl ?_ ?_ ?_
        · have asked : (momentsOf n.past call).map Moment.event = t.events ++ [.asked q] := events
          rw [momentsOf_note]
          simp [asked]
        · simpa [Trace.tell] using running
        · exact goesOn _ _ ⟨rfl, n.log, log, own, answers, rfl⟩
      | ended thread _ _ _ _ => cases thread.symm.trans rests
  | aside step memory own thread events =>
    cases h with
    | rests thread' own' events' running goesOn =>
      exact .rests (thread ▸ thread') (own.trans own') (events.trans events') running
        (memory ▸ goesOn)
    | ended thread' own' events' running post =>
      exact .ended (thread.trans thread') (own.trans own') (events.trans events') running
        (memory ▸ post)

/-- A call that is left alone from its start on performs its program, however long. -/
theorem Performs.run (h : n.Performs call op post)
    (run : Relation.ReflTransGen (Undisturbed allows call) n n') : n'.Performs call op post := by
  induction run with
  | refl => exact h
  | tail _ step ih => exact ih.step step

/-- What is promised of the end of a call holds once it has returned. -/
theorem Performs.returned (h : n.Performs call op post) {result : R.Result op} {log : List Entry}
    (returned : ⟨call, .returned op result, log⟩ ∈ n.past) :
    ∃ t, Log.own n.log R.name = t.own ∧ n.eventsOf call = t.events ++ [.returned op result] ∧
      post (result, n.memory) t := by
  have last : Event.returned op result ∈ n.eventsOf call := mem_events_iff.2 ⟨log, returned⟩
  cases h with
  | rests thread own events running goesOn =>
    rw [events] at last
    simp [running] at last
  | @ended result' t thread own events running post =>
    rw [events, List.mem_append, List.mem_singleton] at last
    cases last.resolve_left (running op result)
    exact ⟨t, own, events, post⟩

/-- A call that runs on its own while all others rest is left alone. -/
theorem Attains.undisturbed {holds : Node R → Prop} (manner : Manner R)
    (h : Attains holds allows manner.outside) {s : Scene R} {threads : ℕ → Option (Thread R)}
    {p : R.Run op} (alone : ∀ other, other ≠ call → threads other = none) :
    Relation.ReflTransGen (Undisturbed allows call) (settle s threads call op p)
      (Node.smooth manner s threads call op p) :=
  h.path (fun _ _ _ _ rests answers allowed => .answered (.answer rests answers allowed)) alone

end Node

end AtomicCommit
