import AtomicCommit.Proofs.Participant.Confinement
import AtomicCommit.Proofs.Participant.Smooth
import AtomicCommit.Proofs.Process.Cue

/-!
# Transactions do not influence each other

A participant that is told about many transactions, and whose log is shared with others, does for
each of them what it would do if it had been told about that one alone and had a log of its own.

A call on one transaction depends on nothing of another, and touches nothing of it. So one follows a
participant that is told about all of them with one that is told about one of them, cue by cue.

## Main definitions

* `Participant.Serves`: calls on single transactions.
* `Participant.part`: the part of the cues that has to do with a transaction.
* `Participant.Shadows`: a participant does what another does for one transaction.

## Main results

* `Participant.transactions_do_not_interfere`: each transaction goes as if there were no other.
-/

namespace AtomicCommit.Participant

/-- A call on a single transaction is taken on. -/
structure Serves (p : ProcessId) (n : Node (role p)) (op : Operation) (m : Moment (role p)) :
    Prop extends Allows p n op m where
  /-- It is no recovery. -/
  single : op.transaction? ≠ none

/-- What a participant may come to, it comes to by its cues. -/
theorem reachable_iff_plays {p : ProcessId} {n : Node (role p)} :
    Reachable p n ↔ ∃ cues, Node.Plays (Allows p) cues n := by
  constructor
  · intro h
    induction h with
    | initial => exact ⟨[], .nil⟩
    | step _ step ih =>
      obtain ⟨cues, plays⟩ := ih
      obtain ⟨cue, reacts⟩ := step.reacts
      exact ⟨_, plays.snoc reacts⟩
  · rintro ⟨cues, plays⟩
    induction plays with
    | nil => exact .initial
    | snoc _ reacts ih => exact ih.step reacts.step

variable (self : ProcessId)

/-- What happens in a call, with what it is told by answers. -/
def echo : Event (role self) → Event (role self)
  | .answered q a => .answered q (told self q a)
  | event => event

/-- The part of a cue that has to do with a transaction. -/
def part (tx : TransactionId) : Cue (role self) → Option (Cue (role self))
  | .started call op => if op.transaction? = some tx then some (.started call op) else none
  | .answered call op q a =>
    if op.transaction? = some tx then some (.answered call op q (told self q a)) else none
  | .restarted => some .restarted
  | .shared _ => none

/-! ## Two participants -/

variable {self} {tx : TransactionId} {op : Operation} {call : ℕ} {n k n' : Node (role self)}
  {s s' : Scene (role self)}

/-- Two calls on a transaction rest at a question and go on alike. -/
inductive Shadow (p : ProcessId) (tx : TransactionId) :
    Thread (role p) → Thread (role p) → Prop where
  /-- They have the question in common. -/
  | intro {op : Operation} {q : (role p).Request}
      {next next' : (role p).Answer q × Memory → (role p).Run op}
      (about : op.transaction? = some tx) (reads : ReadsOnly tx q)
      (rest : ∀ a a' memory memory', told p q a = told p q a' →
        SameCopy tx () memory () memory' →
        Program.Alike (viewOf p tx) (SameOutcome tx) () () (next (a, memory))
          (next' (a', memory'))) :
      Shadow p tx ⟨op, q, next⟩ ⟨op, q, next'⟩

/-- What rests for one call at two participants: calls that go on alike, or at the first at most a
call on another transaction. -/
inductive Pairs (p : ProcessId) (tx : TransactionId) :
    Option (Thread (role p)) → Option (Thread (role p)) → Prop where
  /-- Both rest. -/
  | both {t t' : Thread (role p)} (shadow : Shadow p tx t t') : Pairs p tx (some t) (some t')
  /-- Nothing rests that is about the transaction. -/
  | other {rests : Option (Thread (role p))}
      (other : ∀ t, rests = some t → t.operation.transaction? ≠ some tx) : Pairs p tx rests none

/-- The past and the log of one participant are those of another, as far as a transaction goes. -/
structure Recounts (p : ProcessId) (tx : TransactionId) (s s' : Scene (role p)) : Prop where
  /-- What has been written for it. -/
  log : s'.log = Log.history s.log p tx
  /-- What has happened in a call on it. -/
  events : ∀ call op log, ⟨call, .started op, log⟩ ∈ s.past → op.transaction? = some tx →
    (momentsOf s'.past call).map Moment.event =
      (momentsOf s.past call).map fun m => echo p m.event
  /-- No other call is known. -/
  calls : ∀ m ∈ s'.past, ∃ op log, ⟨m.call, .started op, log⟩ ∈ s.past ∧
    op.transaction? = some tx

/-- One participant does what another does for a transaction. -/
structure Shadows (p : ProcessId) (tx : TransactionId) (n k : Node (role p)) : Prop extends
    Recounts p tx n.toScene k.toScene where
  /-- They have the same copy of it in memory. -/
  copy : SameCopy tx () n.memory () k.memory
  /-- Calls that rest go on alike. -/
  pairs : ∀ call, Pairs p tx (n.threads call) (k.threads call)

/-- A call that is new to the first is new to the second. -/
theorem Recounts.new (h : Recounts self tx s s') (new : ∀ m ∈ s.past, m.call ≠ call) :
    ∀ m ∈ s'.past, m.call ≠ call := by
  intro m hm same
  obtain ⟨op, log, mem, -⟩ := h.calls m hm
  exact new _ mem same

/-- When both note something in a call on the transaction, no other call is known. -/
theorem Recounts.calls_note {event event' : Event (role self)} (h : Recounts self tx s s')
    (started : ∃ op log, ⟨call, .started op, log⟩ ∈ (s.note call event).past ∧
      op.transaction? = some tx) :
    ∀ m ∈ (s'.note call event').past, ∃ op log,
      ⟨m.call, .started op, log⟩ ∈ (s.note call event).past ∧ op.transaction? = some tx := by
  intro m hm
  rcases List.mem_append.1 hm with old | last
  · obtain ⟨op, log, mem, about⟩ := h.calls m old
    exact ⟨op, log, List.mem_append_left _ mem, about⟩
  · rw [List.mem_singleton.1 last]
    exact started

/-- Both note the same in a call on the transaction. -/
theorem Recounts.note {event : Event (role self)} (h : Recounts self tx s s')
    (started : ∃ op log, ⟨call, .started op, log⟩ ∈ s.past ∧ op.transaction? = some tx)
    (fresh : ∀ op, event ≠ .started op) :
    Recounts self tx (s.note call event) (s'.note call (echo self event)) where
  log := h.log
  events other op log mem about := by
    have old : ⟨other, .started op, log⟩ ∈ s.past := by
      rcases List.mem_append.1 mem with old | last
      · exact old
      · cases List.mem_singleton.1 last
        exact absurd rfl (fresh op)
    have same := h.events other op log old about
    by_cases own : other = call
    · subst own
      rw [momentsOf_note, momentsOf_note, List.map_append, List.map_append, same]
      rfl
    · rw [momentsOf_note_of_ne own, momentsOf_note_of_ne own, same]
  calls := by
    obtain ⟨op, log, mem, about⟩ := started
    exact h.calls_note ⟨op, log, List.mem_append_left _ mem, about⟩

/-- Both note the start of a call on the transaction. -/
theorem Recounts.start (h : Recounts self tx s s') (about : op.transaction? = some tx)
    (new : ∀ m ∈ s.past, m.call ≠ call) :
    Recounts self tx (s.note call (.started op)) (s'.note call (.started op)) where
  log := h.log
  events other op' log mem about' := by
    by_cases own : other = call
    · subst own
      rw [momentsOf_note, momentsOf_note, momentsOf_others new, momentsOf_others (h.new new)]
      rfl
    · rw [momentsOf_note_of_ne own, momentsOf_note_of_ne own]
      refine h.events other op' log ?_ about'
      rcases List.mem_append.1 mem with old | last
      · exact old
      · cases List.mem_singleton.1 last
        exact absurd rfl own
  calls := h.calls_note ⟨op, s.log, List.mem_append_right _ (.head _), about⟩

/-- What happens in a call on another transaction is not for the second. -/
theorem Recounts.other {s₁ : Scene (role self)} {later : List (Moment (role self))}
    (h : Recounts self tx s s') (past : s₁.past = s.past ++ later)
    (own : ∀ m ∈ later, m.call = call)
    (other : ∀ op log, ⟨call, .started op, log⟩ ∈ s₁.past → op.transaction? ≠ some tx)
    (log : Log.history s₁.log self tx = Log.history s.log self tx) : Recounts self tx s₁ s' where
  log := h.log.trans log.symm
  events call' op log mem about := by
    have ne : call' ≠ call := by
      rintro rfl
      exact other op log mem about
    have others : ∀ m ∈ later, m.call ≠ call' := fun m hm same => ne (same ▸ own m hm)
    rw [past] at mem ⊢
    rw [momentsOf_append, momentsOf_others others, List.append_nil]
    refine h.events call' op log ?_ about
    rcases List.mem_append.1 mem with old | last
    · exact old
    · exact absurd rfl (others _ last)
  calls m hm := by
    obtain ⟨op, log, mem, about⟩ := h.calls m hm
    exact ⟨op, log, past ▸ List.mem_append_left _ mem, about⟩

/-- Two calls that run alike come to rest, or to their end, alike. -/
theorem Recounts.settle {threads threads' : ℕ → Option (Thread (role self))}
    {run run' : (role self).Run op} (h : Recounts self tx s s') (about : op.transaction? = some tx)
    (started : ∃ log, ⟨call, .started op, log⟩ ∈ s.past)
    (pairs : ∀ other, other ≠ call → Pairs self tx (threads other) (threads' other))
    (alike : Program.Alike (viewOf self tx) (SameOutcome tx) () () run run') :
    Shadows self tx (Node.settle s threads call op run) (Node.settle s' threads' call op run') := by
  have known : ∃ op log, ⟨call, .started op, log⟩ ∈ s.past ∧ op.transaction? = some tx := by
    obtain ⟨log, mem⟩ := started
    exact ⟨op, log, mem, about⟩
  have paired : Pairs self tx ((Node.settle s threads call op run).threads call)
        ((Node.settle s' threads' call op run').threads call) →
      ∀ other, Pairs self tx ((Node.settle s threads call op run).threads other)
        ((Node.settle s' threads' call op run').threads other) := by
    intro own other
    by_cases ne : other = call
    · exact ne ▸ own
    · rw [Node.threads_settle_of_ne ne, Node.threads_settle_of_ne ne]
      exact pairs other ne
  cases alike with
  | @done _ _ outcome outcome' same =>
    obtain ⟨result, memory⟩ := outcome
    obtain ⟨result', memory'⟩ := outcome'
    obtain ⟨rfl, copy⟩ : result = result' ∧ SameCopy tx () memory () memory' := same
    have noted : Recounts self tx (s.note call (.returned op result))
        (s'.note call (.returned op result)) := h.note known fun _ => by simp
    refine ⟨⟨noted.log, noted.events, noted.calls⟩, copy, paired ?_⟩
    simp only [Node.settle, Function.update_self]
    exact .other (by simp)
  | @ask _ _ q memory memory' next next' _ _ asks rest =>
    have noted : Recounts self tx (s.note call (.asked q)) (s'.note call (.asked q)) :=
      h.note known fun _ => by simp
    refine ⟨⟨noted.log, noted.events, noted.calls⟩, asks.2, paired ?_⟩
    rw [Node.threads_settle_ask (restsAt ..), Node.threads_settle_ask (restsAt ..)]
    exact .both (.intro about asks.1 fun a a' memory memory' => rest a a' () memory () memory')
  | left silent _ => cases silent
  | right silent _ => cases silent

/-! ## Cue by cue -/

/-- A call that is taken on by the first is taken on by the second. -/
theorem Shadows.serves (h : Shadows self tx n k) {m m' : Moment (role self)}
    (serves : Serves self n op m) (same : m'.call = m.call) : Serves self k op m' where
  single := serves.single
  turn other t' rests' ne := by
    have pairs := h.pairs other
    rw [rests'] at pairs
    generalize rests : n.threads other = resting at pairs
    cases pairs with
    | both shadow =>
      cases shadow with
      | intro about reads rest =>
        have turn := serves.turn other _ rests (same ▸ ne)
        rw [same, locks_const serves.single (n.past ++ [m])]
        rwa [locks_const (by simp [about]) k.past] at turn

/-- A call on the transaction is started at both. -/
theorem Shadows.start (h : Shadows self tx n k) (about : op.transaction? = some tx)
    (new : ∀ m ∈ n.past, m.call ≠ call) (serves : Serves self n op ⟨call, .started op, n.log⟩) :
    ∃ k', k.Reacts (Serves self k) (.started call op) k' ∧
      Shadows self tx (Node.settle (n.note call (.started op)) n.threads call op
        (run self op n.memory)) k' := by
  refine ⟨_, .start (h.toRecounts.new new) (h.serves serves rfl), ?_⟩
  exact (h.toRecounts.start about new).settle about ⟨n.log, List.mem_append_right _ (.head _)⟩
    (fun other _ => h.pairs other) (alike_run_viewOf about h.copy)

/-- A call on the transaction is answered at both, and told the same. -/
theorem Shadows.answer (h : Shadows self tx n k) (holds : (discipline self).Holds n)
    {t : Thread (role self)} {a : (role self).Answer t.question} {log : List Entry}
    (about : t.operation.transaction? = some tx) (rests : n.threads call = some t)
    (answers : (role self).Answers n.log t.question a log)
    (serves : Serves self n t.operation ⟨call, .answered t.question a, log⟩) :
    ∃ k', k.Reacts (Serves self k)
        (.answered call t.operation t.question (told self t.question a)) k' ∧
      Shadows self tx (Node.settle ({ n.toScene with log }.note call (.answered t.question a))
        n.threads call t.operation (t.next (a, n.memory))) k' := by
  have waits := holds.waits call t rests
  obtain ⟨log₀, started⟩ := waits.started
  have pairs := h.pairs call
  rw [rests] at pairs
  generalize rests' : k.threads call = resting at pairs
  cases pairs with
  | other other => exact absurd about (other t rfl)
  | both shadow =>
    cases shadow with
    | @intro op q next next' _ reads rest =>
      have appends : ∀ e, q = .inl (.append e) → e.actor = self ∧ e.transaction = tx := by
        intro e he
        obtain ⟨own, mem⟩ := waits.appends e he
        exact ⟨own, locks_subset about mem⟩
      have answers' : (role self).Answers k.log q (told self q a) (Log.history log self tx) :=
        h.log ▸ answers_told answers reads appends
      have serves' : Serves self k op
          ⟨call, .answered q (told self q a), Log.history log self tx⟩ :=
        Shadows.serves (m := ⟨call, .answered q a, log⟩) h serves rfl
      refine ⟨_, .answer (t := ⟨op, q, next'⟩) rests' answers' serves', ?_⟩
      have after : Recounts self tx { n.toScene with log }
          { k.toScene with log := Log.history log self tx } := ⟨rfl, h.events, h.calls⟩
      have noted : Recounts self tx ({ n.toScene with log }.note call (.answered q a))
          ({ k.toScene with log := Log.history log self tx }.note call
            (.answered q (told self q a))) :=
        after.note ⟨op, log₀, started, about⟩ fun _ => by simp
      refine noted.settle about ⟨log₀, List.mem_append_left _ started⟩
        (fun other _ => h.pairs other) ?_
      exact rest a (told self q a) n.memory k.memory (told_told q a).symm h.copy

/-- A call on another transaction does nothing to the second. -/
theorem Shadows.other {s : Scene (role self)} {run : (role self).Run op}
    (h : Shadows self tx n k)
    (holds' : (discipline self).Holds (Node.settle s n.threads call op run))
    (past : ∃ m : Moment (role self), m.call = call ∧ s.past = n.past ++ [m])
    (started : ∃ log, ⟨call, .started op, log⟩ ∈ s.past) (rests : k.threads call = none)
    (other : op.transaction? ≠ some tx)
    (frame : (Node.settle s n.threads call op run).memory.get? tx = n.memory.get? tx ∧
      Log.history (Node.settle s n.threads call op run).log self tx = Log.history n.log self tx) :
    Shadows self tx (Node.settle s n.threads call op run) k := by
  obtain ⟨m, own, before⟩ := past
  obtain ⟨event, past, -⟩ := Node.settle_past s n.threads call op run
  obtain ⟨log, started⟩ := started
  refine ⟨?_, frame.1.trans h.copy, ?_⟩
  · have later : (Node.settle s n.threads call op run).past =
        n.past ++ [m, ⟨call, event, s.log⟩] := by
      rw [past, before, List.append_assoc]
      rfl
    have owns : ∀ m' ∈ [m, (⟨call, event, s.log⟩ : Moment (role self))], m'.call = call := by
      simp [own]
    refine h.toRecounts.other later owns ?_ frame.2
    intro op' log' mem
    have started' : ⟨call, .started op, log⟩ ∈ (Node.settle s n.threads call op run).past :=
      past ▸ List.mem_append_left _ started
    rw [holds'.chronicle.started_unique started' mem]
    exact other
  · intro other'
    by_cases same : other' = call
    · rw [same, rests]
      refine .other fun t rests => ?_
      rcases Node.cases_of_rests_settle rests with ⟨ne, -⟩ | ⟨-, q, next, -, rfl⟩
      · exact absurd rfl ne
      · exact other
    · rw [Node.threads_settle_of_ne same]
      exact h.pairs other'

/-- At the second nothing rests for a call that is not on the transaction. -/
theorem Shadows.unconcerned (h : Shadows self tx n k)
    (other : ∀ t, n.threads call = some t → t.operation.transaction? ≠ some tx) :
    k.threads call = none := by
  have pairs := h.pairs call
  generalize n.threads call = rests at other pairs
  generalize k.threads call = rests' at pairs ⊢
  cases pairs with
  | other _ => rfl
  | both shadow =>
    cases shadow with
    | intro about _ _ => exact absurd about (other _ rfl)

/-- The second reacts to its part of a cue, or the cue is not for it. -/
theorem Shadows.step {cue : Cue (role self)} (h : Shadows self tx n k)
    (holds : (discipline self).Holds n) (reacts : n.Reacts (Serves self n) cue n') :
    part self tx cue = none ∧ Shadows self tx n' k ∨
      ∃ cue' k', part self tx cue = some cue' ∧ k.Reacts (Serves self k) cue' k' ∧
        Shadows self tx n' k' := by
  have tolerates : (discipline self).Tolerates n (Serves self n) :=
    tolerates fun _ _ serves => serves.toAllows
  have holds' : (discipline self).Holds n' :=
    holds_step holds reacts.step fun _ _ serves => serves.toAllows
  cases reacts with
  | @start call op new serves =>
    by_cases about : op.transaction? = some tx
    · obtain ⟨k', reacts', after⟩ := h.start about new serves
      exact .inr ⟨_, k', if_pos about, reacts', after⟩
    · refine .inl ⟨if_neg about, ?_⟩
      refine h.other holds' ⟨_, rfl, rfl⟩ ⟨n.log, List.mem_append_right _ (.head _)⟩ ?_ about ?_
      · refine h.unconcerned fun t rests => ?_
        obtain ⟨log, started⟩ := (holds.waits call t rests).started
        exact absurd rfl (new _ started)
      · exact Discipline.frame_start obeyed holds tolerates new serves
          (not_mem_locks serves.single about)
  | @answer call t a log rests answers serves =>
    by_cases about : t.operation.transaction? = some tx
    · obtain ⟨k', reacts', after⟩ := h.answer holds about rests answers serves
      exact .inr ⟨_, k', if_pos about, reacts', after⟩
    · obtain ⟨log₀, started⟩ := (holds.waits call t rests).started
      refine .inl ⟨if_neg about, ?_⟩
      refine h.other holds' ⟨_, rfl, rfl⟩ ⟨log₀, List.mem_append_left _ started⟩ ?_ about ?_
      · refine h.unconcerned fun t' rests' => ?_
        rwa [Option.some.inj (rests'.symm.trans rests)]
      · exact Discipline.frame_answer discipline_lawful holds tolerates rests answers serves
          (not_mem_locks serves.single about)
  | restart =>
    refine .inr ⟨.restarted, _, rfl, .restart, ⟨⟨h.log, h.events, h.calls⟩, rfl, ?_⟩⟩
    exact fun _ => .other (by simp)
  | @share e other =>
    refine .inl ⟨rfl, ⟨?_, h.events, h.calls⟩, h.copy, h.pairs⟩
    exact h.log.trans (Log.history_append_other _ fun own => absurd own other).symm

/-- Whatever comes to a participant, one to which only what is about a transaction comes does the
same for it. -/
theorem shadows_of_plays {cues : List (Cue (role self))} (h : Node.Plays (Serves self) cues n) :
    (discipline self).Holds n ∧
      ∃ k, Node.Plays (Serves self) (cues.filterMap (part self tx)) k ∧ Shadows self tx n k := by
  induction h with
  | nil =>
    have nothing : Recounts self tx {} {} := ⟨rfl, by simp, by simp⟩
    exact ⟨Discipline.holds_initial discipline_lawful, {}, .nil, nothing, rfl,
      fun _ => .other (by simp)⟩
  | @snoc cues n n' cue _ reacts ih =>
    obtain ⟨holds, k, plays, shadows⟩ := ih
    refine ⟨holds_step holds reacts.step fun _ _ serves => serves.toAllows, ?_⟩
    rw [List.filterMap_append, List.filterMap_cons, List.filterMap_nil]
    rcases shadows.step holds reacts with ⟨none, after⟩ | ⟨cue', k', some, reacts', after⟩
    · rw [none, List.append_nil]
      exact ⟨k, plays, after⟩
    · rw [some]
      exact ⟨k', plays.snoc reacts', after⟩

/-- What returns is not changed by what it is told. -/
theorem echo_eq_returned_iff {event : Event (role self)} {result : op.Result} :
    echo self event = .returned op result ↔ event = .returned op result := by
  cases event <;> simp [echo]

/-- Both have returned the same. -/
theorem Shadows.returned_iff (h : Shadows self tx n k) (holds : (discipline self).Holds n)
    (about : op.transaction? = some tx) (result : op.Result) :
    (∃ log, ⟨call, .returned op result, log⟩ ∈ k.past) ↔
      ∃ log, ⟨call, .returned op result, log⟩ ∈ n.past := by
  by_cases known : ∃ op log, ⟨call, .started op, log⟩ ∈ n.past ∧ op.transaction? = some tx
  · obtain ⟨op', log, started, about'⟩ := known
    rw [← mem_events_iff, ← mem_events_iff, h.events call op' log started about', List.mem_map,
      List.mem_map]
    simp only [echo_eq_returned_iff]
  · constructor
    · rintro ⟨log, returned⟩
      exact absurd (h.calls _ returned) known
    · rintro ⟨log, returned⟩
      obtain ⟨-, log', -, started⟩ := holds.chronicle.returned returned
      exact absurd ⟨op, log', started, about⟩ known

/-- A participant works on any transactions at once, asked for votes, told decisions, queried and
told to forget, answered in any way, restarting at any time, while others write into its log. For
each transaction there is a run with only what comes to the participant for it, in the same order,
and with a log that nobody else writes into; what is answered is the same, but that a read of the
log finds only what the participant itself has written. And any such run shows the same of the
transaction: its calls ask the same and return the same, the same is in memory, and all that is in
the log is what is in the shared log, in order. -/
theorem transactions_do_not_interfere {p : ProcessId} {cues : List (Cue (role p))}
    {n : Node (role p)} (h : Node.Plays (Serves p) cues n) (tx : TransactionId) :
    (∃ k, Node.Plays (Serves p) (cues.filterMap (part p tx)) k) ∧
    ∀ k, Node.Plays (Serves p) (cues.filterMap (part p tx)) k →
      (∀ call op log, ⟨call, .started op, log⟩ ∈ n.past → op.transaction? = some tx →
        (momentsOf k.past call).map Moment.event =
          (momentsOf n.past call).map fun m => echo p m.event) ∧
      (∀ call op (result : op.Result), op.transaction? = some tx →
        ((∃ log, ⟨call, .returned op result, log⟩ ∈ k.past) ↔
          ∃ log, ⟨call, .returned op result, log⟩ ∈ n.past)) ∧
      k.memory.get? tx = n.memory.get? tx ∧ k.log = Log.history n.log p tx := by
  obtain ⟨holds, k, plays, shadows⟩ : (discipline p).Holds n ∧
      ∃ k, Node.Plays (Serves p) (cues.filterMap (part p tx)) k ∧ Shadows p tx n k :=
    shadows_of_plays h
  refine ⟨⟨k, plays⟩, fun k' plays' => ?_⟩
  obtain rfl := plays.unique plays'
  exact ⟨shadows.events, fun _ _ result about => shadows.returned_iff holds about result,
    shadows.copy.symm, shadows.log⟩

/-! ## Two transactions at once -/

section Interleaves

/-- Two transactions are aborted, each by a call of its own. -/
def errand (call : ℕ) : Operation :=
  .handleDecision (if call = 0 then ⟨1⟩ else ⟨2⟩) .abort

/-- What a participant comes to by cues that are for one of two errands. -/
structure Interleaves (cues : List (Cue (role cohort))) (n : Node (role cohort)) : Prop where
  /-- It comes to it by the cues. -/
  plays : Node.Plays (Serves cohort) cues n
  /-- The calls that rest are on the errands. -/
  rests : ∀ call t, n.threads call = some t → call ≤ 1 ∧ t.operation = errand call

variable {cues : List (Cue (role cohort))} {n : Node (role cohort)}

theorem Interleaves.serves (h : Interleaves cues n) {call : ℕ} (le : call ≤ 1)
    {m : Moment (role cohort)} (own : m.call = call) : Serves cohort n (errand call) m where
  single := by simp [errand, Operation.transaction?]
  turn other t rests ne := by
    obtain ⟨le', operation⟩ := h.rests other t rests
    rw [operation]
    refine Set.disjoint_singleton.2 ?_
    obtain ⟨rfl, rfl⟩ | ⟨rfl, rfl⟩ : other = 0 ∧ call = 1 ∨ other = 1 ∧ call = 0 := by omega
    · decide
    · decide

theorem Interleaves.settle {s : Scene (role cohort)} {call : ℕ}
    {run : (role cohort).Run (errand call)} (h : Interleaves cues n) (le : call ≤ 1) (other : ℕ)
    (t : Thread (role cohort))
    (rests : (Node.settle s n.threads call (errand call) run).threads other = some t) :
    other ≤ 1 ∧ t.operation = errand other := by
  rcases Node.cases_of_rests_settle rests with ⟨-, rests⟩ | ⟨rfl, q, next, -, rfl⟩
  · exact h.rests other t rests
  · exact ⟨le, rfl⟩

/-- A participant starts an errand. -/
theorem Interleaves.opens (h : Interleaves cues n) (call : ℕ) (le : call ≤ 1)
    (new : ∀ m ∈ n.past, m.call ≠ call) :
    Interleaves (cues ++ [.started call (errand call)]) (n.opens call (errand call)) where
  plays := h.plays.snoc (.start new (h.serves le rfl))
  rests := h.settle le

/-- It goes on with it when its host answers. -/
theorem Interleaves.moves (h : Interleaves cues n) (call : ℕ) {q : Host.Request}
    {next : (role cohort).Answer (.inl q) × Memory → (role cohort).Run (errand call)}
    (rests : n.threads call = some ⟨errand call, .inl q, next⟩) :
    Interleaves
      (cues ++ [.answered call (errand call) (.inl q) (Host.reply (fun _ => none) n.log q)])
      (n.moves { outside := fun _ => none } call) := by
  obtain ⟨le, -⟩ := h.rests call _ rests
  have answers := Host.answers_reply (fun _ => none) n.log q
  simp only [Node.moves, rests]
  exact ⟨h.plays.snoc (.answer rests answers (h.serves le rfl)), h.settle le⟩

/-- Somebody else writes for the first of the two transactions. -/
abbrev foreignEntry : Entry :=
  { transaction := ⟨1⟩, actor := ⟨"c"⟩, previous := none, state := .init,
    payload := .begin [cohort] ∅ .epoch, time := .epoch }

theorem Interleaves.shares (h : Interleaves cues n) :
    Interleaves (cues ++ [.shared foreignEntry]) { n with log := n.log ++ [foreignEntry] } where
  plays := h.plays.snoc (.share (by decide))
  rests := h.rests

/-- The participant has begun with both errands when somebody writes into its log. -/
def interleavedRun : Node (role cohort) :=
  let begun := (Node.opens {} 0 (errand 0)).opens 1 (errand 1)
  let shared : Node (role cohort) := { begun with log := begun.log ++ [foreignEntry] }
  (((shared.moves { outside := fun _ => none } 0).moves { outside := fun _ => none } 1).moves
    { outside := fun _ => none } 0).moves { outside := fun _ => none } 0

/-- What comes to it. -/
def interleavedCues : List (Cue (role cohort)) :=
  [.started 0 (errand 0), .started 1 (errand 1), .shared foreignEntry,
    .answered 0 (errand 0) (.inl (.load ⟨1⟩)) (.ok [foreignEntry]),
    .answered 1 (errand 1) (.inl (.load ⟨2⟩)) (.ok []),
    .answered 0 (errand 0) (.inl .now) .epoch,
    .answered 0 (errand 0) (.inl (.append (entry cohort { transaction := ⟨1⟩, coordinator := none }
      .aborted (.resolved .abort) .epoch))) (.ok ())]

theorem plays_interleavedRun : Node.Plays (Serves cohort) interleavedCues interleavedRun := by
  have start : Interleaves [] {} := ⟨.nil, by simp⟩
  have begun := (start.opens 0 (by decide) (by simp)).opens 1 (by decide) (by decide +kernel)
  have first := begun.shares.moves 0 rfl
  have second := first.moves 1 rfl
  have third := second.moves 0 rfl
  exact (third.moves 0 rfl).plays

/-- While a participant aborts a transaction, it is also told to abort another, and somebody else
writes into its log. It logs and answers what it does when it is told of the first alone. -/
theorem transactions_do_not_interfere_interleavedRun :
    Node.Plays (Serves cohort) interleavedCues interleavedRun ∧
    interleavedRun.log.length = 2 ∧
    (interleavedCues.filterMap (part cohort ⟨1⟩)).length = 4 ∧
    ∃ k, Node.Plays (Serves cohort) (interleavedCues.filterMap (part cohort ⟨1⟩)) k ∧
      k.log = Log.history interleavedRun.log cohort ⟨1⟩ ∧ k.log.length = 1 ∧
      ∃ log, ⟨0, .returned (errand 0) (.ok ()), log⟩ ∈ k.past := by
  obtain ⟨⟨k, plays⟩, alone⟩ := transactions_do_not_interfere plays_interleavedRun ⟨1⟩
  obtain ⟨-, results, -, log⟩ := alone k plays
  refine ⟨plays_interleavedRun, by decide +kernel, rfl, k, plays, log, ?_, ?_⟩
  · rw [log]
    decide +kernel
  · exact (results 0 (errand 0) (.ok ()) rfl).2 ⟨_, List.mem_of_getLast? rfl⟩

end Interleaves

end AtomicCommit.Participant
