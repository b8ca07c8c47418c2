import AtomicCommit.Proofs.Log.History
import AtomicCommit.Proofs.Process.Node
import AtomicCommit.Proofs.Program.Contract
import AtomicCommit.Proofs.Sorted.Lookup
import Mathlib.Data.List.Induction
import Mathlib.Data.Set.Lattice
import Mathlib.Order.CompletePartialOrder

/-!
# Disciplines for the calls of a process

The calls of a process share its memory and its log. A discipline gives every call the transactions
that it alone may change, says what is kept true of each transaction while all calls rest, and what
justifies each moment. If the program of every operation keeps to its share, whatever it is
answered, then all of this holds in every run.

## Main definitions

* `Discipline`: what is kept and what is justified.
* `Discipline.contract`: the contract of one call.
* `Discipline.Holds`: the invariant of the process.

## Main results

* `Discipline.holds_step`: a process whose operations keep to the discipline stays in it.
-/

namespace AtomicCommit

/-- The moments of a call. -/
def momentsOf {R : Role} (past : List (Moment R)) (call : ℕ) : List (Moment R) :=
  past.filter fun m => m.call = call

/-- The last moment of a call. -/
def lastOf {R : Role} (past : List (Moment R)) (call : ℕ) : Option (Moment R) :=
  (momentsOf past call).getLast?

/-- What a moment presupposes: a start a new call, an answer that the call rests at the question,
and an end a start. -/
def Moment.Follows {R : Role} (m : Moment R) (past : List (Moment R)) : Prop :=
  match m.event with
  | .started _ => ∀ m' ∈ past, m'.call ≠ m.call
  | .answered q _ => ∃ log, lastOf past m.call = some ⟨m.call, .asked q, log⟩
  | .returned op _ => ∃ log, ⟨m.call, .started op, log⟩ ∈ past
  | .asked _ => True

section MomentsOf

variable {R : Role} {past later : List (Moment R)} {call : ℕ}

@[simp] theorem momentsOf_append (past later : List (Moment R)) (call : ℕ) :
    momentsOf (past ++ later) call = momentsOf past call ++ momentsOf later call :=
  List.filter_append ..

theorem momentsOf_own {m : Moment R} (h : m.call = call) : momentsOf [m] call = [m] := by
  simp [momentsOf, h]

theorem mem_of_mem_momentsOf {m : Moment R} (h : m ∈ momentsOf past call) : m ∈ past :=
  (List.mem_filter.1 h).1

theorem mem_momentsOf {m : Moment R} (h : m ∈ past) (own : m.call = call) :
    m ∈ momentsOf past call :=
  List.mem_filter.2 ⟨h, by simpa using own⟩

/-- What has happened in a call is what is noted of it. -/
theorem mem_events_iff {event : Event R} :
    event ∈ (momentsOf past call).map Moment.event ↔ ∃ log, ⟨call, event, log⟩ ∈ past := by
  rw [List.mem_map]
  constructor
  · rintro ⟨⟨call', event, log⟩, mem, rfl⟩
    obtain rfl : call' = call := by simpa using (List.mem_filter.1 mem).2
    exact ⟨log, mem_of_mem_momentsOf mem⟩
  · rintro ⟨log, mem⟩
    exact ⟨_, mem_momentsOf mem rfl, rfl⟩

/-- What is new in a call is what has been added to its moments. -/
theorem mem_or_of_momentsOf {m : Moment R} {new : List (Moment R)}
    (own : momentsOf later call = momentsOf past call ++ new) (h : m ∈ later)
    (same : m.call = call) : m ∈ past ∨ m ∈ new := by
  have := mem_momentsOf h same
  rw [own, List.mem_append] at this
  exact this.imp_left mem_of_mem_momentsOf

theorem momentsOf_others (h : ∀ m ∈ later, m.call ≠ call) : momentsOf later call = [] := by
  simpa [momentsOf] using h

/-- A call has one moment more once it is noted. -/
theorem momentsOf_note (s : Scene R) (call : ℕ) (event : Event R) :
    momentsOf (s.note call event).past call = momentsOf s.past call ++ [⟨call, event, s.log⟩] := by
  simp [Scene.note, momentsOf_own]

theorem momentsOf_note_of_ne {s : Scene R} {other : ℕ} {event : Event R} (ne : call ≠ other) :
    momentsOf (s.note other event).past call = momentsOf s.past call := by
  have others : ∀ m ∈ [(⟨other, event, s.log⟩ : Moment R)], m.call ≠ call := by
    simpa using ne.symm
  rw [Scene.note, momentsOf_append, momentsOf_others others, List.append_nil]

theorem momentsOf_settle_of_ne {s : Scene R} {threads : ℕ → Option (Thread R)} {other : ℕ}
    {op : R.Operation} {p : R.Run op} (ne : call ≠ other) :
    momentsOf (Node.settle s threads other op p).past call = momentsOf s.past call := by
  cases p <;> exact momentsOf_note_of_ne ne

theorem lastOf_append_own (past : List (Moment R)) (m : Moment R) :
    lastOf (past ++ [m]) m.call = some m := by
  simp [lastOf, momentsOf_own]

theorem lastOf_append_other (past : List (Moment R)) (h : ∀ m ∈ later, m.call ≠ call) :
    lastOf (past ++ later) call = lastOf past call := by
  rw [lastOf, momentsOf_append, momentsOf_others h, List.append_nil, lastOf]

/-- After its last moment a call has no other. -/
theorem eq_append_of_lastOf {m : Moment R} (h : lastOf past call = some m) :
    m.call = call ∧ ∃ before after, past = before ++ m :: after ∧ ∀ m' ∈ after, m'.call ≠ call := by
  induction past using List.reverseRecOn with
  | nil => simp [lastOf, momentsOf] at h
  | append_singleton past m' ih =>
    by_cases own : m'.call = call
    · subst own
      rw [lastOf_append_own, Option.some.injEq] at h
      exact ⟨by rw [h], past, [], by rw [h], by simp⟩
    · rw [lastOf_append_other past (by simpa using own)] at h
      obtain ⟨hm, before, after, rfl, others⟩ := ih h
      exact ⟨hm, before, after ++ [m'], by simp, by simpa [or_imp, forall_and, own] using others⟩

end MomentsOf

/-- A discipline for the calls of a process. -/
structure Discipline (R : Role) where
  /-- The transactions that a call has to itself after a past: only it may change them. -/
  claims : List (Moment R) → ℕ → R.Operation → Set TransactionId
  /-- What is kept true of a transaction with its history and its copy in memory. -/
  Kept : List (Moment R) → TransactionId → List Entry → Option R.Copy → Prop
  /-- What justifies a moment after a past. -/
  Justified : List (Moment R) → Moment R → Prop

namespace Discipline

variable {R : Role} (D : Discipline R)

/-- What holds of a transaction in a scene with another memory. -/
def KeptIn (s : Scene R) (memory : R.Memory) (tx : TransactionId) : Prop :=
  D.Kept s.past tx (Log.history s.log R.name tx) (memory.get? tx)

/-- A past in which every moment is justified by those before it, over a log that grows. -/
inductive Chronicle : List (Moment R) → Prop where
  /-- Nothing has happened. -/
  | nil : Chronicle []
  /-- One more moment. -/
  | snoc {past : List (Moment R)} {m : Moment R} (before : Chronicle past)
      (grown : ∀ m' ∈ past, m'.log <+: m.log) (follows : m.Follows past)
      (justified : D.Justified past m) : Chronicle (past ++ [m])

/-- A scene in which all calls rest. -/
structure Sound (s : Scene R) : Prop where
  /-- The past is justified. -/
  chronicle : D.Chronicle s.past
  /-- The log has only grown. -/
  grown : ∀ m ∈ s.past, m.log <+: s.log
  /-- Every transaction is in order. -/
  kept : ∀ tx, D.KeptIn s s.memory tx
  /-- Its own entries are those that it has appended. -/
  origin : ∀ e ∈ s.log, e.actor = R.name →
    ∃ call log, ⟨call, .answered (.inl (.append e)) (.ok ()), log⟩ ∈ s.past

/-- What others may change while a call rests that holds some transactions. -/
structure Rely (call : ℕ) (held : Set TransactionId) (s s' : Scene R) : Prop where
  /-- They add their own moments. -/
  past : ∃ later, s'.past = s.past ++ later ∧ ∀ m ∈ later, m.call ≠ call
  /-- They add to the log. -/
  log : s.log <+: s'.log
  /-- The histories of the transactions held are not theirs. -/
  history : ∀ tx ∈ held, Log.history s'.log R.name tx = Log.history s.log R.name tx
  /-- Neither are the copies. -/
  memory : ∀ tx ∈ held, s'.memory.get? tx = s.memory.get? tx

/-- The transactions that a call keeps to itself while it rests at a question. -/
def held (s : Scene R) (call : ℕ) (op : R.Operation) (q : R.Request) : Set TransactionId :=
  D.claims (s.note call (.asked q)).past call op

/-- How a call that rests in a scene is answered, after others have run. -/
def Resumes (call : ℕ) (op : R.Operation) (s : Scene R) (q : R.Request)
    (a : R.Answer q × R.Memory) (s' : Scene R) : Prop :=
  ∃ s₁ log, D.Sound s₁ ∧ Rely call (D.claims s.past call op) s s₁ ∧
    a.2 = s₁.memory ∧ R.Answers s₁.log q a.1 log ∧
    D.Justified s₁.past ⟨call, .answered q a.1, log⟩ ∧
    s' = { s₁ with log }.note call (.answered q a.1)

/-- What a call leaves behind in its memory when it rests or ends. -/
structure Leaves (call : ℕ) (op : R.Operation) (s : Scene R) (memory : R.Memory) : Prop where
  /-- Every transaction is in order. -/
  kept : ∀ tx, D.KeptIn s memory tx
  /-- Those it does not claim are as they were. -/
  frame : ∀ tx, tx ∉ D.claims s.past call op → memory.get? tx = s.memory.get? tx

/-- The contract of a call. -/
def contract (call : ℕ) (op : R.Operation) : Contract (R.interface.sharing R.Memory) (Scene R) where
  asks s q :=
    D.Leaves call op s q.2 ∧ D.Justified s.past ⟨call, .asked q.1, s.log⟩ ∧
      ∀ e, q.1 = .inl (.append e) →
        e.actor = R.name ∧ e.transaction ∈ D.held s call op q.1
  answers s q a s' := D.Resumes call op ({ s with memory := q.2 }.note call (.asked q.1)) q.1 a s'

/-- The end of a call. -/
def Ends (call : ℕ) (op : R.Operation) (outcome : R.Result op × R.Memory) (s : Scene R) : Prop :=
  D.Leaves call op s outcome.2 ∧ D.Justified s.past ⟨call, .returned op outcome.1, s.log⟩

/-- What holds of a resting call. -/
structure Waits (s : Scene R) (call : ℕ) (t : Thread R) : Prop where
  /-- It has started. -/
  started : ∃ log, ⟨call, .started t.operation, log⟩ ∈ s.past
  /-- It rests at its question. -/
  asked : ∃ log, lastOf s.past call = some ⟨call, .asked t.question, log⟩
  /-- What it appends is its own. -/
  appends : ∀ e, t.question = .inl (.append e) →
    e.actor = R.name ∧ e.transaction ∈ D.claims s.past call t.operation
  /-- It goes on under its contract. -/
  resumes : ∀ a s', D.Resumes call t.operation s t.question a s' →
    (t.next a).Meets (D.contract call t.operation) (D.Ends call t.operation) s'

/-- The invariant of a process under the discipline. -/
structure Holds (n : Node R) : Prop extends D.Sound n.toScene where
  /-- Every resting call waits under its contract. -/
  waits : ∀ call t, n.threads call = some t → D.Waits n.toScene call t

/-- The laws of a discipline. -/
structure Lawful : Prop where
  /-- Nothing is known of a transaction at first. -/
  kept_nil : ∀ tx, D.Kept [] tx [] none
  /-- More past does no harm. -/
  kept_mono : ∀ past later tx history copy, D.Kept past tx history copy →
    D.Kept (past ++ later) tx history copy
  /-- A copy may be lost. -/
  kept_none : ∀ past tx history copy, D.Kept past tx history copy → D.Kept past tx history none
  /-- The claims of a call do not depend on others. -/
  claims_own : ∀ past past' call op, momentsOf past call = momentsOf past' call →
    D.claims past call op = D.claims past' call op
  /-- No claim is given up by appending an entry. -/
  claims_append : ∀ past call op e a log, D.claims past call op ⊆
    D.claims (past ++ [⟨call, .answered (.inl (.append e)) a, log⟩]) call op

variable {D}

theorem Rely.refl {call : ℕ} {held : Set TransactionId} (s : Scene R) : Rely call held s s where
  past := ⟨[], by simp⟩
  log := List.prefix_rfl
  history _ _ := rfl
  memory _ _ := rfl

theorem Rely.trans {call : ℕ} {held : Set TransactionId} {s₁ s₂ s₃ : Scene R}
    (h : Rely call held s₁ s₂) (h' : Rely call held s₂ s₃) : Rely call held s₁ s₃ where
  past := by
    obtain ⟨l, e, hl⟩ := h.past
    obtain ⟨l', e', hl'⟩ := h'.past
    refine ⟨l ++ l', by rw [e', e, List.append_assoc], ?_⟩
    intro m hm
    rcases List.mem_append.1 hm with hm | hm
    · exact hl m hm
    · exact hl' m hm
  log := h.log.trans h'.log
  history tx htx := (h'.history tx htx).trans (h.history tx htx)
  memory tx htx := (h'.memory tx htx).trans (h.memory tx htx)

theorem Rely.mem {call : ℕ} {held : Set TransactionId} {s s' : Scene R} (h : Rely call held s s')
    {m : Moment R} (hm : m ∈ s.past) : m ∈ s'.past := by
  obtain ⟨later, e, -⟩ := h.past
  rw [e]
  exact List.mem_append_left _ hm

theorem Chronicle.of_prefix {past before : List (Moment R)} (h : D.Chronicle past)
    (sub : before <+: past) : D.Chronicle before := by
  induction h with
  | nil =>
    rw [List.prefix_nil.1 sub]
    exact .nil
  | @snoc past m chronicle grown follows justified ih =>
    rcases List.prefix_concat_iff.1 sub with rfl | sub
    · exact .snoc chronicle grown follows justified
    · exact ih sub

/-- The last moment of a past. -/
theorem Chronicle.last {past : List (Moment R)} {m : Moment R} (h : D.Chronicle (past ++ [m])) :
    D.Chronicle past ∧ D.Justified past m := by
  generalize e : past ++ [m] = whole at h
  cases h with
  | nil => simp at e
  | snoc before _ _ justified =>
    obtain ⟨rfl, same⟩ := List.append_inj' e rfl
    cases same
    exact ⟨before, justified⟩

/-- The last moment of a past has what it presupposes. -/
theorem Chronicle.follows_last {past : List (Moment R)} {m : Moment R}
    (h : D.Chronicle (past ++ [m])) : m.Follows past := by
  generalize e : past ++ [m] = whole at h
  cases h with
  | nil => simp at e
  | snoc _ _ follows _ =>
    obtain ⟨rfl, same⟩ := List.append_inj' e rfl
    cases same
    exact follows

/-- What the past says of each of its moments and all that come before it holds of any two. -/
theorem Chronicle.pairwise {P : Moment R → Moment R → Prop} {past : List (Moment R)}
    (h : D.Chronicle past)
    (step : ∀ before m', D.Chronicle before → m'.Follows before → D.Justified before m' →
      ∀ m ∈ before, m.log <+: m'.log → P m m') : past.Pairwise P := by
  induction h with
  | nil => exact .nil
  | @snoc past m' chronicle grown follows justified ih =>
    rw [List.pairwise_append]
    refine ⟨ih, List.pairwise_singleton _ _, fun m hm m'' hm'' => ?_⟩
    rw [List.mem_singleton.1 hm'']
    exact step past m' chronicle follows justified m hm (grown m hm)

/-- Every moment has a past that justifies it. -/
theorem Chronicle.justified {past : List (Moment R)} (h : D.Chronicle past) {m : Moment R}
    (hm : m ∈ past) : ∃ before, before ++ [m] <+: past ∧ D.Chronicle before ∧
      (∀ m' ∈ before, m'.log <+: m.log) ∧ m.Follows before ∧ D.Justified before m := by
  induction h with
  | nil => simp at hm
  | @snoc past m' chronicle grown follows justified ih =>
    rcases List.mem_append.1 hm with hm | hm
    · obtain ⟨before, init, rest⟩ := ih hm
      exact ⟨before, init.trans (List.prefix_append _ _), rest⟩
    · rw [List.mem_singleton.1 hm]
      exact ⟨past, List.prefix_rfl, chronicle, grown, follows, justified⟩

/-- Between a question and its answer there is nothing else in the call. -/
theorem Chronicle.split_answered {past : List (Moment R)} (h : D.Chronicle past) {m : Moment R}
    (hm : m ∈ past) {q : R.Request} {a : R.Answer q} (answered : m.event = .answered q a) :
    ∃ before others after log, past = before ++ ⟨m.call, .asked q, log⟩ :: (others ++ m :: after) ∧
      ∀ m' ∈ others, m'.call ≠ m.call := by
  obtain ⟨before, ⟨after, rfl⟩, -, -, follows, -⟩ := h.justified hm
  simp only [Moment.Follows, answered] at follows
  obtain ⟨log, last⟩ := follows
  obtain ⟨-, before, others, rfl, between⟩ := eq_append_of_lastOf last
  exact ⟨before, others, after, log, by simp, between⟩

/-- What is answered has been asked. -/
theorem Chronicle.asked {past : List (Moment R)} (h : D.Chronicle past) {call : ℕ} {q : R.Request}
    {a : R.Answer q} {log : List Entry} (hm : ⟨call, .answered q a, log⟩ ∈ past) :
    ∃ log', ⟨call, .asked q, log'⟩ ∈ past := by
  obtain ⟨before, others, after, log', past, -⟩ := h.split_answered hm rfl
  refine ⟨log', ?_⟩
  rw [past]
  simp

/-- Moments that may not stand in either order are one. -/
theorem eq_of_pairwise {P : Moment R → Moment R → Prop} {past : List (Moment R)}
    (h : past.Pairwise P) {m m' : Moment R} (hm : m ∈ past) (hm' : m' ∈ past) (no : ¬P m m')
    (no' : ¬P m' m) : m' = m := by
  induction h with
  | nil => simp at hm
  | cons head _ ih =>
    rcases List.mem_cons.1 hm with rfl | tail <;> rcases List.mem_cons.1 hm' with rfl | tail'
    · rfl
    · exact absurd (head m' tail') no
    · exact absurd (head m tail) no'
    · exact ih tail tail'

/-- A call that has ended has started before, and its result is justified. -/
theorem Chronicle.returned {past : List (Moment R)} (h : D.Chronicle past) {call : ℕ}
    {op : R.Operation} {result : R.Result op} {log : List Entry}
    (hm : ⟨call, .returned op result, log⟩ ∈ past) :
    (∃ before, D.Justified before ⟨call, .returned op result, log⟩) ∧
      ∃ log', log' <+: log ∧ ⟨call, .started op, log'⟩ ∈ past := by
  obtain ⟨before, sub, -, grown, follows, justified⟩ := h.justified hm
  obtain ⟨log', started⟩ := follows
  refine ⟨⟨before, justified⟩, log', grown _ started, ?_⟩
  exact ((List.prefix_append _ _).trans sub).subset started

/-- A call starts once. -/
theorem Chronicle.started_unique {past : List (Moment R)} (h : D.Chronicle past) {call : ℕ}
    {op op' : R.Operation} {log log' : List Entry} (hm : ⟨call, .started op, log⟩ ∈ past)
    (hm' : ⟨call, .started op', log'⟩ ∈ past) : op' = op := by
  have once : past.Pairwise fun m m' => ∀ op, m'.event = .started op → m.call ≠ m'.call := by
    refine h.pairwise ?_
    intro before m' _ follows _ m hm _ op started
    simp only [Moment.Follows, started] at follows
    exact follows m hm
  have same := eq_of_pairwise once hm hm' (fun h => h op' rfl rfl) (fun h => h op rfl rfl)
  cases same
  rfl

/-- The first that a call goes through is its start. -/
theorem Chronicle.head_of_started {past : List (Moment R)} (h : D.Chronicle past) {call : ℕ}
    {op : R.Operation} {log : List Entry} (hm : ⟨call, .started op, log⟩ ∈ past) :
    (momentsOf past call).head? = some ⟨call, .started op, log⟩ := by
  obtain ⟨before, ⟨after, rfl⟩, -, -, new, -⟩ := h.justified hm
  have own : momentsOf [(⟨call, .started op, log⟩ : Moment R)] call = _ := momentsOf_own rfl
  rw [momentsOf_append, momentsOf_append, momentsOf_others new, own]
  rfl

theorem Lawful.claims_append_others (lawful : D.Lawful) {past later : List (Moment R)} {call : ℕ}
    {op : R.Operation} (others : ∀ m ∈ later, m.call ≠ call) :
    D.claims (past ++ later) call op = D.claims past call op :=
  lawful.claims_own _ _ _ _ (by simp [momentsOf_others others])

/-- An entry of the process in the log is one that it has asked to append. -/
theorem Sound.asked_of_mem {s : Scene R} (h : D.Sound s) {e : Entry} (he : e ∈ s.log)
    (own : e.actor = R.name) : ∃ before call log,
      before ++ [⟨call, .asked (.inl (.append e)), log⟩] <+: s.past ∧
        D.Justified before ⟨call, .asked (.inl (.append e)), log⟩ := by
  obtain ⟨call, log, answered⟩ := h.origin e he own
  obtain ⟨before, others, after, log', past, -⟩ := h.chronicle.split_answered answered rfl
  refine ⟨before, call, log', ?_, ?_⟩
  · rw [past]
    exact List.prefix_append_right_inj before |>.2 (List.prefix_append [_] _)
  · refine (h.chronicle.of_prefix ?_).last.2
    rw [past]
    exact List.prefix_append_right_inj before |>.2 (List.prefix_append [_] _)

theorem Resumes.of_rely {call : ℕ} {op : R.Operation} {s₀ s s' : Scene R} {q : R.Request}
    {a : R.Answer q × R.Memory} (claims : D.claims s.past call op = D.claims s₀.past call op)
    (rely : Rely call (D.claims s₀.past call op) s₀ s) (h : D.Resumes call op s q a s') :
    D.Resumes call op s₀ q a s' := by
  obtain ⟨s₁, log, sound, more, rest⟩ := h
  exact ⟨s₁, log, sound, rely.trans (claims ▸ more), rest⟩

/-- What holds of a resting call is not disturbed by what others may do. -/
theorem Waits.of_rely (lawful : D.Lawful) {s s' : Scene R} {call : ℕ} {t : Thread R}
    (h : D.Waits s call t) (rely : Rely call (D.claims s.past call t.operation) s s') :
    D.Waits s' call t := by
  have claims : D.claims s'.past call t.operation = D.claims s.past call t.operation := by
    obtain ⟨later, e, others⟩ := rely.past
    rw [e, lawful.claims_append_others others]
  constructor
  · obtain ⟨log, h⟩ := h.started
    exact ⟨log, rely.mem h⟩
  · obtain ⟨log, h⟩ := h.asked
    obtain ⟨later, e, others⟩ := rely.past
    exact ⟨log, by rw [e, lastOf_append_other _ others, h]⟩
  · intro e he
    rw [claims]
    exact h.appends e he
  · intro a s'' resumes
    exact h.resumes a s'' (resumes.of_rely claims rely)

/-! ## What a call finds when it is answered -/

/-- The scene in which the answer to a question comes, as the call that has asked sees it. -/
structure Finds (D : Discipline R) (call : ℕ) (op : R.Operation) (s : Scene R) (memory : R.Memory)
    (q : R.Request) (s₁ : Scene R) : Prop extends D.Sound s₁ where
  /-- The past has grown. -/
  past : s.past <+: s₁.past
  /-- The question is noted. -/
  asked : ⟨call, .asked q, s.log⟩ ∈ s₁.past
  /-- Nothing else is new in the call. -/
  own : momentsOf s₁.past call = momentsOf s.past call ++ [⟨call, .asked q, s.log⟩]
  /-- The log has grown. -/
  log : s.log <+: s₁.log
  /-- The histories held are as they were. -/
  history : ∀ tx ∈ D.held s call op q, Log.history s₁.log R.name tx = Log.history s.log R.name tx
  /-- The copies held are as the call left them. -/
  memory : ∀ tx ∈ D.held s call op q, s₁.memory.get? tx = memory.get? tx

theorem Resumes.finds {call : ℕ} {op : R.Operation} {s s' : Scene R} {memory : R.Memory}
    {q : R.Request} {a : R.Answer q × R.Memory}
    (h : D.Resumes call op ({ s with memory }.note call (.asked q)) q a s') :
    ∃ s₁ log, Finds D call op s memory q s₁ ∧ a.2 = s₁.memory ∧ R.Answers s₁.log q a.1 log ∧
      D.Justified s₁.past ⟨call, .answered q a.1, log⟩ ∧
      s' = { s₁ with log }.note call (.answered q a.1) := by
  obtain ⟨s₁, log, sound, rely, rest⟩ := h
  obtain ⟨later, past, others⟩ := rely.past
  refine ⟨s₁, log, ⟨sound, ?_, ?_, ?_, rely.log, rely.history, rely.memory⟩, rest⟩
  · rw [past]
    exact (List.prefix_append _ _).trans (List.prefix_append _ _)
  · rw [past]
    exact List.mem_append_left _ (List.mem_append_right _ (by simp))
  · have asked : momentsOf [(⟨call, .asked q, s.log⟩ : Moment R)] call = _ := momentsOf_own rfl
    simp only [past, Scene.note, momentsOf_append, momentsOf_others others, List.append_nil, asked]

theorem Finds.own_answered {call : ℕ} {op : R.Operation} {s s₁ : Scene R} {memory : R.Memory}
    {q : R.Request} (h : D.Finds call op s memory q s₁) {a : R.Answer q} {log : List Entry} :
    momentsOf ({ s₁ with log }.note call (.answered q a)).past call =
      momentsOf s.past call ++ [⟨call, .asked q, s.log⟩, ⟨call, .answered q a, log⟩] := by
  have answered : momentsOf [(⟨call, .answered q a, log⟩ : Moment R)] call = _ :=
    momentsOf_own rfl
  simp only [Scene.note, momentsOf_append, h.own, List.append_assoc, answered, List.cons_append,
    List.nil_append]

/-! ## The invariant is kept -/

/-- What a running call has done since all calls were at rest. -/
structure Runs (n : Node R) (call : ℕ) (op : R.Operation) (s : Scene R) : Prop where
  /-- Its last event. -/
  event : ∃ event, s = { n.toScene with log := s.log }.note call event
  /-- The past is justified. -/
  chronicle : D.Chronicle s.past
  /-- The log has only grown. -/
  log : n.log <+: s.log
  /-- Only a transaction that it claims has come further. -/
  history : ∀ tx, tx ∉ D.claims s.past call op →
    Log.history s.log R.name tx = Log.history n.log R.name tx
  /-- New entries are its own or of others. -/
  origin : ∀ e ∈ s.log, e.actor = R.name →
    ∃ call log, ⟨call, .answered (.inl (.append e)) (.ok ()), log⟩ ∈ s.past
  /-- It has started. -/
  started : ∃ log, ⟨call, .started op, log⟩ ∈ s.past
  /-- What other calls have to themselves it does not claim. -/
  free : ∀ other t, n.threads other = some t → other ≠ call →
    Disjoint (D.claims n.past other t.operation) (D.claims s.past call op)

/-- What a run leaves to the calls that rest meanwhile. -/
theorem Runs.rely {n : Node R} {call : ℕ} {op : R.Operation} {s : Scene R}
    (h : D.Runs n call op s) {memory : R.Memory}
    (frame : ∀ tx, tx ∉ D.claims s.past call op → memory.get? tx = s.memory.get? tx)
    (event : Event R) {other : ℕ} {t : Thread R} (rests : n.threads other = some t)
    (ne : other ≠ call) :
    Rely other (D.claims n.past other t.operation) n.toScene
      ({ s with memory }.note call event) := by
  obtain ⟨last, hs⟩ := h.event
  have past : s.past = n.past ++ [⟨call, last, s.log⟩] := by rw [hs]; rfl
  have unclaimed : ∀ tx ∈ D.claims n.past other t.operation, tx ∉ D.claims s.past call op :=
    fun _ kept => Set.disjoint_left.1 (h.free other t rests ne) kept
  constructor
  · refine ⟨[⟨call, last, s.log⟩, ⟨call, event, s.log⟩], by simp [Scene.note, past], ?_⟩
    simp [ne.symm]
  · exact h.log
  · intro tx htx
    exact h.history tx (unclaimed tx htx)
  · intro tx htx
    refine (frame tx (unclaimed tx htx)).trans ?_
    rw [hs]
    rfl

/-- A call that rests or ends has left to the others what they have to themselves. -/
theorem Runs.rely_settle {n : Node R} {call : ℕ} {op : R.Operation} {s : Scene R}
    (h : D.Runs n call op s) {p : R.Run op}
    (meets : p.Meets (D.contract call op) (D.Ends call op) s) {other : ℕ} {t : Thread R}
    (rests : n.threads other = some t) (ne : other ≠ call) :
    Rely other (D.claims n.past other t.operation) n.toScene
      (Node.settle s n.threads call op p).toScene := by
  cases p with
  | done outcome => exact h.rely meets.1.frame _ rests ne
  | ask q next => exact h.rely meets.1.1.frame _ rests ne

/-- A call that runs under its contract leaves the invariant in place when it rests or ends. -/
theorem Runs.settle (lawful : D.Lawful) {n : Node R} (holds : D.Holds n) {call : ℕ}
    {op : R.Operation} {s : Scene R} (h : D.Runs n call op s) {p : R.Run op}
    (meets : p.Meets (D.contract call op) (D.Ends call op) s) :
    D.Holds (Node.settle s n.threads call op p) := by
  have grown : ∀ m ∈ s.past, m.log <+: s.log := by
    obtain ⟨last, hs⟩ := h.event
    rw [hs]
    intro m hm
    rcases List.mem_append.1 hm with hm | hm
    · exact (holds.grown m hm).trans h.log
    · rw [List.mem_singleton.1 hm]
      exact List.prefix_rfl
  -- what the last event, to rest or to end, adds to the past
  have sound : ∀ (memory : R.Memory) (event : Event R), D.Leaves call op s memory →
      Moment.Follows ⟨call, event, s.log⟩ s.past → D.Justified s.past ⟨call, event, s.log⟩ →
      D.Sound ({ s with memory }.note call event) := by
    intro memory event leaves follows justified
    constructor
    · exact .snoc h.chronicle grown follows justified
    · intro m hm
      rcases List.mem_append.1 hm with hm | hm
      · exact grown m hm
      · rw [List.mem_singleton.1 hm]
        exact List.prefix_rfl
    · intro tx
      exact lawful.kept_mono _ _ _ _ _ (leaves.kept tx)
    · intro e he own
      obtain ⟨call', log, he⟩ := h.origin e he own
      exact ⟨call', log, List.mem_append_left _ he⟩
  constructor
  · cases p with
    | done outcome =>
      obtain ⟨leaves, justified⟩ := meets
      exact sound outcome.2 (.returned op outcome.1) leaves h.started justified
    | ask q next =>
      obtain ⟨⟨leaves, justified, -⟩, -⟩ := meets
      exact sound q.2 (.asked q.1) leaves trivial justified
  · intro other t rests
    rcases Node.cases_of_rests_settle rests with ⟨ne, rests⟩ | ⟨rfl, q, next, rfl, rfl⟩
    · exact (holds.waits other t rests).of_rely lawful (h.rely_settle meets rests ne)
    · obtain ⟨⟨-, -, appends⟩, goesOn⟩ := meets
      obtain ⟨log, started⟩ := h.started
      constructor
      · exact ⟨log, List.mem_append_left _ started⟩
      · exact ⟨s.log, lastOf_append_own s.past ⟨other, .asked q.1, s.log⟩⟩
      · intro e he
        exact appends e he
      · exact goesOn

variable (D) in
/-- Every operation keeps to the discipline. -/
def Obeyed : Prop :=
  ∀ (s : Scene R) (call : ℕ) (op : R.Operation), D.Sound s → (∀ m ∈ s.past, m.call ≠ call) →
    D.Justified s.past ⟨call, .started op, s.log⟩ →
    (R.program op s.memory).Meets (D.contract call op) (D.Ends call op)
      (s.note call (.started op))

theorem holds_initial (lawful : D.Lawful) : D.Holds {} where
  chronicle := .nil
  grown := by simp
  kept := lawful.kept_nil
  origin := by simp
  waits := by simp

section Steps

variable {n n' : Node R} {call : ℕ} {op : R.Operation}

/-- A call that starts runs. -/
theorem Runs.start (holds : D.Holds n) (new : ∀ m ∈ n.past, m.call ≠ call)
    (justified : D.Justified n.past ⟨call, .started op, n.log⟩)
    (free : D.Chronicle (n.past ++ [⟨call, .started op, n.log⟩]) → ∀ other t,
      n.threads other = some t → other ≠ call →
      Disjoint (D.claims n.past other t.operation)
        (D.claims (n.past ++ [⟨call, .started op, n.log⟩]) call op)) :
    D.Runs n call op (n.note call (.started op)) := by
  have chronicle : D.Chronicle (n.past ++ [⟨call, .started op, n.log⟩]) :=
    holds.chronicle.snoc holds.grown new justified
  constructor
  · exact ⟨_, rfl⟩
  · exact chronicle
  · exact List.prefix_rfl
  · exact fun _ _ => rfl
  · intro e he own
    obtain ⟨call', log, he⟩ := holds.origin e he own
    exact ⟨call', log, List.mem_append_left _ he⟩
  · exact ⟨n.log, List.mem_append_right _ (by simp)⟩
  · exact free chronicle

/-- A resting call that is answered runs on. -/
theorem Runs.answer (lawful : D.Lawful) (holds : D.Holds n) {t : Thread R}
    {a : R.Answer t.question} {log : List Entry} (rests : n.threads call = some t)
    (host : R.Answers n.log t.question a log)
    (justified : D.Justified n.past ⟨call, .answered t.question a, log⟩)
    (free : D.Chronicle (n.past ++ [⟨call, .answered t.question a, log⟩]) → ∀ other t',
      n.threads other = some t' → other ≠ call →
      Disjoint (D.claims n.past other t'.operation)
        (D.claims (n.past ++ [⟨call, .answered t.question a, log⟩]) call t.operation)) :
    D.Runs n call t.operation
      ({ n.toScene with log }.note call (.answered t.question a)) := by
  have waits := holds.waits call t rests
  have log_or := Role.answers_log host
  have grows : n.log <+: log := by
    rcases log_or with rfl | ⟨e, -, -, rfl⟩
    · exact List.prefix_rfl
    · exact List.prefix_append _ _
  have chronicle : D.Chronicle (n.past ++ [⟨call, .answered t.question a, log⟩]) :=
    holds.chronicle.snoc (fun m hm => (holds.grown m hm).trans grows) waits.asked justified
  constructor
  · exact ⟨_, rfl⟩
  · exact chronicle
  · exact grows
  · intro tx unclaimed
    have claims_answered : ∀ e, t.question = .inl (.append e) →
        D.claims n.past call t.operation ⊆
          D.claims (n.past ++ [⟨call, .answered t.question a, log⟩]) call t.operation := by
      intro e he
      obtain ⟨operation, question, next⟩ := t
      dsimp only at he
      subst he
      exact lawful.claims_append _ _ _ _ _ _
    rcases log_or with rfl | ⟨e, he, -, rfl⟩
    · rfl
    · refine Log.history_append_other _ fun _ eq => unclaimed ?_
      rw [← eq]
      exact claims_answered e he (waits.appends e he).2
  · intro e he own
    have old : e ∈ n.log → ∃ call' log', ⟨call', .answered (.inl (.append e)) (.ok ()), log'⟩ ∈
        ({ n.toScene with log }.note call (.answered t.question a)).past := by
      intro he
      obtain ⟨call', log', he⟩ := holds.origin e he own
      exact ⟨call', log', List.mem_append_left _ he⟩
    rcases log_or with rfl | ⟨e', hq, ha, rfl⟩
    · exact old he
    · rcases List.mem_append.1 he with he | he
      · exact old he
      · rw [List.mem_singleton.1 he]
        obtain ⟨operation, question, next⟩ := t
        dsimp only at hq
        subst hq
        cases ha
        exact ⟨call, n.log ++ [e'], List.mem_append_right _ (by simp)⟩
  · obtain ⟨log', started⟩ := waits.started
    exact ⟨log', List.mem_append_left _ started⟩
  · exact free chronicle

/-- How an answer finds the call that rests. -/
theorem Resumes.answer (holds : D.Holds n) {t : Thread R} {a : R.Answer t.question}
    {log : List Entry} (host : R.Answers n.log t.question a log)
    (justified : D.Justified n.past ⟨call, .answered t.question a, log⟩) :
    D.Resumes call t.operation n.toScene t.question (a, n.memory)
      ({ n.toScene with log }.note call (.answered t.question a)) :=
  ⟨n.toScene, log, holds.toSound, .refl _, rfl, host, justified, rfl⟩

/-- An entry of another process disturbs no call. -/
theorem Rely.share {e : Entry} (other : e.actor ≠ R.name) {held : Set TransactionId}
    (s : Scene R) : Rely call held s { s with log := s.log ++ [e] } where
  past := ⟨[], by simp⟩
  log := List.prefix_append _ _
  history _ _ := Log.history_append_other _ fun own => absurd own other
  memory _ _ := rfl

variable (D) in
/-- What is allowed to happen to a process is justified, and lets no call get into the way of
another. -/
structure Tolerates (n : Node R) (allows : R.Operation → Moment R → Prop) : Prop where
  /-- A call that starts is justified. -/
  starts : ∀ call op log, allows op ⟨call, .started op, log⟩ →
    D.Justified n.past ⟨call, .started op, log⟩
  /-- So is an answer. -/
  answers : ∀ call op q a log, allows op ⟨call, .answered q a, log⟩ →
    D.Justified n.past ⟨call, .answered q a, log⟩
  /-- What a call claims then is free. -/
  free : ∀ op m, allows op m → D.Chronicle (n.past ++ [m]) → ∀ other t,
    n.threads other = some t → other ≠ m.call →
    Disjoint (D.claims n.past other t.operation) (D.claims (n.past ++ [m]) m.call op)

/-- A process whose operations keep to the discipline stays in it, as long as its surroundings do
only what it tolerates. -/
theorem holds_step (lawful : D.Lawful) (obeyed : D.Obeyed)
    {allows : R.Operation → Moment R → Prop} (holds : D.Holds n) (step : n.Step allows n')
    (tolerates : D.Tolerates n allows) : D.Holds n' := by
  cases step with
  | @start call op new allowed =>
    have justified := tolerates.starts _ _ _ allowed
    have runs := Runs.start holds new justified (tolerates.free _ _ allowed)
    exact runs.settle lawful holds (obeyed n.toScene call op holds.toSound new justified)
  | @answer call t a log rests host allowed =>
    have justified := tolerates.answers _ _ _ _ _ allowed
    have runs := Runs.answer lawful holds rests host justified (tolerates.free _ _ allowed)
    exact runs.settle lawful holds
      ((holds.waits call t rests).resumes _ _ (.answer holds host justified))
  | restart =>
    constructor
    · constructor
      · exact holds.chronicle
      · exact holds.grown
      · intro tx
        exact lawful.kept_none _ _ _ _ (holds.kept tx)
      · exact holds.origin
    · simp
  | @share e other =>
    have same : ∀ tx, Log.history (n.log ++ [e]) R.name tx = Log.history n.log R.name tx :=
      fun tx => Log.history_append_other _ fun own => absurd own other
    constructor
    · constructor
      · exact holds.chronicle
      · exact fun m hm => (holds.grown m hm).trans (List.prefix_append _ _)
      · intro tx
        simpa only [KeptIn, same] using holds.kept tx
      · intro e' he' own
        rcases List.mem_append.1 he' with he' | he'
        · exact holds.origin e' he' own
        · rw [List.mem_singleton.1 he'] at own
          exact absurd own other
    · intro call t rests
      exact (holds.waits call t rests).of_rely lawful (.share other _)

end Steps

end Discipline

end AtomicCommit
