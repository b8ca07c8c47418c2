import AtomicCommit.Proofs.Process.Node
import Mathlib.Logic.Relation

/-!
# Smooth runs

When it is fixed what the host of a process stores and what it is answered from outside, and a
single call runs, all that happens until the call has to wait for somebody else can be computed.
What is computed in this way may happen.

## Main definitions

* `Host.reply`, `Host.after`: a host that fails to store what it is told to refuse.
* `Node.smooth`: a call goes on as far as it is answered.
* `Node.begins`, `Node.resumes`: a call starts, or is answered, and goes on as far as it can.
* `Node.opens`, `Node.moves`: a call starts, or is answered, and goes on to its next question.
* `Node.Alone`, `Node.Rested`: no other call rests, or none at all and the next has its number.

## Main results

* `Node.Attains.begins`, `Node.Attains.resumes`: what is computed may happen.
* `Node.smooth_ends`, `Node.begins_ends`: a call that is answered everything ends.
* `Node.Rested.begins`: calls that end run one after another.
-/

namespace AtomicCommit

namespace Host

variable (refuses : Entry → Option LogError)

/-- What a host answers that refuses to store some entries. -/
def reply (log : List Entry) : (q : Request) → Answer q
  | .now => .epoch
  | .append e =>
    match refuses e with
    | some failure => .error failure
    | none => .ok ()
  | .load tx => .ok (Log.load log tx)
  | .scan actor => .ok (Log.scanIncomplete log actor)

/-- The log after such an answer. -/
def after (log : List Entry) : Request → List Entry
  | .append e => if (refuses e).isSome then log else log ++ [e]
  | _ => log

theorem answers_reply (log : List Entry) (q : Request) :
    Answers log q (reply refuses log q) (after refuses log q) := by
  cases q with
  | now => rfl
  | append e =>
    simp only [reply, after]
    cases refuses e <;> rfl
  | load tx => exact ⟨rfl, by rintro es ⟨⟩; rfl⟩
  | scan actor => exact ⟨rfl, by rintro es ⟨⟩; rfl⟩

end Host

namespace Node

variable {R : Role}

/-- What is answered from outside, if anything. -/
abbrev Outside (R : Role) : Type :=
  (q : R.surroundings.Request) → Option (R.surroundings.Answer q)

/-- How a call is answered without waiting. -/
structure Manner (R : Role) where
  /-- From outside, if at all. -/
  outside : Outside R
  /-- By its host, unless it refuses to store an entry. -/
  refuses : Entry → Option LogError := fun _ => none

/-- A running call goes on until it ends or asks what is not answered. -/
def smooth (manner : Manner R) (s : Scene R) (threads : ℕ → Option (Thread R)) (call : ℕ)
    (op : R.Operation) : R.Run op → Node R
  | .done outcome => settle s threads call op (.done outcome)
  | .ask (.inl q, memory) next =>
    let reply := Host.reply manner.refuses s.log q
    smooth manner
      ({ { s with memory }.note call (.asked (.inl q)) with
        log := Host.after manner.refuses s.log q }.note call (.answered (.inl q) reply))
      threads call op (next (reply, memory))
  | .ask (.inr q, memory) next =>
    match manner.outside q with
    | some a =>
      smooth manner
        (({ s with memory }.note call (.asked (.inr q))).note call (.answered (.inr q) a)) threads
        call op (next (a, memory))
    | none => settle s threads call op (.ask (.inr q, memory) next)

/-- A call starts and goes on. -/
def begins (manner : Manner R) (n : Node R) (call : ℕ) (op : R.Operation) : Node R :=
  smooth manner (n.note call (.started op)) n.threads call op (R.program op n.memory)

/-- The call that rests is answered and goes on. -/
def resumes (first : Outside R) (manner : Manner R) (n : Node R) (call : ℕ) : Node R :=
  match n.threads call with
  | some { operation, question := .inr q, next } =>
    match first q with
    | some a =>
      smooth manner (n.note call (.answered (.inr q) a)) n.threads call operation
        (next (a, n.memory))
    | none => n
  | _ => n

/-- A call starts, and rests at its first question. -/
def opens (n : Node R) (call : ℕ) (op : R.Operation) : Node R :=
  settle (n.note call (.started op)) n.threads call op (R.program op n.memory)

/-- The call that rests is answered, and rests again at its next question. -/
def moves (manner : Manner R) (n : Node R) (call : ℕ) : Node R :=
  match n.threads call with
  | some { operation, question := .inl q, next } =>
    let reply := Host.reply manner.refuses n.log q
    settle ({ n.toScene with log := Host.after manner.refuses n.log q }.note call
      (.answered (.inl q) reply)) n.threads call operation (next (reply, n.memory))
  | some { operation, question := .inr q, next } =>
    match manner.outside q with
    | some a =>
      settle (n.note call (.answered (.inr q) a)) n.threads call operation (next (a, n.memory))
    | none => n
  | none => n

/-! ## What is computed may happen -/

/-- No other call rests. -/
def Alone (n : Node R) (call : ℕ) : Prop :=
  ∀ other, other ≠ call → n.threads other = none

/-- A call of a new number is alone once the call before it has ended. -/
theorem Alone.of_ended {n : Node R} {call call' : ℕ} (alone : n.Alone call)
    (ended : (n.threads call).isNone = true) : n.Alone call' := by
  intro other _
  by_cases same : other = call
  · rw [same]
    exact Option.isNone_iff_eq_none.1 ended
  · exact alone other same

/-- Calls have run one after another, and the next is to have this number. -/
structure Rested (n : Node R) (call : ℕ) : Prop where
  /-- No call rests. -/
  idle : ∀ other, n.threads other = none
  /-- All have lower numbers. -/
  earlier : ∀ m ∈ n.past, m.call < call

theorem rested_initial : ({} : Node R).Rested 0 :=
  ⟨fun _ => rfl, fun _ hm => absurd hm List.not_mem_nil⟩

theorem Rested.alone {n : Node R} {call call' : ℕ} (h : n.Rested call) : n.Alone call' :=
  fun other _ => h.idle other

theorem Rested.new {n : Node R} {call call' : ℕ} (h : n.Rested call) (later : call ≤ call') :
    ∀ m ∈ n.past, m.call ≠ call' := fun m hm => ((h.earlier m hm).trans_le later).ne

/-- A restart takes no number. -/
theorem Rested.restart {n : Node R} {call : ℕ} (h : n.Rested call) :
    ({ log := n.log, past := n.past } : Node R).Rested call := ⟨fun _ => rfl, h.earlier⟩

/-- What holds in a run is kept by all that may happen, and a call that is alone may be answered by
its host, and from outside. -/
structure Attains (holds : Node R → Prop) (allows : Node R → R.Operation → Moment R → Prop)
    (outside : Outside R) : Prop where
  /-- It is kept by a step. -/
  step : ∀ n n', holds n → n.Step (allows n) n' → holds n'
  /-- The host may answer. -/
  host : ∀ n call op q a log, n.Alone call → allows n op ⟨call, .answered (.inl q) a, log⟩
  /-- An answer may come from outside. -/
  outside : ∀ n call op q a log, n.Alone call → outside q = some a →
    allows n op ⟨call, .answered (.inr q) a, log⟩

variable {holds : Node R → Prop} {allows : Node R → R.Operation → Moment R → Prop}
  {first : Outside R} {manner : Manner R} {call : ℕ} {op : R.Operation}

theorem settle_update (s : Scene R) (threads : ℕ → Option (Thread R)) (t : Option (Thread R))
    (p : R.Run op) : settle s (Function.update threads call t) call op p =
      settle s threads call op p := by
  cases p <;> simp [settle]

theorem alone_settle {s : Scene R} {threads : ℕ → Option (Thread R)} {p : R.Run op}
    (alone : ∀ other, other ≠ call → threads other = none) :
    (settle s threads call op p).Alone call := by
  intro other ne
  rw [threads_settle_of_ne ne]
  exact alone other ne

/-- A call that goes on alone goes through its answers, one after another. -/
theorem Attains.path {P : Node R → Node R → Prop} (h : Attains holds allows manner.outside)
    (answer : ∀ (n : Node R) t a log, n.threads call = some t → R.Answers n.log t.question a log →
      allows n t.operation ⟨call, .answered t.question a, log⟩ →
      P n (settle ({ n.toScene with log }.note call (.answered t.question a)) n.threads call
        t.operation (t.next (a, n.memory)))) {s : Scene R}
    {threads : ℕ → Option (Thread R)} {p : R.Run op}
    (alone : ∀ other, other ≠ call → threads other = none) :
    Relation.ReflTransGen P (settle s threads call op p) (smooth manner s threads call op p) := by
  induction p generalizing s with
  | done outcome => exact .refl
  | ask q next ih =>
    obtain ⟨q, memory⟩ := q
    have updated (a : R.Answer q) :
        (settle s threads call op (.ask (q, memory) next)).threads =
          Function.update threads call (some { operation := op, question := q, next }) := by
      simp [settle, R.restsAt_of_answer a]
    -- one answer, and what follows it
    have goesOn : ∀ (a : R.Answer q) log, R.Answers s.log q a log →
        allows (settle s threads call op (.ask (q, memory) next)) op
          ⟨call, .answered q a, log⟩ →
        Relation.ReflTransGen P (settle s threads call op (.ask (q, memory) next))
          (smooth manner ({ { s with memory }.note call (.asked q) with log }.note call
            (.answered q a)) threads call op (next (a, memory))) := by
      intro a log answers allowed
      have rest := ih (a, memory)
        (s := { { s with memory }.note call (.asked q) with log }.note call
        (.answered q a))
      rw [← settle_update _ threads (some { operation := op, question := q, next }),
        ← updated a] at rest
      let t : Thread R := { operation := op, question := q, next }
      exact .head (answer _ t a log (by simp [updated a, t]) answers allowed) rest
    cases q with
    | inl q =>
      refine goesOn _ _ (Host.answers_reply manner.refuses s.log q) ?_
      exact h.host _ _ _ _ _ _ (alone_settle alone)
    | inr q =>
      rw [smooth.eq_def]
      dsimp only
      split
      · rename_i a answered
        have answers : R.Answers s.log (.inr q) a s.log := rfl
        exact goesOn a s.log answers (h.outside _ _ _ _ _ _ (alone_settle alone) answered)
      · exact .refl

theorem Attains.smooth (h : Attains holds allows manner.outside) {s : Scene R}
    {threads : ℕ → Option (Thread R)} {p : R.Run op}
    (alone : ∀ other, other ≠ call → threads other = none)
    (start : holds (settle s threads call op p)) :
    holds (Node.smooth manner s threads call op p) := by
  have path := h.path (P := fun n n' => n.Step (allows n) n')
    (fun n t a log rests answers allowed => .answer rests answers allowed) (p := p) (s := s) alone
  generalize Node.smooth manner s threads call op p = n at path ⊢
  induction path with
  | refl => exact start
  | tail _ step ih => exact h.step _ _ ih step

theorem alone_smooth {s : Scene R} {threads : ℕ → Option (Thread R)} {p : R.Run op}
    (alone : ∀ other, other ≠ call → threads other = none) :
    (smooth manner s threads call op p).Alone call := by
  induction p generalizing s with
  | done outcome => exact alone_settle alone
  | ask q next ih =>
    obtain ⟨q, memory⟩ := q
    cases q with
    | inl q => exact ih _
    | inr q =>
      rw [Node.smooth.eq_def]
      dsimp only
      split
      · exact ih _
      · exact alone_settle alone

/-- A call that is answered everything goes on to its end, and hears only such answers. -/
theorem smooth_ends {P : (q : R.Request) → R.Answer q → Prop}
    (host : ∀ log q, P (.inl q) (Host.reply manner.refuses log q))
    (outside : ∀ q, ∃ a, manner.outside q = some a ∧ P (.inr q) a) (s : Scene R)
    (threads : ℕ → Option (Thread R)) (call : ℕ) (p : R.Run op) :
    ∃ s' outcome later,
      smooth manner s threads call op p = settle s' threads call op (.done outcome) ∧
      s'.past = s.past ++ later ∧ ∀ m ∈ later, ∀ q a, m.event = .answered q a → P q a := by
  induction p generalizing s with
  | done outcome => exact ⟨s, outcome, [], rfl, by simp, by simp⟩
  | ask q next ih =>
    obtain ⟨q, memory⟩ := q
    -- one answer, and what is heard after it
    have goesOn : ∀ (a : R.Answer q) log, P q a →
        ∃ s' outcome later, smooth manner
            ({ { s with memory }.note call (.asked q) with log }.note call (.answered q a)) threads
            call op (next (a, memory)) = settle s' threads call op (.done outcome) ∧
          s'.past = s.past ++ later ∧ ∀ m ∈ later, ∀ q a, m.event = .answered q a → P q a := by
      intro a log good
      obtain ⟨s', outcome, later, ends, past, hears⟩ := ih (a, memory)
        ({ { s with memory }.note call (.asked q) with log }.note call (.answered q a))
      refine ⟨s', outcome, [⟨call, .asked q, s.log⟩, ⟨call, .answered q a, log⟩] ++ later, ends,
        by simp [past, Scene.note], ?_⟩
      intro m hm q' a' event
      simp only [List.cons_append, List.nil_append, List.mem_cons] at hm
      rcases hm with rfl | rfl | hm
      · cases event
      · cases event
        exact good
      · exact hears m hm q' a' event
    cases q with
    | inl q => exact goesOn _ _ (host s.log q)
    | inr q =>
      obtain ⟨a, answered, good⟩ := outside q
      rw [smooth.eq_def]
      simp only [answered]
      exact goesOn a s.log good

/-- So does one that starts. -/
theorem begins_ends {P : (q : R.Request) → R.Answer q → Prop}
    (host : ∀ log q, P (.inl q) (Host.reply manner.refuses log q))
    (outside : ∀ q, ∃ a, manner.outside q = some a ∧ P (.inr q) a) (n : Node R) (call : ℕ)
    (op : R.Operation) :
    ∃ result log before,
      (n.begins manner call op).past = n.past ++ [⟨call, .started op, n.log⟩] ++ before ++
        [⟨call, .returned op result, log⟩] ∧
      ∀ m ∈ before, ∀ q a, m.event = .answered q a → P q a := by
  obtain ⟨s, outcome, before, ends, past, hears⟩ := smooth_ends host outside
    (n.note call (.started op)) n.threads call (R.program op n.memory)
  refine ⟨outcome.1, s.log, before, ?_, hears⟩
  rw [begins, ends]
  simp [settle, Scene.note, past]

/-- Only the call that goes on adds to what has happened. -/
theorem mem_or_eq_of_smooth {s : Scene R} {threads : ℕ → Option (Thread R)} {p : R.Run op}
    {m : Moment R} (hm : m ∈ (smooth manner s threads call op p).past) :
    m ∈ s.past ∨ m.call = call := by
  have noted : ∀ (s : Scene R) event, m ∈ (s.note call event).past →
      m ∈ s.past ∨ m.call = call := by
    intro s event hm
    rcases List.mem_append.1 hm with old | new
    · exact .inl old
    · exact .inr (by rw [List.mem_singleton.1 new])
  induction p generalizing s with
  | done outcome => exact noted { s with memory := outcome.2 } _ hm
  | ask q next ih =>
    obtain ⟨q, memory⟩ := q
    have asked : ∀ q, m ∈ (({ s with memory } : Scene R).note call (.asked q)).past →
        m ∈ s.past ∨ m.call = call := fun q => noted { s with memory } _
    cases q with
    | inl q =>
      rcases ih _ hm with old | same
      · exact (noted _ _ old).elim (asked _) .inr
      · exact .inr same
    | inr q =>
      rw [smooth.eq_def] at hm
      dsimp only at hm
      split at hm
      · rcases ih _ hm with old | same
        · exact (noted _ _ old).elim (asked _) .inr
        · exact .inr same
      · exact asked _ hm

theorem alone_opens {n : Node R} (alone : n.Alone call) : (n.opens call op).Alone call :=
  alone_settle alone

theorem alone_moves {n : Node R} (alone : n.Alone call) : (n.moves manner call).Alone call := by
  unfold Node.moves
  split
  · exact alone_settle alone
  · split
    · exact alone_settle alone
    · exact alone
  · exact alone

theorem alone_begins {n : Node R} (alone : n.Alone call) : (n.begins manner call op).Alone call :=
  alone_smooth alone

/-- So it is again when the next call has ended. -/
theorem Rested.begins {n : Node R} (h : n.Rested call)
    (ended : ((n.begins manner call op).threads call).isNone = true) :
    (n.begins manner call op).Rested (call + 1) := by
  constructor
  · intro other
    by_cases same : other = call
    · rw [same]
      exact Option.isNone_iff_eq_none.1 ended
    · exact alone_begins h.alone other same
  · intro m hm
    rcases mem_or_eq_of_smooth hm with old | same
    · rcases List.mem_append.1 old with old | started
      · exact Nat.lt_succ_of_lt (h.earlier m old)
      · rw [List.mem_singleton.1 started]
        exact Nat.lt_succ_self call
    · rw [same]
      exact Nat.lt_succ_self call

theorem alone_resumes {n : Node R} (alone : n.Alone call) :
    (n.resumes first manner call).Alone call := by
  unfold Node.resumes
  split
  · split
    · exact alone_smooth alone
    · exact alone
  · exact alone

/-- A call that is alone may start and go on so. -/
theorem Attains.begins (manner : Manner R) (h : Attains holds allows manner.outside)
    {n : Node R} (start : holds n) (alone : n.Alone call) (new : ∀ m ∈ n.past, m.call ≠ call)
    (allowed : allows n op ⟨call, .started op, n.log⟩) : holds (n.begins manner call op) :=
  h.smooth alone (h.step _ _ start (.start new allowed))

/-- A call that is alone may be answered and go on so. -/
theorem Attains.resumes (manner : Manner R) (h : Attains holds allows manner.outside)
    {n : Node R} (start : holds n) (alone : n.Alone call)
    (allowed : ∀ op q a, first q = some a →
      allows n op ⟨call, .answered (.inr q) a, n.log⟩) :
    holds (n.resumes first manner call) := by
  unfold Node.resumes
  split
  · rename_i operation q next rests
    split
    · rename_i a answered
      refine h.smooth alone (h.step _ _ start ?_)
      have answers : R.Answers n.log (.inr q) a n.log := rfl
      exact .answer rests answers (allowed _ _ _ answered)
    · exact start
  · exact start

/-- A call that is alone and rests at a question of its host may be answered. -/
theorem Attains.step_moves (manner : Manner R) (h : Attains holds allows manner.outside)
    {n : Node R} (alone : n.Alone call) {op : R.Operation} {q : R.Request}
    {next : R.Answer q × R.Memory → R.Run op} (rests : n.threads call = some ⟨op, q, next⟩)
    (answered : ∀ q', q = .inr q' → (manner.outside q').isSome = true) :
    n.Step (allows n) (n.moves manner call) := by
  cases q with
  | inl q =>
    simp only [Node.moves, rests]
    exact .answer rests (Host.answers_reply manner.refuses n.log q) (h.host _ _ _ _ _ _ alone)
  | inr q =>
    obtain ⟨a, answered⟩ := Option.isSome_iff_exists.1 (answered q rfl)
    simp only [Node.moves, rests, answered]
    have answers : R.Answers n.log (.inr q) a n.log := rfl
    exact .answer rests answers (h.outside _ _ _ _ _ _ alone answered)

/-- A call that is alone may be answered. -/
theorem Attains.moves (manner : Manner R) (h : Attains holds allows manner.outside) {n : Node R}
    (start : holds n) (alone : n.Alone call) : holds (n.moves manner call) := by
  rcases rests : n.threads call with _ | ⟨op, q | q, next⟩
  · simpa only [Node.moves, rests] using start
  · exact h.step _ _ start (h.step_moves manner alone rests nofun)
  · cases answered : manner.outside q with
    | none => simpa only [Node.moves, rests, answered] using start
    | some a =>
      refine h.step _ _ start (h.step_moves manner alone rests ?_)
      rintro q' ⟨⟩
      simp [answered]

end Node

end AtomicCommit
