import AtomicCommit.Proofs.Process.Discipline

/-!
# Runs by their cues

What happens to a process comes from outside: calls are started and answered, the process restarts,
and others write into its log. All else follows, so a process is determined by its cues.

## Main definitions

* `Cue`: what comes to a process from outside.
* `Node.Reacts`: a step with its cue.
* `Node.Plays`: a run with its cues.

## Main results

* `Node.Plays.unique`: a process is determined by its cues.
* `Discipline.frame_start`, `Discipline.frame_answer`: a call leaves a transaction as it is that it
  does not claim.
-/

namespace AtomicCommit

/-- What comes to a process from outside. -/
inductive Cue (R : Role) where
  /-- A call is started. -/
  | started (call : ℕ) (op : R.Operation)
  /-- A call that carries out an operation is answered. -/
  | answered (call : ℕ) (op : R.Operation) (q : R.Request) (a : R.Answer q)
  /-- The process loses its memory and its calls. -/
  | restarted
  /-- Another process stores an entry in the same log. -/
  | shared (e : Entry)

namespace Node

variable {R : Role}

/-- How a process reacts to a cue. -/
inductive Reacts (allows : R.Operation → Moment R → Prop) (n : Node R) : Cue R → Node R → Prop where
  /-- A new call runs until it rests. -/
  | start {call : ℕ} {op : R.Operation} (new : ∀ m ∈ n.past, m.call ≠ call)
      (allowed : allows op ⟨call, .started op, n.log⟩) :
      Reacts allows n (.started call op)
        (settle (n.note call (.started op)) n.threads call op (R.program op n.memory))
  /-- A resting call is answered and runs until it rests again. -/
  | answer {call : ℕ} {t : Thread R} {a : R.Answer t.question} {log : List Entry}
      (rests : n.threads call = some t) (answers : R.Answers n.log t.question a log)
      (allowed : allows t.operation ⟨call, .answered t.question a, log⟩) :
      Reacts allows n (.answered call t.operation t.question a)
        (settle ({ n.toScene with log }.note call (.answered t.question a)) n.threads call
          t.operation (t.next (a, n.memory)))
  /-- Memory and calls are lost. -/
  | restart : Reacts allows n .restarted { log := n.log, past := n.past }
  /-- The log grows. -/
  | share {e : Entry} (other : e.actor ≠ R.name) :
      Reacts allows n (.shared e) { n with log := n.log ++ [e] }

/-- What a process comes to by its cues, from an empty log. -/
inductive Plays (allows : Node R → R.Operation → Moment R → Prop) : List (Cue R) → Node R → Prop
    where
  /-- Nothing has come to it. -/
  | nil : Plays allows [] {}
  /-- One more cue. -/
  | snoc {cues : List (Cue R)} {n n' : Node R} {cue : Cue R} (before : Plays allows cues n)
      (reacts : n.Reacts (allows n) cue n') : Plays allows (cues ++ [cue]) n'

variable {allows : R.Operation → Moment R → Prop} {n n' : Node R} {cue : Cue R}

theorem Reacts.step (h : n.Reacts allows cue n') : n.Step allows n' := by
  cases h with
  | start new allowed => exact .start new allowed
  | answer rests answers allowed => exact .answer rests answers allowed
  | restart => exact .restart
  | share other => exact .share other

theorem Step.reacts (h : n.Step allows n') : ∃ cue, n.Reacts allows cue n' := by
  cases h with
  | start new allowed => exact ⟨_, .start new allowed⟩
  | answer rests answers allowed => exact ⟨_, .answer rests answers allowed⟩
  | restart => exact ⟨_, .restart⟩
  | share other => exact ⟨_, .share other⟩

/-- How the answer to a call that rests is taken. -/
theorem Reacts.of_rests {call : ℕ} {t : Thread R} {a : R.Answer t.question}
    (h : n.Reacts allows (.answered call t.operation t.question a) n')
    (rests : n.threads call = some t) :
    ∃ log, R.Answers n.log t.question a log ∧
      n' = settle ({ n.toScene with log }.note call (.answered t.question a)) n.threads call
        t.operation (t.next (a, n.memory)) := by
  generalize same : Cue.answered call t.operation t.question a = cue at h
  cases h with
  | @answer call' t' a' log rests' answers allowed =>
    obtain rfl : call = call' := by
      injection same
    obtain rfl : t' = t := Option.some.inj (rests'.symm.trans rests)
    cases same
    exact ⟨log, answers, rfl⟩
  | _ => cases same

/-- A reaction is determined by its cue. -/
theorem Reacts.unique {n'' : Node R} (h : n.Reacts allows cue n') (h' : n.Reacts allows cue n'') :
    n'' = n' := by
  cases h with
  | start new allowed =>
    cases h' with
    | start new' allowed' => rfl
  | @answer call t a log rests answers allowed =>
    obtain ⟨log', answers', rfl⟩ := h'.of_rests rests
    obtain rfl := Role.answers_unique answers answers'
    rfl
  | restart =>
    cases h' with
    | restart => rfl
  | share other =>
    cases h' with
    | share other' => rfl

/-- A process is determined by its cues. -/
theorem Plays.unique {allows : Node R → R.Operation → Moment R → Prop} {cues : List (Cue R)}
    {n n' : Node R} (h : Plays allows cues n) (h' : Plays allows cues n') : n' = n := by
  induction h generalizing n' with
  | nil =>
    generalize none : ([] : List (Cue R)) = cues at h'
    cases h' with
    | nil => rfl
    | snoc _ _ => simp at none
  | @snoc cues n n₁ cue before reacts ih =>
    generalize whole : cues ++ [cue] = all at h'
    cases h' with
    | nil => simp at whole
    | snoc before' reacts' =>
      obtain ⟨rfl, last⟩ := List.append_inj' whole rfl
      obtain rfl := List.singleton_inj.1 last
      obtain rfl := ih before'
      exact reacts.unique reacts'

end Node

namespace Discipline

variable {R : Role} {D : Discipline R} {n : Node R} {call : ℕ} {op : R.Operation}
  {tx : TransactionId}

/-- A call that settles has left a transaction as it was that it does not claim. -/
theorem Runs.frame {s : Scene R} {p : R.Run op} (h : D.Runs n call op s)
    (meets : p.Meets (D.contract call op) (D.Ends call op) s)
    (free : tx ∉ D.claims s.past call op) :
    (Node.settle s n.threads call op p).memory.get? tx = n.memory.get? tx ∧
      Log.history (Node.settle s n.threads call op p).log R.name tx =
        Log.history n.log R.name tx := by
  have memory : s.memory = n.memory := by
    obtain ⟨event, hs⟩ := h.event
    rw [hs]
    rfl
  constructor
  · rw [← memory]
    cases p with
    | done outcome => exact meets.1.frame tx free
    | ask q next => exact meets.1.1.frame tx free
  · rw [Node.settle_log]
    exact h.history tx free

variable {allows : R.Operation → Moment R → Prop}

/-- A call that starts leaves a transaction as it is that it does not claim. -/
theorem frame_start (obeyed : D.Obeyed) (holds : D.Holds n) (tolerates : D.Tolerates n allows)
    (new : ∀ m ∈ n.past, m.call ≠ call) (allowed : allows op ⟨call, .started op, n.log⟩)
    (free : tx ∉ D.claims (n.note call (.started op)).past call op) :
    (Node.settle (n.note call (.started op)) n.threads call op
      (R.program op n.memory)).memory.get? tx = n.memory.get? tx ∧
    Log.history (Node.settle (n.note call (.started op)) n.threads call op
      (R.program op n.memory)).log R.name tx = Log.history n.log R.name tx := by
  have justified := tolerates.starts _ _ _ allowed
  have runs := Runs.start holds new justified (tolerates.free _ _ allowed)
  exact runs.frame (obeyed n.toScene call op holds.toSound new justified) free

/-- So does a call that is answered. -/
theorem frame_answer (lawful : D.Lawful) (holds : D.Holds n) (tolerates : D.Tolerates n allows)
    {t : Thread R} {a : R.Answer t.question} {log : List Entry} (rests : n.threads call = some t)
    (answers : R.Answers n.log t.question a log)
    (allowed : allows t.operation ⟨call, .answered t.question a, log⟩)
    (free : tx ∉ D.claims ({ n.toScene with log }.note call (.answered t.question a)).past call
      t.operation) :
    (Node.settle ({ n.toScene with log }.note call (.answered t.question a)) n.threads call
      t.operation (t.next (a, n.memory))).memory.get? tx = n.memory.get? tx ∧
    Log.history (Node.settle ({ n.toScene with log }.note call (.answered t.question a)) n.threads
      call t.operation (t.next (a, n.memory))).log R.name tx = Log.history n.log R.name tx := by
  have justified := tolerates.answers _ _ _ _ _ allowed
  have runs := Runs.answer lawful holds rests answers justified (tolerates.free _ _ allowed)
  exact runs.frame ((holds.waits call t rests).resumes _ _ (.answer holds answers justified)) free

end Discipline

end AtomicCommit
