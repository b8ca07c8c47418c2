import AtomicCommit.Proofs.Participant.Alike
import AtomicCommit.Proofs.Participant.Smooth

/-!
# Restarts of a participant leave no trace

What a participant has in memory is what its log says, so it makes no difference whether it still
has it. Two runs of a participant in which it is asked and answered the same show the same, and log
the same, wherever it restarts or forgets transactions in either of them.

Reading the log is taken to succeed and to take no time, and the resource manager to take hold of
what it had prepared whenever it is told to.

## Main definitions

* `Participant.Prompt`: runs in which what leaves no trace happens at once.
* `Participant.story`, `Participant.cues`: what is seen of a past, and what part of it is heard.
* `Participant.Amnesiac`: runs of a participant that keeps nothing in memory.

## Main results

* `Participant.amnesiac_unique`: such a participant is determined by what it hears.
* `Participant.Prompt.follows`: every participant shows what one without memory shows.
* `Participant.restarts_leave_no_trace`: the memory is faithful, and restarts leave no trace.
-/

namespace AtomicCommit.Participant

/-- Whether an operation is to drop a transaction from memory. -/
def Operation.isForget : Operation → Bool
  | .forget _ => true
  | _ => false

variable (self : ProcessId)

/-! ## Runs that read at once -/

/-- No call rests at a question that is answered at once. -/
def Settled (n : Node (role self)) : Prop :=
  ∀ call t, n.threads call = some t → silent n.log t.question = none

/-- What a participant may come to when what leaves no trace happens at once. -/
inductive Prompt (p : ProcessId) : Node (role p) → Prop where
  /-- It has not started. -/
  | initial : Prompt p {}
  /-- Something happens. -/
  | step {n n' : Node (role p)} (before : Prompt p n) (settled : Settled p n)
      (step : n.Step (Allows p n) n') : Prompt p n'
  /-- The log is read, or the resource manager takes hold of what it had prepared. -/
  | read {n : Node (role p)} {call : ℕ} {t : Thread (role p)} {a : (role p).Answer t.question}
      (before : Prompt p n) (rests : n.threads call = some t)
      (answer : silent n.log t.question = some a)
      (allowed : Allows p n t.operation ⟨call, .answered t.question a, n.log⟩) :
      Prompt p (Node.settle (n.note call (.answered t.question a)) n.threads call t.operation
        (t.next (a, n.memory)))

/-- Whether others notice an event: not what leaves no trace, nor that a transaction is
forgotten. -/
def isShown : Event (role self) → Bool
  | .started op => !op.isForget
  | .returned op _ => !op.isForget
  | .asked q => (silent [] q).isNone
  | .answered q _ => (silent [] q).isNone

/-- Whether an event comes from others. -/
def isHeard : Event (role self) → Bool
  | .started _ | .answered _ _ => true
  | .asked _ | .returned _ _ => false

/-- What others see of a past. -/
def story (past : List (Moment (role self))) : List (ℕ × Event (role self)) :=
  (past.map fun m => (m.call, m.event)).filter fun e => isShown self e.2

/-- What others ask and answer. -/
def cues (past : List (Moment (role self))) : List (ℕ × Event (role self)) :=
  (story self past).filter fun e => isHeard self e.2

/-! ## A participant without memory -/

/-- What a participant may come to that keeps nothing in memory: it looks up everything in the
log. -/
inductive Amnesiac (p : ProcessId) : Node (role p) → Prop where
  /-- It has not started. -/
  | initial : Amnesiac p {}
  /-- A call starts. -/
  | start {k : Node (role p)} {call : ℕ} {op : Operation} (before : Amnesiac p k)
      (shown : op.isForget = false) :
      Amnesiac p (Node.settle (k.note call (.started op)) k.threads call op
        ((run p op ∅).hush (view p) k.log))
  /-- A call is answered. -/
  | answer {k : Node (role p)} {call : ℕ} {t : Thread (role p)} {a : (role p).Answer t.question}
      {log : List Entry} (before : Amnesiac p k) (rests : k.threads call = some t)
      (noticed : silent [] t.question = none) (answers : (role p).Answers k.log t.question a log) :
      Amnesiac p (Node.settle ({ k.toScene with log }.note call (.answered t.question a)) k.threads
        call t.operation ((t.next (a, ∅)).hush (view p) log))

variable {self} {n k : Node (role self)} {call : ℕ} {log log' : List Entry}

theorem answers_silent {q : (role self).Request} {a : (role self).Answer q}
    (h : silent log q = some a) : (role self).Answers log q a log := by
  rcases q with q | q <;> cases q <;> cases h
  · exact ⟨rfl, by rintro es ⟨⟩; rfl⟩
  · exact ⟨rfl, by rintro es ⟨⟩; rfl⟩
  · rfl

section Story

variable {past : List (Moment (role self))} {event : Event (role self)}

theorem story_append_shown (h : isShown self event = true) :
    story self (past ++ [⟨call, event, log⟩]) = story self past ++ [(call, event)] := by
  simp [story, h]

theorem story_append_hidden (h : isShown self event = false) :
    story self (past ++ [⟨call, event, log⟩]) = story self past := by
  simp [story, h]

theorem cues_append_heard (shown : isShown self event = true) (heard : isHeard self event = true) :
    cues self (past ++ [⟨call, event, log⟩]) = cues self past ++ [(call, event)] := by
  simp [cues, story_append_shown shown, heard]

theorem cues_append_other (h : isHeard self event = false) :
    cues self (past ++ [⟨call, event, log⟩]) = cues self past := by
  cases shown : isShown self event with
  | true => simp [cues, story_append_shown shown, h]
  | false => simp [cues, story_append_hidden shown]

/-- A call that comes to rest or to its end hears nothing. -/
theorem cues_settle (s : Scene (role self)) (threads : ℕ → Option (Thread (role self)))
    (op : Operation) (p : (role self).Run op) :
    cues self (Node.settle s threads call op p).past = cues self s.past := by
  cases p with
  | done outcome => exact cues_append_other rfl
  | ask q next => exact cues_append_other rfl

theorem cues_start {s : Scene (role self)} {threads : ℕ → Option (Thread (role self))}
    {op : Operation} {p : (role self).Run op} (shown : op.isForget = false) :
    cues self (Node.settle (s.note call (.started op)) threads call op p).past =
      cues self s.past ++ [(call, .started op)] := by
  rw [cues_settle]
  exact cues_append_heard (by simp [isShown, shown]) rfl

theorem cues_answer {s : Scene (role self)} {threads : ℕ → Option (Thread (role self))}
    {op : Operation} {p : (role self).Run op} {q : (role self).Request} {a : (role self).Answer q}
    (noticed : silent [] q = none) :
    cues self (Node.settle (s.note call (.answered q a)) threads call op p).past =
      cues self s.past ++ [(call, .answered q a)] := by
  rw [cues_settle]
  exact cues_append_heard (by simp [isShown, noticed]) rfl

end Story

/-- A participant without memory is determined by what it hears. -/
theorem amnesiac_unique {k k' : Node (role self)} (h : Amnesiac self k) (h' : Amnesiac self k')
    (same : cues self k'.past = cues self k.past) : k' = k := by
  induction h generalizing k' with
  | initial =>
    cases h' with
    | initial => rfl
    | start before shown =>
      rw [cues_start shown] at same
      simp [cues, story] at same
    | answer before rests noticed answers =>
      rw [cues_answer noticed] at same
      simp [cues, story] at same
  | @start k call op before shown ih =>
    rw [cues_start shown] at same
    cases h' with
    | initial => simp [cues, story] at same
    | start before' shown' =>
      rw [cues_start shown'] at same
      obtain ⟨cues, last⟩ := List.append_inj' same rfl
      obtain rfl := ih before' cues
      cases last
      rfl
    | answer before' rests noticed answers =>
      rw [cues_answer noticed] at same
      obtain ⟨-, last⟩ := List.append_inj' same rfl
      cases last
  | @answer k call t a log before rests noticed answers ih =>
    rw [cues_answer noticed] at same
    cases h' with
    | initial => simp [cues, story] at same
    | start before' shown' =>
      rw [cues_start shown'] at same
      obtain ⟨-, last⟩ := List.append_inj' same rfl
      cases last
    | @answer k' call' t' a' log' before' rests' noticed' answers' =>
      rw [cues_answer noticed'] at same
      obtain ⟨cues, last⟩ := List.append_inj' same rfl
      obtain rfl := ih before' cues
      obtain rfl : call' = call := congrArg Prod.fst (List.singleton_inj.1 last)
      obtain rfl : t' = t := Option.some.inj (rests'.symm.trans rests)
      cases last
      obtain rfl := Role.answers_unique answers answers'
      rfl

/-! ## Every participant follows one without memory -/

/-- Two outcomes with the same result. -/
def SameResult {α : Type} (_ _ : List Entry) (outcome outcome' : α × Memory) : Prop :=
  outcome.1 = outcome'.1

/-- Two calls of one operation rest at a question that is noticed, and go on alike. -/
inductive Twin (p : ProcessId) : Thread (role p) → Thread (role p) → Prop where
  /-- They have the question in common. -/
  | intro {op : Operation} {q : (role p).Request}
      {next next' : (role p).Answer q × Memory → (role p).Run op}
      (shown : op.isForget = false) (noticed : silent [] q = none)
      (rest : ∀ a log memory log' memory', (view p).resumes q log memory log' memory' →
        Program.Alike (view p) SameResult log log' (next (a, memory)) (next' (a, memory'))) :
      Twin p ⟨op, q, next⟩ ⟨op, q, next'⟩

/-- All calls of one node but one have twins among the calls of another. -/
def TwinsBut (p : ProcessId) (call : ℕ) (threads threads' : ℕ → Option (Thread (role p))) : Prop :=
  ∀ other t, other ≠ call → threads other = some t → ∃ t', threads' other = some t' ∧ Twin p t t'

/-- A participant shows what one without memory shows. While a call of the participant rests at a
question that leaves no trace, the other one is ahead by what the call will show next. -/
inductive Follows (p : ProcessId) (n k : Node (role p)) : Prop where
  /-- All has been read. -/
  | settled (entries : Log.own n.log p = Log.own k.log p) (story : story p n.past = story p k.past)
      (twins : ∀ call t, n.threads call = some t → ∃ t', k.threads call = some t' ∧ Twin p t t')
  /-- A call is about to read. -/
  | reading {call : ℕ} {t : Thread (role p)} {s : Scene (role p)}
      {threads : ℕ → Option (Thread (role p))} {whole : (role p).Run t.operation}
      (shown : t.operation.isForget = false)
      (entries : Log.own n.log p = Log.own s.log p) (story : story p n.past = story p s.past)
      (rests : n.threads call = some t) (unnoticed : (silent [] t.question).isSome)
      (alike : ∀ a, silent n.log t.question = some a → Program.Alike (view p) SameResult n.log s.log
        (t.next (a, n.memory)) (whole.hush (view p) s.log))
      (twins : TwinsBut p call n.threads threads)
      (ahead : k = Node.settle s threads call t.operation (whole.hush (view p) s.log))

variable {s s' : Scene (role self)} {threads threads' : ℕ → Option (Thread (role self))}
  {op : Operation}

theorem Follows.entries (h : Follows self n k) : Log.own n.log self = Log.own k.log self := by
  cases h with
  | settled entries _ _ => exact entries
  | reading _ entries _ _ _ _ _ ahead =>
    rw [ahead, Node.settle_log]
    exact entries

/-- A call that runs like one without memory comes to rest, or to its end, like it. -/
theorem follows_settle {p whole : (role self).Run op} (shown : op.isForget = false)
    (entries : Log.own s.log self = Log.own s'.log self)
    (story : story self s.past = story self s'.past) (twins : TwinsBut self call threads threads')
    (alike : Program.Alike (view self) SameResult s.log s'.log p (whole.hush (view self) s'.log)) :
    Follows self (Node.settle s threads call op p)
      (Node.settle s' threads' call op (whole.hush (view self) s'.log)) := by
  generalize quiet : whole.hush (view self) s'.log = p' at alike
  cases alike with
  | @done _ _ outcome outcome' same =>
    obtain ⟨result, memory⟩ := outcome
    obtain ⟨result', memory'⟩ := outcome'
    obtain rfl : result = result' := same
    have returned : isShown self (.returned op result) = true := by simp [isShown, shown]
    refine .settled entries ?_ ?_
    · exact (story_append_shown returned).trans (story ▸ (story_append_shown returned).symm)
    · intro other t rests
      rcases Node.cases_of_rests_settle rests with ⟨ne, rests⟩ | ⟨-, q, next, ends, -⟩
      · rw [Node.threads_settle_of_ne ne]
        exact twins other t ne rests
      · cases ends
  | @ask _ _ q memory memory' next next' noticed noticed' _ rest =>
    have noticed : silent [] q = none := silent_eq_none noticed []
    have asked : isShown self (.asked q) = true := by simp [isShown, noticed]
    refine .settled entries ?_ ?_
    · exact (story_append_shown asked).trans (story ▸ (story_append_shown asked).symm)
    · intro other t rests
      rcases Node.cases_of_rests_settle rests with ⟨ne, rests⟩ | ⟨rfl, _, _, asks, rfl⟩
      · rw [Node.threads_settle_of_ne ne]
        exact twins other t ne rests
      · cases asks
        refine ⟨_, Node.threads_settle_ask (restsAt ..), .intro shown noticed ?_⟩
        exact fun a log memory log' memory' => rest a a log memory log' memory' rfl
  | @left _ _ q memory next a _ unnoticed rest =>
    have hidden : (silent [] q).isSome := by
      by_contra none
      rw [Bool.not_eq_true, Option.isSome_eq_false_iff, Option.isNone_iff_eq_none] at none
      rw [show (view self).silent s.log q = _ from silent_eq_none none s.log] at unnoticed
      cases unnoticed
    rw [← quiet] at rest ⊢
    refine .reading (t := ⟨op, q, next⟩) shown entries ?_ (Node.threads_settle_ask (restsAt ..))
      hidden ?_ ?_ rfl
    · rw [← story]
      refine story_append_hidden ?_
      simp [isShown, hidden]
    · intro a' answered
      obtain rfl : a = a' := Option.some.inj (unnoticed.symm.trans answered)
      exact rest
    · intro other t ne rests
      rw [Node.threads_settle_of_ne ne] at rests
      exact twins other t ne rests
  | right unnoticed _ =>
    rw [Program.silent_of_hush quiet] at unnoticed
    cases unnoticed

/-- Whatever is in memory, an operation looks as it does on an empty memory. -/
theorem alike_run {memory : Memory} (shown : op.isForget = false)
    (trusts : Trusts self log memory log' ∅) :
    Program.Alike (view self) SameResult log log' (run self op memory) (run self op ∅) := by
  have weaken : ∀ {ε α : Type} {action : Action interface Memory ε α}
      {keeps : List Entry → Memory → List Entry → Memory → Prop},
      action.Alike (view self) keeps log memory log' ∅ →
      Program.Alike (view self) (fun _ _ o o' => o.1 = o'.1) log log' (action.program memory)
        (action.program ∅) :=
    fun alike => Program.Alike.mono alike fun _ _ _ _ same => same.1
  cases op with
  | handlePrepare message => exact weaken (alike_handlePrepare trusts)
  | handleDecision tx d => exact weaken (alike_handleDecision trusts)
  | queryVote tx => exact weaken (alike_queryVote (alike_record? trusts))
  | queryState tx => exact weaken (alike_state? (alike_record? trusts))
  | queryRecord tx => exact weaken (alike_record? trusts)
  | forget tx => cases shown
  | recover => exact weaken (alike_recover trusts.same)

/-- To forget asks nothing. -/
theorem run_forget (self : ProcessId) (tx : TransactionId) (memory : Memory) :
    ∃ outcome, (role self).program (.forget tx) memory = .done outcome := by
  show ∃ outcome, (forget self tx).program memory = .done outcome
  rw [forget, Action.program_bind, Action.program_get, Program.done_bind]
  dsimp only
  split
  · exact ⟨_, rfl⟩
  · split
    · exact ⟨_, rfl⟩
    · exact ⟨_, rfl⟩

/-- What is in memory is what the log says. -/
theorem faithful_of_holds (holds : (discipline self).Holds n) : Faithful self n.log n.memory := by
  intro tx r cached
  have history : Record.History tx (Log.history n.log self tx) r :=
    Kept.history (holds.kept tx) cached
  exact history.replay

theorem Prompt.reachable (h : Prompt self n) : Reachable self n := by
  induction h with
  | initial => exact .initial
  | step _ _ step ih => exact ih.step step
  | @read n call t a _ rests answer allowed ih =>
    exact ih.step (.answer rests (answers_silent answer) allowed)

/-- Entries of others are not among those that a participant has written. -/
theorem own_append_other {e : Entry} (other : e.actor ≠ self) :
    Log.own (log ++ [e]) self = Log.own log self := by
  simp [Log.own, other]

/-- What is answered to a participant may be answered to one that has written the same. -/
theorem answers_same {q : (role self).Request} {a : (role self).Answer q} {log₁ : List Entry}
    (h : (role self).Answers log q a log₁) (same : Log.own log self = Log.own log' self)
    (noticed : silent [] q = none) : ∃ log₁', (role self).Answers log' q a log₁' ∧
      Log.own log₁ self = Log.own log₁' self ∧ ((∀ e, q ≠ .inl (.append e)) → log₁ = log) := by
  rcases q with q | q
  · cases q with
    | now => exact ⟨log', rfl, (congrArg (Log.own · self) h).trans same, fun _ => h⟩
    | load tx => cases noticed
    | scan actor => cases noticed
    | append e =>
      cases a with
      | error failure => exact ⟨log', rfl, (congrArg (Log.own · self) h).trans same, fun _ => h⟩
      | ok u =>
        refine ⟨log' ++ [e], rfl, ?_, fun other => absurd rfl (other e)⟩
        obtain rfl : log₁ = log ++ [e] := h
        unfold Log.own at same ⊢
        rw [List.filter_append, List.filter_append, same]
  · exact ⟨log', rfl, (congrArg (Log.own · self) h).trans same, fun _ => h⟩

/-- Where no call is about to read, all has been read. -/
theorem Follows.of_settled (h : Follows self n k) (settled : Settled self n) :
    story self n.past = story self k.past ∧
      ∀ call t, n.threads call = some t → ∃ t', k.threads call = some t' ∧ Twin self t t' := by
  cases h with
  | settled _ story twins => exact ⟨story, twins⟩
  | @reading call t _ _ _ _ _ _ rests unnoticed _ _ _ =>
    rw [silent_eq_none (settled call t rests) []] at unnoticed
    cases unnoticed

/-- To forget shows nothing. -/
theorem Follows.forget {tx : TransactionId} (entries : Log.own n.log self = Log.own k.log self)
    (story : story self n.past = story self k.past)
    (twins : ∀ call t, n.threads call = some t →
      ∃ t', k.threads call = some t' ∧ Twin self t t') :
    Follows self (Node.settle (n.note call (.started (.forget tx))) n.threads call (.forget tx)
      ((role self).program (.forget tx) n.memory)) k := by
  obtain ⟨outcome, ends⟩ := run_forget self tx n.memory
  rw [ends]
  refine .settled entries ?_ ?_
  · exact (story_append_hidden rfl).trans ((story_append_hidden rfl).trans story)
  · intro other t rests
    rcases Node.cases_of_rests_settle rests with ⟨-, rests⟩ | ⟨-, q, next, ends, -⟩
    · exact twins other t rests
    · cases ends

/-- Whatever happens to a participant where nobody is about to read, one without memory goes on to
show the same. -/
theorem Follows.step {n' : Node (role self)} (h : Follows self n k) (amnesiac : Amnesiac self k)
    (settled : Settled self n) (faithful : Faithful self n.log n.memory)
    (step : n.Step (Allows self n) n') : ∃ k', Amnesiac self k' ∧ Follows self n' k' := by
  obtain ⟨story, twins⟩ := h.of_settled settled
  have entries := h.entries
  cases step with
  | restart => exact ⟨k, amnesiac, .settled entries story (by simp)⟩
  | @share e other =>
    exact ⟨k, amnesiac, .settled ((own_append_other other).trans entries) story twins⟩
  | @start call op new allowed =>
    cases shown : op.isForget with
    | true =>
      cases op with
      | forget tx => exact ⟨k, amnesiac, .forget entries story twins⟩
      | _ => cases shown
    | false =>
      have starts : Amnesiac self (Node.settle (k.note call (.started op)) k.threads call op
          ((run self op ∅).hush (view self) k.log)) := amnesiac.start shown
      refine ⟨_, starts, ?_⟩
      have started : isShown self (.started op) = true := by simp [isShown, shown]
      refine follows_settle shown entries ?_ ?_ (alike_run shown ⟨entries, faithful, ?_⟩).hush
      · exact (story_append_shown started).trans (story ▸ (story_append_shown started).symm)
      · exact fun other t _ rests => twins other t rests
      · intro tx r cached
        simp at cached
  | @answer call t a log rests answers allowed =>
    obtain ⟨t', rests', twin⟩ := twins call t rests
    cases twin with
    | @intro op q next next' shown noticed rest =>
      have answered : isShown self (.answered q a) = true := by simp [isShown, noticed]
      obtain ⟨log', answers', same, kept⟩ := answers_same answers entries noticed
      refine ⟨_, amnesiac.answer rests' noticed answers', ?_⟩
      refine follows_settle shown same ?_ ?_ (rest a log n.memory log' ∅ ⟨same, ?_⟩).hush
      · exact (story_append_shown answered).trans (story ▸ (story_append_shown answered).symm)
      · exact fun other t _ rests => twins other t rests
      · intro other
        refine ⟨same, ?_, by simp [Faithful]⟩
        rw [kept other]
        exact faithful

/-- What one without memory is ahead by, a call shows once it has read. -/
theorem Follows.read {t : Thread (role self)} {a : (role self).Answer t.question}
    (h : Follows self n k) (rests : n.threads call = some t)
    (answer : silent n.log t.question = some a) :
    Follows self (Node.settle (n.note call (.answered t.question a)) n.threads call t.operation
      (t.next (a, n.memory))) k := by
  -- who has a twin does not read
  have unread : ∀ t', ¬Twin self t t' := by
    rintro _ ⟨-, noticed, -⟩
    rw [silent_eq_none noticed n.log] at answer
    cases answer
  cases h with
  | settled _ _ twins =>
    obtain ⟨t', -, twin⟩ := twins call t rests
    exact absurd twin (unread t')
  | @reading call' t' s threads whole shown entries story rests' unnoticed alike twins ahead =>
    -- only one call reads at a time
    obtain rfl : call' = call := by
      by_contra ne
      obtain ⟨t'', -, twin⟩ := twins call t (Ne.symm ne) rests
      exact unread t'' twin
    obtain rfl : t' = t := Option.some.inj (rests'.symm.trans rests)
    rw [ahead]
    refine follows_settle shown entries ?_ twins (alike a answer)
    rw [← story]
    refine story_append_hidden ?_
    simp [isShown, unnoticed]

/-- Every participant shows what one without memory shows. -/
theorem Prompt.follows (h : Prompt self n) : ∃ k, Amnesiac self k ∧ Follows self n k := by
  induction h with
  | initial => exact ⟨{}, .initial, .settled rfl rfl (by simp)⟩
  | step before settled step ih =>
    obtain ⟨k, amnesiac, follows⟩ := ih
    exact follows.step amnesiac settled (faithful_of_holds before.reachable.holds) step
  | read before rests answer allowed ih =>
    obtain ⟨k, amnesiac, follows⟩ := ih
    exact ⟨k, amnesiac, follows.read rests answer⟩

/-- Each record in the memory of a participant is what its log replays to, in every run. And in runs
that read at once, restarts leave no trace: two runs of a participant that hear the same, calls,
clock readings, and answers of the log, the resource manager and coordinators, show the same, all
that they ask and return, and have the same entries stored, wherever each restarts or forgets
transactions. As they show the same up to any moment, neither can be asked or answered anything that
the other could not. What a recovery has found in the log is assumed to be left to it until it asks
for the first decision (`recoveryLocks`). -/
theorem restarts_leave_no_trace {p : ProcessId} :
    (∀ n, Reachable p n → ∀ tx r, n.memory.get? tx = some r →
      Record.replay (Log.history n.log p tx) = .ok (some r)) ∧
    ∀ n n', Prompt p n → Prompt p n' → Settled p n → Settled p n' →
      cues p n'.past = cues p n.past →
      story p n'.past = story p n.past ∧ Log.own n'.log p = Log.own n.log p := by
  refine ⟨fun n reachable => faithful_of_holds reachable.holds, ?_⟩
  intro n n' prompt prompt' settled settled' same
  obtain ⟨k, amnesiac, follows⟩ := prompt.follows
  obtain ⟨k', amnesiac', follows'⟩ := prompt'.follows
  have shows := (follows.of_settled settled).1
  have shows' := (follows'.of_settled settled').1
  obtain rfl : k' = k := by
    refine amnesiac_unique amnesiac amnesiac' ?_
    rw [cues, cues, ← shows, ← shows']
    exact same
  exact ⟨shows'.trans shows.symm, follows'.entries.trans follows.entries.symm⟩

section Restarts

/-! ## A restart -/

theorem Prompt.opens {n : Node (role self)} {op : Operation} (h : Prompt self n)
    (idle : ∀ call, n.threads call = none) (new : ∀ m ∈ n.past, m.call ≠ call) :
    Prompt self (n.opens call op) := by
  refine h.step ?_ (.start new (allows_of_alone fun other _ => idle other))
  intro other t rests
  rw [idle other] at rests
  cases rests

theorem Prompt.moves {n : Node (role self)} (h : Prompt self n) (alone : n.Alone call) :
    Prompt self (n.moves { outside := willing self } call) := by
  have settled : ∀ op q next, n.threads call = some ⟨op, q, next⟩ → silent n.log q = none →
      Settled self n := by
    intro op q next rests noticed other t rests'
    by_cases same : other = call
    · subst same
      obtain rfl := Option.some.inj (rests.symm.trans rests')
      exact noticed
    · rw [alone other same] at rests'
      cases rests'
  rcases rests : n.threads call with _ | ⟨op, q | q, next⟩
  · simpa only [Node.moves, rests] using h
  · rcases noticed : silent n.log (.inl q) with _ | a
    · exact h.step (settled _ _ _ rests noticed) (attains.step_moves _ alone rests (by simp))
    · have answer : a = Host.reply (fun _ => none) n.log q := by
        cases q <;> cases noticed <;> rfl
      have unchanged : Host.after (fun _ => none) n.log q = n.log := by
        cases q <;> first | rfl | cases noticed
      simp only [Node.moves, rests, unchanged, ← answer]
      exact h.read rests noticed (allows_of_alone alone)
  · rcases noticed : silent n.log (.inr q) with _ | a
    · cases answered : willing self q with
      | none => simpa only [Node.moves, rests, answered] using h
      | some a =>
        refine h.step (settled _ _ _ rests noticed) (attains.step_moves _ alone rests ?_)
        rintro q' ⟨⟩
        simp [answered]
    · have answered : willing self q = some a := by
        cases q <;> cases noticed
        rfl
      simp only [Node.moves, rests, answered]
      exact h.read rests noticed (allows_of_alone alone)

theorem Prompt.iterate {n : Node (role self)} (h : Prompt self n) (alone : n.Alone call) (k : ℕ) :
    Prompt self ((fun n => n.moves { outside := willing self } call)^[k] n) ∧
      ((fun n => n.moves { outside := willing self } call)^[k] n).Alone call := by
  induction k generalizing n with
  | zero => exact ⟨h, alone⟩
  | succ k ih => exact ih (h.moves alone) (Node.alone_moves alone)

/-- A participant votes to commit. -/
def preparingRun : Node (role cohort) :=
  (fun n => n.moves { outside := willing cohort } 0)^[5]
    (Node.opens {} 0 (.handlePrepare proposal))

theorem idle_preparingRun :
    Prompt cohort preparingRun ∧ ∀ call, preparingRun.threads call = none := by
  have opened : Prompt cohort (Node.opens {} 0 (.handlePrepare proposal)) :=
    Prompt.opens .initial (fun _ => rfl) fun _ hm => nomatch hm
  obtain ⟨prompt, alone⟩ := opened.iterate (Node.alone_opens fun _ _ => rfl) 5
  refine ⟨prompt, fun call => ?_⟩
  by_cases first : call = 0
  · rw [first]
    exact Option.isNone_iff_eq_none.1 (by decide +kernel)
  · exact alone call first

/-- It is asked for its vote. -/
def rememberingRun : Node (role cohort) :=
  preparingRun.opens 1 (.queryVote proposal.transaction)

/-- It restarts. -/
def lapsedRun : Node (role cohort) where
  log := preparingRun.log
  past := preparingRun.past

/-- It is asked for its vote after the restart. -/
def restartedRun : Node (role cohort) :=
  (lapsedRun.opens 1 (.queryVote proposal.transaction)).moves { outside := willing cohort } 1

/-- A participant that has restarted tells the vote that it would tell from memory. -/
theorem restarts_leave_no_trace_restartedRun :
    Prompt cohort rememberingRun ∧ Prompt cohort restartedRun ∧
    Settled cohort rememberingRun ∧ Settled cohort restartedRun ∧
    cues cohort restartedRun.past = cues cohort rememberingRun.past ∧
    story cohort restartedRun.past = story cohort rememberingRun.past ∧
    (rememberingRun.memory.contains proposal.transaction = true ∧
      restartedRun.memory.contains proposal.transaction = false) := by
  obtain ⟨preparing, ended⟩ := idle_preparingRun
  have remembering : Prompt cohort rememberingRun := preparing.opens ended (by decide +kernel)
  have lapsed : Prompt cohort lapsedRun := by
    refine preparing.step (fun call t rests => ?_) .restart
    rw [ended call] at rests
    cases rests
  have alone' : (lapsedRun.opens 1 (.queryVote proposal.transaction)).Alone 1 :=
    Node.alone_opens fun _ _ => rfl
  have restarted : Prompt cohort restartedRun :=
    (lapsed.opens (fun _ => rfl) (by decide +kernel)).moves alone'
  have idle : ∀ n : Node (role cohort), (n.Alone 1) → (n.threads 1).isNone = true →
      Settled cohort n := by
    intro n alone ended call t rests
    rw [Node.Alone.of_ended alone ended call (Nat.succ_ne_self call).symm] at rests
    cases rests
  have settled : Settled cohort rememberingRun :=
    idle _ (Node.alone_opens fun other _ => ended other) (by decide +kernel)
  have settled' : Settled cohort restartedRun :=
    idle _ (Node.alone_moves alone') (by decide +kernel)
  have same : cues cohort restartedRun.past = cues cohort rememberingRun.past := rfl
  exact ⟨remembering, restarted, settled, settled', same,
    (restarts_leave_no_trace.2 _ _ remembering restarted settled settled' same).1,
    by decide +kernel⟩

end Restarts

end AtomicCommit.Participant
