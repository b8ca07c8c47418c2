import AtomicCommit.Proofs.Participant.Obedience

/-!
# Steps of a participant

A participant restarts at any time, and its resource manager and its log answer in any way. A call
is taken on only if no other call has a transaction to itself that it needs.

## Main definitions

* `Participant.Allows`: when a call may be taken on.
* `Participant.Reachable`: what a run may lead to.
-/

namespace AtomicCommit.Participant

/-- What may happen at a node: a call is taken on only if what it has to itself then is not what
another has. For a recovery this assumes more than its locks see to, as `recoveryLocks` says. -/
structure Allows (p : ProcessId) (n : Node (role p)) (op : Operation) (m : Moment (role p)) :
    Prop where
  /-- No call rests that has to itself what this one needs. -/
  turn : ∀ other t, n.threads other = some t → other ≠ m.call →
    Disjoint (locks p n.past other t.operation) (locks p (n.past ++ [m]) m.call op)

theorem tolerates {self : ProcessId} {n : Node (role self)}
    {allows : Operation → Moment (role self) → Prop}
    (allowed : ∀ op m, allows op m → Allows self n op m) :
    (discipline self).Tolerates n allows where
  starts _ _ _ _ := trivial
  answers _ _ _ _ _ _ := trivial
  free op m h _ := (allowed op m h).turn

theorem holds_step {self : ProcessId} {n n' : Node (role self)}
    {allows : Operation → Moment (role self) → Prop} (holds : (discipline self).Holds n)
    (step : n.Step allows n') (allowed : ∀ op m, allows op m → Allows self n op m) :
    (discipline self).Holds n' :=
  Discipline.holds_step discipline_lawful obeyed holds step (tolerates allowed)

/-- What a participant may come to in a run from an empty log. -/
inductive Reachable (p : ProcessId) : Node (role p) → Prop where
  /-- It has not started. -/
  | initial : Reachable p {}
  /-- Something happens. -/
  | step {n n' : Node (role p)} (before : Reachable p n) (step : n.Step (Allows p n) n') :
      Reachable p n'

theorem Reachable.holds {self : ProcessId} {n : Node (role self)} (h : Reachable self n) :
    (discipline self).Holds n := by
  induction h with
  | initial => exact Discipline.holds_initial discipline_lawful
  | step _ step ih => exact holds_step ih step fun _ _ allowed => allowed

/-! ## What a log holds -/

/-- The vote on a transaction is in the log. -/
def VoteLogged (p : ProcessId) (log : List Entry) (tx : TransactionId) (v : Vote) : Prop :=
  ∃ r, Sees p log tx (some r) ∧ r.vote.getD .no = v

/-- The transaction has been resolved by the decision, and the log says so. -/
def Applied (p : ProcessId) (log : List Entry) (tx : TransactionId) (d : Decision) : Prop :=
  ∃ r, Sees p log tx (some r) ∧ r.state = .resolved d

section Logs

variable {self : ProcessId} {n : Node (role self)} {log : List Entry} {tx : TransactionId}
  {r : Record}

/-- What the log says of a transaction once it says anything. -/
theorem known_of_prefix (holds : (discipline self).Holds n) (grown : log <+: n.log)
    (h : Sees self log tx (some r)) : ∃ r', Sees self n.log tx (some r') := by
  obtain ⟨found, sees⟩ := Kept.sees (holds.kept tx)
  cases found with
  | some r' => exact ⟨r', sees⟩
  | none =>
    have sub := Log.history_prefix grown self tx
    rw [show Log.history n.log self tx = [] from sees] at sub
    exact absurd (List.prefix_nil.1 sub) (Record.History.ne_nil h)

theorem VoteLogged.mono {v : Vote} (holds : (discipline self).Holds n) (grown : log <+: n.log)
    (h : VoteLogged self log tx v) : VoteLogged self n.log tx v := by
  obtain ⟨r, known, voted⟩ := h
  obtain ⟨r', known'⟩ := known_of_prefix holds grown known
  refine ⟨r', known', ?_⟩
  rw [Record.History.vote_of_prefix known known' (Log.history_prefix grown _ _)]
  exact voted

theorem Applied.mono {d : Decision} (holds : (discipline self).Holds n) (grown : log <+: n.log)
    (h : Applied self log tx d) : Applied self n.log tx d ∧
      Log.history n.log self tx = Log.history log self tx := by
  obtain ⟨r, known, resolved⟩ := h
  obtain ⟨r', known'⟩ := known_of_prefix holds grown known
  have terminal : r.state ≠ .prepared := by cases d <;> simp [resolved, ParticipantState.resolved]
  have same := Record.History.eq_of_prefix known known' (Log.history_prefix grown _ _) terminal
  have sees : Sees self n.log tx (some r) := Sees.of_history known same
  exact ⟨⟨r, sees, resolved⟩, same⟩

/-- A vote that is logged is the only one. -/
theorem VoteLogged.unique {v v' : Vote} (h : VoteLogged self log tx v)
    (h' : VoteLogged self log tx v') : v' = v := by
  obtain ⟨r, known, voted⟩ := h
  obtain ⟨r', known', voted'⟩ := h'
  rw [Record.History.unique known known'] at voted'
  exact voted'.symm.trans voted

end Logs

/-! ## What moments rest on -/

section Moments

variable {self : ProcessId} {past : List (Moment (role self))} {call : ℕ} {log : List Entry}
  {tx : TransactionId}

/-- A vote given is logged. -/
theorem voteLogged_of_returned {message : PrepareMessage} {v : Vote}
    (justified : (discipline self).Justified past
      ⟨call, .returned (.handlePrepare message) (.ok v), log⟩) :
    VoteLogged self log message.transaction v := by
  obtain ⟨⟨r, known, voted⟩, -⟩ := justified
  exact ⟨r, known, voted.symm⟩

/-- A vote told is logged. -/
theorem voteLogged_of_told {v : Vote}
    (justified : (discipline self).Justified past
      ⟨call, .returned (.queryVote tx) (.ok (some v)), log⟩) : VoteLogged self log tx v := by
  obtain ⟨⟨found, sees, told⟩, -⟩ := justified
  cases found with
  | none => simp at told
  | some r =>
    refine ⟨r, sees, ?_⟩
    rw [show r.vote = some v from told.symm]
    rfl

end Moments

section Entries

variable {self : ProcessId} {s : Scene (role self)} {e : Entry} {tx : TransactionId}

/-- The call that has written an entry had what bears it out. -/
theorem extends_of_mem (sound : (discipline self).Sound s) (he : e ∈ Log.history s.log self tx) :
    e.transaction = tx ∧ ∃ before call log, before <+: s.past ∧ Extends self before log call e := by
  obtain ⟨mem, about, own⟩ := Log.mem_history_iff.1 he
  obtain ⟨before, call, log, sub, justified⟩ := sound.asked_of_mem mem own
  exact ⟨about, before, call, log, (List.prefix_append _ _).trans sub, justified.2⟩

/-- Who has voted was asked to. -/
theorem asked_of_voted (sound : (discipline self).Sound s)
    (he : e ∈ Log.history s.log self tx) {coordinator : ProcessId}
    (h : Record.coordinatorOf? e.payload = some (some coordinator)) :
    ∃ call, AskedToVote self s.past call tx coordinator := by
  obtain ⟨rfl, before, call, log, sub, extends_⟩ := extends_of_mem sound he
  exact ⟨call, (extends_.asked coordinator h).mono sub⟩

/-- Who has resolved was told the decision. -/
theorem told_of_resolved (sound : (discipline self).Sound s)
    (he : e ∈ Log.history s.log self tx) {d : Decision} (h : e.payload = .resolved d) :
    ∃ call, Told self s.past call tx d := by
  obtain ⟨rfl, before, call, log, sub, extends_⟩ := extends_of_mem sound he
  exact ⟨call, (extends_.resolved d h).mono sub⟩

end Entries

end AtomicCommit.Participant
