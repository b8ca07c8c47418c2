import AtomicCommit.Proofs.Coordinator.Conduct
import AtomicCommit.Proofs.Process.Exchange

/-!
# A step of a transaction

What a coordinator does when it takes a transaction one step on, whatever contract it is under: it
reads the clock, and unless the entry is refused or repeats something it asks to append it and
caches what it leads to.

## Main definitions

* `Coordinator.entry`: the entry of a step.

## Main results

* `Coordinator.meets_transition_entry`: a step does with its entry what `check` says of it.
* `Coordinator.meets_transition_of`: when a step meets a contract.
* `Coordinator.meets_transition_hearing`: what a step that is new asks and may be told.
-/

namespace AtomicCommit.Coordinator

variable {self : Coordinator} {W : Type} {c : Contract (interface.sharing Memory) W}
  {t : Transaction} {next : CoordinatorState} {payload : Payload}
  {ok : Transaction → Memory → W → Prop} {err : CommitError → Memory → W → Prop}
  {memory : Memory} {w : W}

/-- The entry of a step at a time. -/
def entry (c : Coordinator) (t : Transaction) (next : CoordinatorState) (payload : Payload)
    (time : Timestamp) : Entry :=
  { transaction := t.id
    actor := c.id
    previous := some t.state.toState
    state := next.toState
    payload
    time }

/-- Where it leads and what it carries decide whether it is new. -/
theorem check_entry {time : Timestamp} {new : Bool} :
    t.check (self.entry t next payload time) = .ok new ↔ t.checkPayload next payload = .ok new :=
  Transaction.check_eq_ok_iff_of_state rfl rfl rfl

theorem apply_entry {time : Timestamp} (advances : t.Advances next payload) :
    t.apply (self.entry t next payload time) = .ok (true, t.record next payload) :=
  Transaction.apply_eq_new_iff.2 ⟨next, rfl, rfl, rfl, advances, rfl⟩

/-- A step does with its entry what `check` says of it. -/
theorem meets_transition_entry (reads : c.asks w (.inl .now, memory))
    (refused : ∀ time failure memory' w', c.answers w (.inl .now, memory) (time, memory') w' →
      t.check (self.entry t next payload time) = .error failure →
      err (.invalidState failure) memory' w')
    (repeated : ∀ time memory' w', c.answers w (.inl .now, memory) (time, memory') w' →
      t.check (self.entry t next payload time) = .ok false → ok t memory' w')
    (appends : ∀ time memory' w', c.answers w (.inl .now, memory) (time, memory') w' →
      t.Advances next payload →
      (Host.append (self.entry t next payload time) : Action interface Memory LogError Unit).Meets c
        (fun _ memory => ok (t.record next payload) (memory.insert t.id (t.record next payload)))
        (fun failure => err (.log failure)) memory' w') :
    (self.transition t next payload).Meets c ok err memory w := by
  unfold transition
  rw [Action.meets_bind, Host.now, Action.meets_ask]
  refine ⟨reads, ?_⟩
  intro time memory' w' answers
  dsimp only
  generalize made : ({ .. } : Entry) = e
  obtain rfl : self.entry t next payload time = e := made
  simp only [Action.meets_bind, Action.meets_ofExcept]
  constructor
  · intro new check
    cases new with
    | false =>
      rw [if_neg (by simp), Action.meets_pure]
      exact repeated time memory' w' answers check
    | true =>
      have advances := Transaction.checkPayload_eq_new_iff.1 (check_entry.1 check)
      rw [if_pos rfl, Action.meets_bind, Action.meets_mapError, apply_entry advances]
      refine Program.Meets.mono (appends time memory' w' answers advances) ?_
      rintro ⟨result, memory''⟩ w'' h
      cases result with
      | error failure => exact h
      | ok u =>
        dsimp only at h ⊢
        rw [Action.meets_bind, Action.meets_ofExcept]
        refine ⟨?_, by simp⟩
        rintro _ ⟨⟩
        rw [Action.meets_bind, Action.meets_modify, Action.meets_pure]
        simpa using h
  · exact fun failure check => refused time failure memory' w' answers check

/-- An entry takes a transaction one step on. -/
structure Takes (c : Coordinator) (t : Transaction) (next : CoordinatorState) (payload : Payload)
    (e : Entry) : Prop where
  /-- The coordinator appends it. -/
  actor : e.actor = c.id
  /-- It is about the transaction. -/
  transaction : e.transaction = t.id
  /-- It leads to the state. -/
  state : e.state = next.toState
  /-- It carries the data. -/
  carries : e.payload = payload
  /-- It is new. -/
  apply : t.apply e = .ok (true, t.record next payload)

/-- A step meets a contract if the clock may be read and, where the entry is new, it may be
appended. -/
theorem meets_transition_of (reads : c.asks w (.inl .now, memory))
    (refused : ∀ time failure memory' w', c.answers w (.inl .now, memory) (time, memory') w' →
      ¬t.Advances next payload → err (.invalidState failure) memory' w')
    (repeated : ∀ time memory' w', c.answers w (.inl .now, memory) (time, memory') w' →
      ¬t.Advances next payload → t.Repeats next payload → ok t memory' w')
    (appends : ∀ time memory' w' e, c.answers w (.inl .now, memory) (time, memory') w' →
      t.Advances next payload → self.Takes t next payload e →
      (Host.append e : Action interface Memory LogError Unit).Meets c
        (fun _ memory => ok (t.record next payload) (memory.insert t.id (t.record next payload)))
        (fun failure => err (.log failure)) memory' w') :
    (self.transition t next payload).Meets c ok err memory w := by
  refine meets_transition_entry reads ?_ ?_ ?_
  · intro time failure memory' w' answers check
    refine refused time failure memory' w' answers fun advances => ?_
    rw [check_entry.2 (Transaction.checkPayload_eq_new_iff.2 advances)] at check
    cases check
  · intro time memory' w' answers check
    rw [check_entry] at check
    refine repeated time memory' w' answers ?_ (Transaction.repeats_of_checkPayload check)
    rw [← Transaction.checkPayload_eq_new_iff, check]
    simp
  · intro time memory' w' answers advances
    exact appends time memory' w' _ answers advances ⟨rfl, rfl, rfl, rfl, apply_entry advances⟩

/-- What is said in a step that is new: the time, and whether its entry has been stored. -/
def stepping (time : Timestamp) (e : Entry) (a : Except LogError Unit) :
    List (Exchange self.role) :=
  [⟨.inl .now, time⟩, ⟨.inl (.append e), a⟩]

@[simp] theorem stored_stepping_ok (time : Timestamp) (e : Entry) (u : Unit) :
    stored (stepping time e (.ok u) : List (Exchange self.role)) = [e] := rfl

@[simp] theorem stored_stepping_error (time : Timestamp) (e : Entry) (failure : LogError) :
    stored (stepping time e (.error failure) : List (Exchange self.role)) = [] := rfl

/-- A step that is new reads the clock and asks to append its entry. -/
theorem meets_transition_hearing {asks : List (Exchange self.role) → self.role.Request → Prop}
    {tells : List (Exchange self.role) → (q : self.role.Request) → self.role.Answer q → Prop}
    {said : List (Exchange self.role)}
    {ok : Transaction → Memory → List (Exchange self.role) → Prop}
    {err : CommitError → Memory → List (Exchange self.role) → Prop}
    (advances : t.Advances next payload) (reads : asks said (.inl .now))
    (appends : ∀ time e, self.Takes t next payload e →
      asks (said ++ [⟨.inl .now, time⟩]) (.inl (.append e)))
    (advanced : ∀ time e memory', self.Takes t next payload e →
      ok (t.record next payload) memory' (said ++ stepping time e (.ok ())))
    (failed : ∀ time e failure memory', self.Takes t next payload e →
      tells (said ++ [⟨.inl .now, time⟩]) (.inl (.append e))
        (.error failure : Except LogError Unit) →
      err (.log failure) memory' (said ++ stepping time e (.error failure))) :
    (self.transition t next payload).Meets (self.role.hearing asks tells) ok err memory said := by
  refine meets_transition_of reads ?_ ?_ ?_
  · exact fun _ _ _ _ _ refused => absurd advances refused
  · exact fun _ _ _ _ refused => absurd advances refused
  rintro time memory₁ _ e ⟨-, rfl⟩ - takes
  refine meets_append_hearing (appends time e takes) (fun memory₂ _ => ?_)
    fun failure memory₂ told => ?_
  · rw [List.append_assoc]
    exact advanced time e _ takes
  · rw [List.append_assoc]
    exact failed time e failure memory₂ takes told

end AtomicCommit.Coordinator
