import AtomicCommit.Proofs.Participant.LookUp
import AtomicCommit.Proofs.Participant.Smooth
import AtomicCommit.Proofs.Process.Favour

/-!
# A decision that is carried out

A participant that is told a decision, and for which nothing fails, acknowledges it, unless its
record says that it has resolved the transaction the other way.

## Main definitions

* `Participant.Good`: the answers with which nothing fails.
* `Participant.obedience`: what the handling of a decision that is answered so comes to.
* `Participant.Obliging`, `Participant.Accepts`: a decision that is told next, while nothing fails,
  is acknowledged.

## Main results

* `Participant.handleDecision_succeeds`, `Participant.acknowledged_of_good`: the decision is
  acknowledged.
-/

namespace AtomicCommit.Participant

variable (self : ProcessId)

/-- Nothing fails: entries are stored, the log is read, and the resource manager carries out what
has been decided. -/
def Good : (q : (role self).Request) → (role self).Answer q → Prop
  | .inl (.append _), stored => stored = .ok ()
  | .inl (.load _), found => ∃ entries, found = .ok entries
  | .inr (.commit _), done | .inr (.abort _), done => done = .ok ()
  | _, _ => True

/-- What the handling of a decision aims at. -/
def obedience : Aim (role self) where
  Good := Good self
  Fits _ m :=
    match m.event with
    | .returned (.handleDecision _ _) result => result = .ok ()
    | _ => True

instance (q : (role self).Request) (a : (role self).Answer q) : Decidable (Good self q a) :=
  match q, a with
  | .inl (.append _), .ok () | .inr (.commit _), .ok () | .inr (.abort _), .ok () => isTrue rfl
  | .inl (.load _), .ok entries => isTrue ⟨entries, rfl⟩
  | .inl (.append _), .error _ | .inr (.commit _), .error _ | .inr (.abort _), .error _
  | .inl (.load _), .error _ => isFalse nofun
  | .inl .now, _ | .inl (.scan _), _ | .inr (.canCommit _), _ | .inr (.prepare _), _
  | .inr (.restore _), _ | .inr (.askDecision _ _), _ => isTrue trivial

variable {self} {call : ℕ} {op : Operation} {s s' : Scene (role self)} {memory memory' : Memory}
  {tx : TransactionId} {d : Decision}

/-- The contract of a call that is answered well. -/
abbrev kindly (p : ProcessId) (call : ℕ) (op : Operation) :
    Contract (interface.sharing Memory) (Scene (role p)) :=
  (discipline p).favoured (obedience p) call op

/-- What the log says of a transaction that is looked up. -/
theorem Attends.kindly_record? {ok : Option Record → Memory → Scene (role self) → Prop}
    {err : CommitError → Memory → Scene (role self) → Prop} (h : Attends self call op s memory tx)
    (found : ∀ found memory' s', Log.history s'.log self tx = Log.history s.log self tx →
      Sees self s'.log tx found → ok found memory' s') :
    (record? self tx).Meets (kindly self call op) ok err memory s := by
  refine meets_record?_of (fun r cached => ?_) fun _ => ?_
  · exact found (some r) memory s rfl (Kept.history (h.kept tx) cached)
  · rw [Host.meets_load]
    refine ⟨trivial, ?_⟩
    rintro _ memory' s' ⟨answers, entries, rfl⟩
    have regains := h.toCalm.regains discipline_lawful answers fun _ _ host => host.1
    refine ⟨?_, by simp⟩
    rintro _ ⟨⟩
    obtain rfl : entries = Log.load s'.log tx := regains.host.2 entries rfl
    obtain ⟨seen, sees⟩ := Kept.sees (regains.kept tx)
    rw [Log.filter_load_eq_history, sees.replay]
    refine ⟨?_, by simp⟩
    rintro _ ⟨⟩
    exact found seen memory' s' (h.regains rfl regains).2 sees

/-- A step is taken if its entry applies. -/
theorem kindly_advance {r : Record} {next : ParticipantState} {payload : Payload}
    {ok : Unit → Memory → Scene (role self) → Prop}
    {err : CommitError → Memory → Scene (role self) → Prop}
    (applies : ∀ e : Entry, e.Takes r.transaction r.state next payload → ∃ r', r.apply e = .ok r')
    (advanced : ∀ memory' s', ok () memory' s') :
    (advance self r next payload).Meets (kindly self call op) ok err memory s := by
  refine meets_advance_of ?_
  rw [Host.now, Action.meets_ask]
  refine ⟨trivial, ?_⟩
  rintro now memory₁ s₁ - e - takes
  obtain ⟨r', applied⟩ := applies e takes
  rw [Host.meets_append, applied]
  refine ⟨trivial, ?_⟩
  rintro _ memory₂ s₂ ⟨-, rfl⟩
  refine ⟨?_, by simp⟩
  rintro _ -
  exact ⟨fun _ _ => advanced _ s₂, by simp⟩

/-- A decision is carried out by who has prepared or knows nothing, and has been by who has resolved
so before. -/
theorem Attends.kindly_handleDecision {ok : Unit → Memory → Scene (role self) → Prop}
    {err : CommitError → Memory → Scene (role self) → Prop} (h : Attends self call op s memory tx)
    (agrees : ∀ r, Sees self s.log tx (some r) → r.state = .prepared ∨ r.state = .resolved d)
    (done : ∀ memory' s', ok () memory' s') :
    (handleDecision self tx d).Meets (kindly self call op) ok err memory s := by
  refine meets_handleDecision_of (h.kindly_record? ?_)
  intro found memory₁ s₁ same sees
  constructor
  case aborts =>
    rintro rfl rfl
    refine kindly_advance (fun e takes => ?_) done
    exact ⟨_, Record.apply_of_takes takes rfl⟩
  case ignores => exact fun _ _ => done memory₁ s₁
  case repeats => exact fun _ _ _ => done memory₁ s₁
  case refuses =>
    rintro r rfl unresolved unprepared
    exact absurd (agrees r (sees.of_history same.symm)) (not_or.2 ⟨unprepared, unresolved⟩)
  case misses =>
    rintro r rfl prepared missing
    obtain ⟨_, _, _, payload, -, -, carried⟩ :=
      Record.History.exists_prepared sees (Record.History.vote_of_prepared sees prepared)
    cases missing.symm.trans carried
  case carries =>
    rintro r payload rfl prepared -
    have id : r.transaction = tx := Record.History.transaction sees
    have resolves : ∀ memory₂ s₂,
        (advance self r (.resolved d) (.resolved d)).Meets (kindly self call op) ok err
          memory₂ s₂ := by
      intro memory₂ s₂
      refine kindly_advance (fun e takes => ?_) done
      rw [prepared, id] at takes
      exact ⟨_, (Record.History.resolve sees prepared takes).1⟩
    cases d with
    | commit =>
      rw [carryOut, commit, Action.meets_ask]
      refine ⟨trivial, ?_⟩
      rintro _ memory₂ s₂ ⟨-, rfl⟩
      exact ⟨by simp, fun _ => resolves memory₂ s₂⟩
    | abort =>
      rw [carryOut, abort, Action.meets_ask]
      refine ⟨trivial, ?_⟩
      rintro _ memory₂ s₂ ⟨-, rfl⟩
      exact ⟨by simp, fun _ => resolves memory₂ s₂⟩

/-- A decision that is answered well is acknowledged. -/
theorem handleDecision_succeeds (sound : (discipline self).Sound s)
    (agrees : ∀ r, Sees self s.log tx (some r) → r.state = .prepared ∨ r.state = .resolved d) :
    (run self (.handleDecision tx d) s.memory).Meets (kindly self call (.handleDecision tx d))
      (Discipline.Succeeds (obedience self) call (.handleDecision tx d))
      (s.note call (.started (.handleDecision tx d))) := by
  have calm : (discipline self).Calm call (.handleDecision tx d)
      (s.note call (.started (.handleDecision tx d))) s.memory :=
    Discipline.calm_start discipline_lawful sound
  have attends : Attends self call (.handleDecision tx d)
      (s.note call (.started (.handleDecision tx d))) s.memory tx := { calm with locked := rfl }
  exact Action.Meets.program (attends.kindly_handleDecision agrees fun _ _ => rfl)

/-- Decisions go on to be acknowledged, as long as nothing fails and none contradicts what has been
resolved. -/
theorem prospers_step {covers : ℕ → Operation → Prop} {n n' : Node (role self)}
    {allows : Operation → Moment (role self) → Prop}
    (handles : ∀ call op, covers call op → ∃ tx d, op = .handleDecision tx d)
    (holds : (discipline self).Holds n)
    (h : (discipline self).Prospers (obedience self) covers n) (step : n.Step allows n')
    (allowed : ∀ op m, allows op m → Allows self n op m)
    (agrees : ∀ call tx d, covers call (.handleDecision tx d) →
      allows (.handleDecision tx d) ⟨call, .started (.handleDecision tx d), n.log⟩ →
      ∀ r, Sees self n.log tx (some r) → r.state = .prepared ∨ r.state = .resolved d)
    (good : ∀ call t a log, n.threads call = some t → covers call t.operation →
      allows t.operation ⟨call, .answered t.question a, log⟩ → Good self t.question a) :
    (discipline self).Prospers (obedience self) covers n' := by
  refine h.step discipline_lawful obeyed holds step (tolerates allowed) ?_ good
  intro call op allowed covered _
  obtain ⟨tx, d, rfl⟩ := handles call op covered
  exact handleDecision_succeeds holds.toSound (agrees call tx d covered allowed)

/-- A decision that does not contradict what has been resolved is acknowledged, if its call is
answered well. -/
theorem acknowledged_of_good {n : Node (role self)} (h : Reachable self n) {log log' : List Entry}
    {result : Except CommitError Unit}
    (started : ⟨call, .started (.handleDecision tx d), log⟩ ∈ n.past)
    (agrees : ∀ r, Sees self log tx (some r) → r.state = .prepared ∨ r.state = .resolved d)
    (good : ∀ m ∈ momentsOf n.past call, m.Hears (Good self))
    (returned : ⟨call, .returned (.handleDecision tx d) result, log'⟩ ∈ n.past) :
    result = .ok () := by
  -- along the run, up to this point
  have prospers : ∀ n₁, Reachable self n₁ → n₁.past <+: n.past →
      (discipline self).Prospers (obedience self)
        (fun call' op => call' = call ∧ op = .handleDecision tx d) n₁ := by
    intro n₁ reachable
    induction reachable with
    | initial =>
      intro _
      exact .of_new Reachable.initial.holds fun _ _ _ _ hm => nomatch hm
    | @step n₁ n₂ before step ih =>
      intro sub
      refine prospers_step (fun _ _ covered => ⟨tx, d, covered.2⟩) before.holds
        (ih (step.grows.past.trans sub)) step.noted (fun _ _ h => h.1) ?_ ?_
      · rintro _ _ _ ⟨rfl, same⟩ ⟨-, new⟩
        cases same
        have first := h.holds.chronicle.head_of_started started
        rw [h.holds.chronicle.head_of_started (sub.subset new)] at first
        cases first
        exact agrees
      · rintro _ t a log₁ - ⟨rfl, -⟩ ⟨-, new⟩
        exact good _ (mem_momentsOf (sub.subset new) rfl) _ a rfl
  obtain ⟨before, -, fits⟩ :=
    (prospers n h List.prefix_rfl).ends _ _ _ _ returned ⟨rfl, rfl⟩
  exact fits

/-! ## A decision that is told next -/

/-- Everything is answered, and well. -/
structure Obliging {p : ProcessId} (manner : Node.Manner (role p)) : Prop where
  /-- Every entry is stored. -/
  stores : ∀ e, manner.refuses e = none
  /-- Nobody outside fails. -/
  answers : ∀ q, ∃ a, manner.outside q = some a ∧ Good p (.inr q) a

/-- A decision that is told next, while nothing else is going on and nothing fails, is
acknowledged. -/
def Accepts {p : ProcessId} (n : Node (role p)) (tx : TransactionId) (d : Decision) : Prop :=
  ∀ (manner : Node.Manner (role p)) call, Obliging manner → n.Unstarted call → n.Alone call →
    Leads p n (n.begins manner call (.handleDecision tx d)) ∧
      JustEnded (n.begins manner call (.handleDecision tx d)) call (.handleDecision tx d) (.ok ())

theorem Leads.attains {p : ProcessId} {n : Node (role p)} {outside : Node.Outside (role p)} :
    Node.Attains (Leads p n) (Allows p) outside where
  step _ _ before step := before.tail step
  host _ _ _ _ _ _ alone := allows_of_alone alone
  outside _ _ _ _ _ _ alone _ := allows_of_alone alone

/-- Who stores every entry answers well. -/
theorem Obliging.host {manner : Node.Manner (role self)} (obliging : Obliging manner)
    (log : List Entry) (q : Host.Request) :
    Good self (.inl q) (Host.reply manner.refuses log q) := by
  cases q with
  | append e =>
    show Host.reply manner.refuses log (.append e) = .ok ()
    simp [Host.reply, obliging.stores e]
  | load tx => exact ⟨_, rfl⟩
  | now => trivial
  | scan actor => trivial

/-- A participant accepts a decision that does not contradict what has been resolved. -/
theorem accepts_of_agrees {n : Node (role self)} (h : Reachable self n)
    (agrees : ∀ r, Sees self n.log tx (some r) → r.state = .prepared ∨ r.state = .resolved d) :
    Accepts n tx d := by
  intro manner call obliging new alone
  have leads : Leads self n (n.begins manner call (.handleDecision tx d)) :=
    Leads.attains.begins manner .refl alone new (allows_of_alone alone)
  refine ⟨leads, ?_⟩
  have reachable := h.leads leads
  obtain ⟨result, log, before, past, hears⟩ :=
    Node.begins_ends obliging.host obliging.answers n call (.handleDecision tx d)
  have started : ⟨call, .started (.handleDecision tx d), n.log⟩ ∈
      (n.begins manner call (.handleDecision tx d)).past := by simp [past]
  have returned : ⟨call, .returned (.handleDecision tx d) result, log⟩ ∈
      (n.begins manner call (.handleDecision tx d)).past := by simp [past]
  have good : ∀ m ∈ momentsOf (n.begins manner call (.handleDecision tx d)).past call,
      m.Hears (Good self) := by
    intro m hm q a event
    rw [past] at hm
    simp only [momentsOf_append, List.mem_append] at hm
    rcases hm with ((old | start) | heard) | last
    · exact absurd (by simpa using (List.mem_filter.1 old).2) (new m (mem_of_mem_momentsOf old))
    · rw [List.mem_singleton.1 (mem_of_mem_momentsOf start)] at event
      cases event
    · exact hears m (mem_of_mem_momentsOf heard) q a event
    · rw [List.mem_singleton.1 (mem_of_mem_momentsOf last)] at event
      cases event
  have ok := acknowledged_of_good reachable started agrees good returned
  exact ⟨log, by rw [past, List.getLast?_concat, ok]⟩

end AtomicCommit.Participant
