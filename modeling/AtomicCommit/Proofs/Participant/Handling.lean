import AtomicCommit.Proofs.Participant.Conduct
import AtomicCommit.Proofs.Participant.Rules

/-!
# A participant's messages under the discipline

The call that handles a message has the transaction to itself. It looks up what is known of it, and
takes it one step further or leaves it as it is.

## Main definitions

* `Participant.Attends`: a call that has a transaction to itself.
* `Participant.Stands`: a call stands where it stood, for all that it has to account for.
* `Participant.Steps`: a step from one record of a transaction to the next.

## Main results

* `Participant.meets_record?`, `Participant.meets_advance`: looking up, and a single step.
* `Participant.meets_handlePrepare`, `Participant.meets_handleDecision`: the two messages.
-/

namespace AtomicCommit.Participant

/-- A call has all transactions in order, and one to itself. -/
structure Attends (p : ProcessId) (call : ℕ) (op : Operation) (s : Scene (role p))
    (memory : Memory) (tx : TransactionId) : Prop extends
    (discipline p).Calm call op s memory where
  /-- The call has the transaction to itself. -/
  locked : tx ∈ locks p s.past call op

variable {self : ProcessId} {call : ℕ} {op : Operation} {s s' : Scene (role self)}
  {memory memory' : Memory} {tx : TransactionId}

/-- What is said of a transaction is said by its history. -/
theorem Sees.of_history {log log' : List Entry} {found : Option Record} (h : Sees self log tx found)
    (same : Log.history log' self tx = Log.history log self tx) : Sees self log' tx found := by
  cases found with
  | none => exact same.trans h
  | some r =>
    rw [Sees, same]
    exact h

theorem held_eq_locks {q : (role self).Request} (plain : pauses q = false) :
    (discipline self).held s call op q = locks self s.past call op := by
  refine locks_append rfl fun locked => ?_
  rcases q with q | q
  · rfl
  · cases q with
    | askDecision _ _ => cases plain
    | _ => rfl

/-- The locks of a call do not change at a question that is no pause. -/
theorem locks_of_plain {past past' : List (Moment (role self))} {q : (role self).Request}
    {a : (role self).Answer q} {log log' : List Entry} (plain : pauses q = false)
    (own : momentsOf past' call =
      momentsOf past call ++ [⟨call, .asked q, log⟩, ⟨call, .answered q a, log'⟩]) :
    locks self past' call op = locks self past call op := by
  cases op with
  | recover =>
    simp only [locks, own, List.foldl_append, List.foldl_cons, List.foldl_nil]
    rcases q with q | q
    · cases q with
      | scan _ => cases plain
      | _ => rfl
    · cases q with
      | askDecision _ _ => cases plain
      | _ => rfl
  | _ => rfl

/-- The mandate of a call does not change at a question that is no pause. -/
theorem mandate_of_plain {past past' : List (Moment (role self))} {q : (role self).Request}
    {a : (role self).Answer q} {log log' : List Entry} (plain : pauses q = false)
    (own : momentsOf past' call =
      momentsOf past call ++ [⟨call, .asked q, log⟩, ⟨call, .answered q a, log'⟩]) :
    mandate self past' call op = mandate self past call op := by
  cases op with
  | recover =>
    simp only [mandate, own, List.foldl_append, List.foldl_cons, List.foldl_nil]
    rcases q with q | q
    · rfl
    · cases q with
      | askDecision _ _ => cases plain
      | _ => rfl
  | _ => rfl

/-- A call has gone on and has neither taken nor given up a transaction or a mandate, nor dealt with
a payload. -/
structure Stands (p : ProcessId) (call : ℕ) (op : Operation) (past past' : List (Moment (role p))) :
    Prop where
  /-- It has the same transactions to itself. -/
  locks : locks p past' call op = locks p past call op
  /-- It is to carry out the same decision. -/
  mandate : mandate p past' call op = mandate p past call op
  /-- It has dealt with no payload. -/
  dealings : dealings p past' call = dealings p past call

theorem Stands.refl (past : List (Moment (role self))) : Stands self call op past past :=
  ⟨rfl, rfl, rfl⟩

/-- A call stands where it stood after a question that has nothing to do with a payload and is no
pause. -/
theorem Stands.of_own {past past' : List (Moment (role self))} {q : (role self).Request}
    {a : (role self).Answer q} {log log' : List Entry} (plain : pauses q = false)
    (asked : dealing? self (.asked q) = none) (answered : dealing? self (.answered q a) = none)
    (own : momentsOf past' call =
      momentsOf past call ++ [⟨call, .asked q, log⟩, ⟨call, .answered q a, log'⟩]) :
    Stands self call op past past' where
  locks := locks_of_plain plain own
  mandate := mandate_of_plain plain own
  dealings := by simp [dealings_of_own own, asked, answered]

/-- Whatever else happens at a question that is no pause, the transaction attended to stays as it
is. -/
theorem Attends.regains {q : (role self).Request} {a : (role self).Answer q}
    (h : Attends self call op s memory tx) (plain : pauses q = false)
    (regains : (discipline self).Regains call op s memory q a s' memory') :
    Attends self call op s' memory' tx ∧
      Log.history s'.log self tx = Log.history s.log self tx :=
  ⟨{ regains.toCalm with locked := locks_of_plain plain regains.own ▸ h.locked },
    regains.history tx (held_eq_locks plain ▸ h.locked)⟩

/-- A question that is no pause and stores nothing. -/
theorem Attends.meets_ask {q : (role self).Request} {ε : Type}
    {ok : (role self).Answer q → Memory → Scene (role self) → Prop}
    {err : ε → Memory → Scene (role self) → Prop} (h : Attends self call op s memory tx)
    (plain : pauses q = false) (stores : (role self).stores q = false)
    (asks : Asks self s.past s.log call q)
    (next : ∀ a memory' s', Attends self call op s' memory' tx → s.Grows s' →
      Log.history s'.log self tx = Log.history s.log self tx →
      momentsOf s'.past call =
        momentsOf s.past call ++ [⟨call, .asked q, s.log⟩, ⟨call, .answered q a, s'.log⟩] →
      ok a memory' s') :
    (Action.ask q : Action interface Memory ε _).Meets ((discipline self).contract call op) ok err
      memory s := by
  refine h.toCalm.meets_ask discipline_lawful stores asks fun a memory' s' regains => ?_
  obtain ⟨attends, same⟩ := h.regains plain regains
  exact next a memory' s' attends regains.toGrows same regains.own

/-! ## Looking up -/

/-- What is known of a transaction is what the log says of it. -/
theorem meets_record? {ok : Option Record → Memory → Scene (role self) → Prop}
    {err : CommitError → Memory → Scene (role self) → Prop}
    (h : (discipline self).Calm call op s memory)
    (found : ∀ found memory' s', (discipline self).Calm call op s' memory' →
      Stands self call op s.past s'.past → s.Grows s' → Sees self s'.log tx found →
      ok found memory' s')
    (failed : ∀ failure memory' s', (discipline self).Calm call op s' memory' →
      Stands self call op s.past s'.past → s.Grows s' → err failure memory' s') :
    (record? self tx).Meets ((discipline self).contract call op) ok err memory s := by
  refine meets_record?_of (fun r cached => ?_) fun _ => ?_
  · exact found (some r) memory s h (.refl s.past) (.refl s) (Kept.history (h.kept tx) cached)
  · rw [Host.meets_load]
    refine ⟨h.asks trivial rfl, ?_⟩
    intro loaded memory' s' answers
    have regains := h.regains discipline_lawful answers fun _ _ host => host.1
    have stands : Stands self call op s.past s'.past := .of_own rfl rfl rfl regains.own
    refine ⟨?_, fun failure _ => failed _ _ _ regains.toCalm stands regains.toGrows⟩
    rintro entries rfl
    obtain rfl : entries = Log.load s'.log tx := regains.host.2 entries rfl
    obtain ⟨seen, sees⟩ := Kept.sees (regains.kept tx)
    rw [Log.filter_load_eq_history, sees.replay]
    refine ⟨?_, by simp⟩
    rintro _ ⟨⟩
    exact found seen memory' s' regains.toCalm stands regains.toGrows sees

/-! ## A single step -/

/-- An entry with the payload leads from one record of a transaction to the next, and the call has
been asked to write it. -/
structure Steps (p : ProcessId) (call : ℕ) (s : Scene (role p)) (r r' : Record)
    (next : ParticipantState) (payload : Payload) : Prop where
  /-- Both are about one transaction. -/
  transaction : r'.transaction = r.transaction
  /-- The entry leads from the one record to the other. -/
  apply : ∀ e : Entry, e.Takes r.transaction r.state next payload → r.apply e = .ok r'
  /-- It goes on with the history. -/
  history : ∀ e : Entry, e.Takes r.transaction r.state next payload →
    Record.History r.transaction (Log.history s.log p r.transaction ++ [e]) r'
  /-- Who votes has been asked to. -/
  asked : ∀ coordinator, Record.coordinatorOf? payload = some (some coordinator) →
    AskedToVote p s.past call r.transaction coordinator
  /-- Who resolves has been told the decision. -/
  resolved : ∀ d, payload = .resolved d → Told p s.past call r.transaction d

/-- An entry could not be stored, and all is as it was. -/
structure Missed (p : ProcessId) (call : ℕ) (tx : TransactionId) (payload : Payload)
    (s s' : Scene (role p)) : Prop extends s.Grows s' where
  /-- The history is as it was. -/
  history : Log.history s'.log p tx = Log.history s.log p tx
  /-- Nothing is done with a payload. -/
  dealings : dealings p s'.past call = dealings p s.past call
  /-- The entry has been refused. -/
  refused : ∃ e failure log, ⟨call, .answered (.inl (.append e)) (.error failure), log⟩ ∈ s'.past ∧
    e.payload = payload

/-- The record that an entry leads to may be put into memory once the entry is stored. -/
theorem Attends.insert_stored {e : Entry} {r : Record} (h : Attends self call op s memory tx)
    (stores : (discipline self).Stores call op s memory e s' memory') (about : e.transaction = tx)
    (history : Record.History tx (Log.history s'.log self tx) r) :
    (discipline self).Calm call op s' (memory'.insert tx r) where
  kept tx' := by
    by_cases ne : tx' = tx
    · subst ne
      refine .known history fun r' hr => ?_
      simpa using hr.symm
    · simpa only [Discipline.KeptIn, SortedMap.get?_insert, if_neg ne] using
        stores.others tx' (about ▸ ne)
  frame tx' unlocked := by
    have ne : tx' ≠ tx := by
      rintro rfl
      exact unlocked ((locks_of_plain rfl stores.own).ge h.locked)
    rw [SortedMap.get?_insert, if_neg ne, stores.found]
  started := stores.started

theorem meets_advance {r r' : Record} {next : ParticipantState} {payload : Payload}
    {ok : Unit → Memory → Scene (role self) → Prop}
    {err : CommitError → Memory → Scene (role self) → Prop}
    (h : Attends self call op s memory r.transaction) (steps : Steps self call s r r' next payload)
    (advanced : ∀ memory' s', (discipline self).Calm call op s' memory' → s.Grows s' →
      Sees self s'.log r.transaction (some r') →
      dealings self s'.past call = dealings self s.past call ++ (storing? payload).toList →
      ok () memory' s')
    (failed : ∀ failure memory' s', Attends self call op s' memory' r.transaction →
      Missed self call r.transaction payload s s' → err failure memory' s') :
    (advance self r next payload).Meets ((discipline self).contract call op) ok err memory s := by
  refine meets_advance_of (h.meets_ask rfl rfl trivial ?_)
  intro now memory₁ s₁ attends grows same own₁ e own takes
  have stands : Stands self call op s.past s₁.past := .of_own rfl rfl rfl own₁
  have about : e.transaction = r.transaction := takes.transaction
  have carries : e.payload = payload := takes.payload
  have held : e.transaction ∈ (discipline self).held s₁ call op (.inl (.append e)) := by
    rw [held_eq_locks rfl, about]
    exact attends.locked
  refine attends.meets_append discipline_lawful own held ⟨own, ?_⟩ ?_ ?_
  · constructor
    · rw [about, same]
      exact ⟨r', steps.history e takes⟩
    · intro coordinator votes
      rw [about]
      exact (steps.asked coordinator (carries ▸ votes)).mono grows.past
    · intro d hp
      rw [about]
      exact (steps.resolved d (carries ▸ hp)).mono grows.past
  · intro memory₂ s₂ stores
    rw [steps.apply e takes]
    refine ⟨?_, by simp⟩
    rintro _ ⟨⟩
    have history : Record.History r.transaction (Log.history s₂.log self r.transaction) r' := by
      have added := stores.history
      rw [about] at added
      rw [added, same]
      exact steps.history e takes
    have dealt : dealings self s₂.past call =
        dealings self s.past call ++ (storing? payload).toList := by
      rw [dealings_of_own stores.own, stands.dealings, ← carries]
      rfl
    rw [steps.transaction]
    exact advanced _ s₂ (attends.insert_stored stores about history)
      (grows.trans stores.toGrows) history dealt
  · intro failure memory₂ s₂ regains
    obtain ⟨attends₂, same₂⟩ := attends.regains rfl regains
    refine failed _ memory₂ s₂ attends₂ ⟨grows.trans regains.toGrows, same₂.trans same, ?_, ?_⟩
    · rw [dealings_of_own regains.own, stands.dealings]
      exact List.append_nil _
    · exact ⟨e, failure, s₂.log, regains.noted, carries⟩

/-! ## The steps there are -/

section Steps

variable {coordinator : ProcessId} {d : Decision}

/-- An unknown transaction is prepared. -/
theorem Steps.prepare {payload : PreparedPayload} (unknown : Sees self s.log tx none)
    (asked : AskedToVote self s.past call tx coordinator) :
    Steps self call s { transaction := tx, coordinator := some coordinator }
      { transaction := tx, coordinator := some coordinator, state := .prepared, vote := some .yes,
        payload := some payload } .prepared (.prepared coordinator payload) where
  transaction := rfl
  apply e takes := by rw [Record.apply_of_takes takes rfl]; rfl
  history e takes := by
    rw [unknown]
    exact .prepared takes
  asked := by
    rintro _ ⟨⟩
    exact asked
  resolved := by rintro _ ⟨⟩

/-- An unknown transaction is refused. -/
theorem Steps.refuse (unknown : Sees self s.log tx none)
    (asked : AskedToVote self s.past call tx coordinator) :
    Steps self call s { transaction := tx, coordinator := some coordinator }
      { transaction := tx, coordinator := some coordinator, state := .aborted, vote := some .no }
      .aborted (.voted coordinator .no) where
  transaction := rfl
  apply e takes := by rw [Record.apply_of_takes takes rfl]; rfl
  history e takes := by
    rw [unknown]
    exact .refused takes
  asked := by
    rintro _ ⟨⟩
    exact asked
  resolved := by rintro _ ⟨⟩

/-- An unknown transaction is aborted. -/
theorem Steps.abort (unknown : Sees self s.log tx none) (told : Told self s.past call tx .abort) :
    Steps self call s { transaction := tx, coordinator := none }
      { transaction := tx, coordinator := none, state := .aborted } .aborted
      (.resolved .abort) where
  transaction := rfl
  apply e takes := by rw [Record.apply_of_takes takes rfl]; rfl
  history e takes := by
    rw [unknown]
    exact .early takes
  asked := by rintro _ ⟨⟩
  resolved := by
    rintro _ ⟨⟩
    exact told

/-- A prepared transaction is resolved. -/
theorem Steps.resolve {r : Record} (known : Sees self s.log tx (some r))
    (prepared : r.state = .prepared) (told : Told self s.past call tx d) :
    Steps self call s r { r with state := .resolved d } (.resolved d) (.resolved d) := by
  have id : r.transaction = tx := Record.History.transaction known
  constructor
  · rfl
  · intro e takes
    rw [prepared, id] at takes
    exact (Record.History.resolve known prepared takes).1
  · intro e takes
    rw [prepared, id] at takes
    have history := (Record.History.resolve known prepared takes).2
    rwa [← id] at history
  · intro coordinator votes
    cases d <;> simp [Record.coordinatorOf?] at votes
  · rintro _ ⟨⟩
    rw [id]
    exact told

end Steps

/-! ## The two messages -/

/-- What the resource manager makes of the operations changes nothing in the log. A payload is
obtained only if it is handed on. -/
theorem meets_tryPrepare {message : PrepareMessage}
    {ok : Option PreparedPayload → Memory → Scene (role self) → Prop}
    {err : CommitError → Memory → Scene (role self) → Prop}
    (h : Attends self call (.handlePrepare message) s memory message.transaction)
    (unknown : Sees self s.log message.transaction none) (first : dealings self s.past call = [])
    (tried : ∀ payload memory' s',
      Attends self call (.handlePrepare message) s' memory' message.transaction → s.Grows s' →
      Sees self s'.log message.transaction none →
      dealings self s'.past call = payload.toList.map (Dealing.obtained, ·) →
      ok payload memory' s') :
    (tryPrepare message.operations).Meets
      ((discipline self).contract call (.handlePrepare message)) ok err memory s := by
  obtain ⟨log₀, started⟩ := h.started
  refine meets_tryPrepare_of (h.meets_ask rfl rfl ⟨_, .check started unknown first⟩ ?_)
  intro willing memory₁ s₁ attends₁ grows₁ same₁ own₁
  have unknown₁ : Sees self s₁.log message.transaction none := unknown.of_history same₁
  have first₁ : dealings self s₁.past call = [] := by
    rw [dealings_of_own own₁, first]
    rfl
  refine ⟨fun _ => tried none memory₁ s₁ attends₁ grows₁ unknown₁ first₁, fun _ => ?_⟩
  refine attends₁.meets_ask rfl rfl
    ⟨_, .prepare (grows₁.past.subset started) unknown₁ first₁⟩ ?_
  intro prepared memory₂ s₂ attends₂ grows₂ same₂ own₂
  have unknown₂ : Sees self s₂.log message.transaction none := unknown₁.of_history same₂
  have grows := grows₁.trans grows₂
  have dealt := dealings_of_own own₂
  rw [first₁] at dealt
  cases prepared with
  | ok payload => exact tried _ memory₂ s₂ attends₂ grows unknown₂ dealt
  | error failure => exact tried _ memory₂ s₂ attends₂ grows unknown₂ dealt

/-- What could not be stored is released. -/
theorem meets_release {message : PrepareMessage} {payload : PreparedPayload} {failure : CommitError}
    {s₀ : Scene (role self)} {err : CommitError → Memory → Scene (role self) → Prop}
    (h : Attends self call (.handlePrepare message) s memory message.transaction)
    (unknown : Sees self s₀.log message.transaction none)
    (missed : Missed self call message.transaction (.prepared message.coordinator payload) s₀ s)
    (obtained : dealings self s₀.past call = [(.obtained, payload)])
    (failed : ∀ memory' s', (discipline self).Calm call (.handlePrepare message) s' memory' →
      Settles self s'.log message (dealings self s'.past call) → err failure memory' s') :
    (abort payload : Step (Except Fault Unit)).Meets
      ((discipline self).contract call (.handlePrepare message)) (fun _ => err failure) err memory
      s := by
  obtain ⟨log₀, started⟩ := h.started
  obtain ⟨e, reason, log₁, refused, carried⟩ := missed.refused
  have obtained : dealings self s.past call = [(.obtained, payload)] :=
    missed.dealings.trans obtained
  refine h.meets_ask rfl rfl
    ⟨_, .release started (missed.history.trans unknown) refused carried obtained⟩ ?_
  intro _ memory' s' attends _ _ own
  refine failed memory' s' attends.toCalm ?_
  rw [dealings_of_own own, obtained]
  exact .released

/-- The vote given is the one in the log, and what has been obtained for it is stored or aborted. -/
theorem meets_handlePrepare {message : PrepareMessage}
    {ok : Vote → Memory → Scene (role self) → Prop}
    {err : CommitError → Memory → Scene (role self) → Prop}
    (h : Attends self call (.handlePrepare message) s memory message.transaction)
    (first : dealings self s.past call = [])
    (voted : ∀ vote r memory' s', (discipline self).Calm call (.handlePrepare message) s' memory' →
      Sees self s'.log message.transaction (some r) → vote = r.vote.getD .no →
      Settles self s'.log message (dealings self s'.past call) → ok vote memory' s')
    (failed : ∀ failure memory' s',
      (discipline self).Calm call (.handlePrepare message) s' memory' →
      Settles self s'.log message (dealings self s'.past call) → err failure memory' s') :
    (handlePrepare self message).Meets
      ((discipline self).contract call (.handlePrepare message)) ok err memory s := by
  obtain ⟨log₀, started⟩ := h.started
  refine meets_handlePrepare_of (meets_record? h.toCalm ?_ ?_)
  · intro found memory₁ s₁ calm₁ stands₁ grows₁ sees₁
    have first₁ : dealings self s₁.past call = [] := stands₁.dealings.trans first
    constructor
    case known =>
      rintro r rfl
      exact voted _ r memory₁ s₁ calm₁ sees₁ rfl (first₁ ▸ .nothing)
    case unknown =>
      rintro rfl
      have attends₁ : Attends self call (.handlePrepare message) s₁ memory₁ message.transaction :=
        { calm₁ with locked := stands₁.locks ▸ h.locked }
      refine meets_tryPrepare attends₁ sees₁ first₁ ?_
      intro payload memory₂ s₂ attends₂ grows₂ unknown₂ dealt₂
      have started₂ := (grows₁.trans grows₂).past.subset started
      have asked : AskedToVote self s₂.past call message.transaction message.coordinator :=
        ⟨message, log₀, rfl, rfl, started₂⟩
      constructor
      · rintro payload rfl
        refine meets_advance attends₂ (.prepare unknown₂ asked) ?_ ?_
        · intro memory₃ s₃ calm₃ _ sees₃ dealt₃
          refine voted _ _ memory₃ s₃ calm₃ sees₃ rfl ?_
          rw [dealt₃, dealt₂]
          exact .stored (sees₃.holding rfl rfl) rfl rfl
        · intro failure memory₃ s₃ attends₃ missed
          exact meets_release attends₃ unknown₂ missed dealt₂ (failed _)
      · rintro rfl
        refine meets_advance attends₂ (.refuse unknown₂ asked) ?_ ?_
        · intro memory₃ s₃ calm₃ _ sees₃ dealt₃
          refine voted _ _ memory₃ s₃ calm₃ sees₃ rfl ?_
          rw [dealt₃, dealt₂]
          exact .nothing
        · intro failure memory₃ s₃ attends₃ missed
          refine failed _ memory₃ s₃ attends₃.toCalm ?_
          rw [missed.dealings, dealt₂]
          exact .nothing
  · intro failure memory₁ s₁ calm₁ stands₁ _
    exact failed _ memory₁ s₁ calm₁ (stands₁.dealings.trans first ▸ .nothing)

/-- What is acknowledged has been applied, but for a commit of an unknown transaction. -/
theorem meets_handleDecision {d : Decision} {ok : Unit → Memory → Scene (role self) → Prop}
    {err : CommitError → Memory → Scene (role self) → Prop} (h : Attends self call op s memory tx)
    (told : Told self s.past call tx d) (mandated : mandate self s.past call op = some (tx, d))
    (applied : ∀ memory' s', (discipline self).Calm call op s' memory' → s.Grows s' →
      (d = .commit ∧ Sees self s'.log tx none ∨
        ∃ r, Sees self s'.log tx (some r) ∧ r.state = .resolved d) → ok () memory' s')
    (failed : ∀ failure memory' s', (discipline self).Calm call op s' memory' → s.Grows s' →
      err failure memory' s') :
    (handleDecision self tx d).Meets ((discipline self).contract call op) ok err memory s := by
  refine meets_handleDecision_of (meets_record? h.toCalm ?_
    fun failure memory' s' calm _ => failed failure memory' s' calm)
  intro found memory₁ s₁ calm₁ stands₁ grows₁ sees₁
  have attends₁ : Attends self call op s₁ memory₁ tx :=
    { calm₁ with locked := stands₁.locks ▸ h.locked }
  constructor
  case aborts =>
    rintro rfl rfl
    refine meets_advance attends₁ (.abort sees₁ (told.mono grows₁.past)) ?_ ?_
    · intro memory₂ s₂ calm₂ grows₂ sees₂ _
      exact applied memory₂ s₂ calm₂ (grows₁.trans grows₂) (.inr ⟨_, sees₂, rfl⟩)
    · intro failure memory₂ s₂ attends₂ missed
      exact failed _ memory₂ s₂ attends₂.toCalm (grows₁.trans missed.toGrows)
  case ignores =>
    rintro rfl commits
    exact applied memory₁ s₁ calm₁ grows₁ (.inl ⟨commits, sees₁⟩)
  case repeats =>
    rintro r rfl done
    exact applied memory₁ s₁ calm₁ grows₁ (.inr ⟨r, sees₁, done⟩)
  case refuses => exact fun _ _ _ _ => failed _ memory₁ s₁ calm₁ grows₁
  case misses => exact fun _ _ _ _ => failed _ memory₁ s₁ calm₁ grows₁
  case carries =>
    rintro r payload rfl prepared carried
    have id : r.transaction = tx := Record.History.transaction sees₁
    subst id
    obtain ⟨log₀, started⟩ := calm₁.started
    have mandated₁ : mandate self s₁.past call op = some (r.transaction, d) :=
      stands₁.mandate.trans mandated
    have holding : Holding self s₁.log r payload := sees₁.holding prepared carried
    have carriedOut : ∀ (outcome : Except Fault Unit) memory₂ s₂,
        Attends self call op s₂ memory₂ r.transaction → s₁.Grows s₂ →
        Log.history s₂.log self r.transaction = Log.history s₁.log self r.transaction →
        (∀ failure, outcome = .error failure → err (.internal failure) memory₂ s₂) ∧
          (outcome = .ok () → (advance self r (.resolved d) (.resolved d)).Meets
            ((discipline self).contract call op) ok err memory₂ s₂) := by
      intro outcome memory₂ s₂ attends₂ grows₂ same₂
      have grows := grows₁.trans grows₂
      refine ⟨fun failure _ => failed _ memory₂ s₂ attends₂.toCalm grows, fun _ => ?_⟩
      refine meets_advance attends₂
        (.resolve (sees₁.of_history same₂) prepared (told.mono grows.past)) ?_ ?_
      · intro memory₃ s₃ calm₃ grows₃ sees₃ _
        exact applied memory₃ s₃ calm₃ (grows.trans grows₃) (.inr ⟨_, sees₃, rfl⟩)
      · intro failure memory₃ s₃ attends₃ missed
        exact failed _ memory₃ s₃ attends₃.toCalm (grows.trans missed.toGrows)
    cases d with
    | commit =>
      refine attends₁.meets_ask rfl rfl ⟨_, .commit started mandated₁ holding⟩ ?_
      exact fun outcome memory₂ s₂ attends₂ grows₂ same₂ _ =>
        carriedOut outcome memory₂ s₂ attends₂ grows₂ same₂
    | abort =>
      refine attends₁.meets_ask rfl rfl ⟨_, .abort started mandated₁ holding⟩ ?_
      exact fun outcome memory₂ s₂ attends₂ grows₂ same₂ _ =>
        carriedOut outcome memory₂ s₂ attends₂ grows₂ same₂

end AtomicCommit.Participant
