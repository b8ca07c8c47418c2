import AtomicCommit.Proofs.Log.Scan
import AtomicCommit.Proofs.Participant.Obedience
import AtomicCommit.Proofs.Process.Undisturbed

/-!
# The recovery of a participant that is left alone

A recovery that nobody disturbs finds its memory and its entries as it has left them. So each of
its steps can be accounted for: what is put back into memory and given back to the resource manager,
then, for each transaction, either the entry that resolves it and the report that it is resolved, or
no entry and the report that it is blocked.

## Main definitions

* `Participant.Adds`: the entries that a call has stored, and what it has done with payloads.
* `Participant.Restores`: all that was found is in memory.
* `Participant.Accounts`: what has become of the transactions found.

## Main results

* `Participant.undisturbed_recover`: what a recovery has done when it succeeds.
-/

namespace AtomicCommit.Participant

/-- What a call has stored since, and what it has done with payloads. -/
structure Adds (p : ProcessId) (t t' : Trace (role p)) (entries : List Entry)
    (dealt : List (Dealing × PreparedPayload)) : Prop where
  /-- The entries stored. -/
  own : t'.own = t.own ++ entries
  /-- More has happened. -/
  events : t.events <+: t'.events
  /-- What was done with payloads. -/
  dealt : t'.events.filterMap (dealing? p) = t.events.filterMap (dealing? p) ++ dealt

/-- A payload was committed or aborted. -/
def CarriesOut (dealing : Dealing × PreparedPayload) : Prop :=
  dealing.1 = .committed ∨ dealing.1 = .aborted

/-- What a call has stored since, having done nothing with payloads but carry out decisions. -/
def Resolving (p : ProcessId) (t t' : Trace (role p)) (entries : List Entry) : Prop :=
  ∃ dealt, Adds p t t' entries dealt ∧ ∀ dealing ∈ dealt, CarriesOut dealing

variable {self : ProcessId} {t t₁ t' : Trace (role self)} {memory memory₁ memory' : Memory}
  {entries entries' : List Entry} {r : Record} {records : List Record} {payload : PreparedPayload}

section Adds

variable {dealt dealt' : List (Dealing × PreparedPayload)}

theorem Adds.refl (t : Trace (role self)) : Adds self t t [] [] :=
  ⟨by simp, List.prefix_rfl, by simp⟩

theorem Adds.trans (h : Adds self t t₁ entries dealt) (h' : Adds self t₁ t' entries' dealt') :
    Adds self t t' (entries ++ entries') (dealt ++ dealt') where
  own := by rw [h'.own, h.own, List.append_assoc]
  events := h.events.trans h'.events
  dealt := by rw [h'.dealt, h.dealt, List.append_assoc]

/-- A question and its answer. -/
theorem Adds.tell (t : Trace (role self)) (q : (role self).Request) (a : (role self).Answer q) :
    Adds self t (t.tell q a) []
      ((dealing? self (.asked q)).toList ++ (dealing? self (.answered q a)).toList) where
  own := by simp
  events := by simp
  dealt := by
    cases asked : dealing? self (.asked q) <;> cases answered : dealing? self (.answered q a) <;>
      simp [asked, answered]

/-- An entry is stored. -/
theorem Adds.store (t : Trace (role self)) (e : Entry) :
    Adds self t (t.store e) [e] (storing? e.payload).toList where
  own := by simp
  events := by simp
  dealt := by
    have asked : dealing? self (.asked (.inl (.append e))) = none := rfl
    have answered : dealing? self (.answered (.inl (.append e)) (.ok ())) = storing? e.payload :=
      rfl
    cases stores : storing? e.payload <;> simp [asked, answered, stores]

theorem Resolving.refl (t : Trace (role self)) : Resolving self t t [] := ⟨[], .refl t, by simp⟩

theorem Resolving.trans (h : Resolving self t t₁ entries) (h' : Resolving self t₁ t' entries') :
    Resolving self t t' (entries ++ entries') := by
  obtain ⟨dealt, adds, carries⟩ := h
  obtain ⟨dealt', adds', carries'⟩ := h'
  exact ⟨_, adds.trans adds', List.forall_mem_append.2 ⟨carries, carries'⟩⟩

/-- A question that has nothing to do with a payload, or carries out a decision. -/
theorem Resolving.tell {q : (role self).Request} {a : (role self).Answer q}
    (carries : ∀ dealing, dealing? self (.asked q) = some dealing → CarriesOut dealing)
    (answered : dealing? self (.answered q a) = none) : Resolving self t (t.tell q a) [] := by
  refine ⟨_, .tell t q a, fun dealing hd => carries dealing ?_⟩
  simpa [answered] using hd

theorem Resolving.store {e : Entry} {d : Decision} (resolves : e.payload = .resolved d) :
    Resolving self t (t.store e) [e] :=
  ⟨_, .store t e, by simp [resolves, storing?]⟩

end Adds

/-! ## Restoring -/

/-- A record is put back, unless it is there, and the resource manager takes hold of what it had
prepared. -/
theorem undisturbed_restore {ok : Bool → Memory → Trace (role self) → Prop}
    {err : CommitError → Memory → Trace (role self) → Prop} (prepared : r.state = .prepared)
    (carried : r.payload = some payload)
    (cached : memory.contains r.transaction = true → ok false memory t)
    (held : memory.contains r.transaction = false → ∀ t',
      Adds self t t' [] [(.reacquired, payload)] → ok true (memory.insert r.transaction r) t')
    (failed : ∀ failure t', err failure memory t') :
    (restore r).Meets (role self).undisturbed ok err memory t := by
  refine meets_restore_of cached ?_ ?_
  · intro missing payload' _ carried'
    obtain rfl : payload = payload' := Option.some.inj (carried.symm.trans carried')
    refine meets_ask_undisturbed rfl fun outcome => ⟨fun _ _ => failed _ _, fun _ => ?_⟩
    exact held missing _ (.tell t (.inr (.restore payload)) outcome)
  · exact fun _ plain => absurd carried (plain payload prepared)

/-- All that was found is in memory as it was found, and what was not there before has been given
back to the resource manager, one after another. -/
structure Restores (p : ProcessId) (records : List Record) (memory memory' : Memory)
    (t t' : Trace (role p)) : Prop where
  /-- It is in memory. -/
  copies : ∀ r ∈ records, memory'.get? r.transaction = some r
  /-- All else is as it was. -/
  others : ∀ tx, (∀ r ∈ records, r.transaction ≠ tx) → memory'.get? tx = memory.get? tx
  /-- What was not there before has been given back. -/
  given : ∃ given, Adds p t t' [] given ∧
    List.Forall₂ Reacquires (records.filter fun r => !memory.contains r.transaction) given

theorem undisturbed_restoreAll {ok : PUnit → Memory → Trace (role self) → Prop}
    {err : RecoveryError → Memory → Trace (role self) → Prop}
    (distinct : records.Pairwise fun r r' => r.transaction ≠ r'.transaction)
    (prepared : ∀ r ∈ records, r.state = .prepared ∧ ∃ payload, r.payload = some payload)
    (kept : ∀ r ∈ records, ∀ r', memory.get? r.transaction = some r' → r' = r)
    (restored : ∀ memory' t', Restores self records memory memory' t t' → ok ⟨⟩ memory' t')
    (failed : ∀ failure memory' t', err failure memory' t') :
    (records.forM fun record => discard ((restore record).mapError .ofCommit) :
      RecoveryStep PUnit).Meets (role self).undisturbed ok err memory t := by
  induction records generalizing memory t with
  | nil => exact restored memory t ⟨by simp, fun _ _ => rfl, [], .refl t, .nil⟩
  | cons r rest ih =>
    obtain ⟨different, distinct⟩ := List.pairwise_cons.1 distinct
    obtain ⟨state, payload, carried⟩ := prepared r (.head _)
    rw [List.forM_eq_forM, List.forM_cons, Action.meets_bind, Action.meets_discard,
      Action.meets_mapError]
    refine undisturbed_restore state carried ?_ ?_ fun _ _ => failed _ _ _
    · intro there
      refine ih distinct (fun r' hr' => prepared r' (.tail _ hr'))
        (fun r' hr' => kept r' (.tail _ hr')) fun memory' t' h => restored memory' t' ?_
      obtain ⟨copy, cached⟩ := SortedMap.contains_iff.1 there
      obtain rfl := kept r (.head _) copy cached
      refine ⟨?_, fun tx other => h.others tx fun r' hr' => other r' (.tail _ hr'), ?_⟩
      · refine List.forall_mem_cons.2 ⟨?_, h.copies⟩
        rw [h.others _ fun r' hr' => (different r' hr').symm, cached]
      · simpa [List.filter_cons, there] using h.given
    · intro missing t₁ adds
      have elsewhere : ∀ r' ∈ rest,
          (memory.insert r.transaction r).get? r'.transaction = memory.get? r'.transaction := by
        intro r' hr'
        rw [SortedMap.get?_insert, if_neg (different r' hr').symm]
      refine ih distinct (fun r' hr' => prepared r' (.tail _ hr'))
        (fun r' hr' => elsewhere r' hr' ▸ kept r' (.tail _ hr')) fun memory' t' h =>
          restored memory' t' ?_
      constructor
      · refine List.forall_mem_cons.2 ⟨?_, h.copies⟩
        rw [h.others _ fun r' hr' => (different r' hr').symm, SortedMap.get?_insert_self]
      · intro tx other
        rw [h.others tx fun r' hr' => other r' (.tail _ hr'), SortedMap.get?_insert,
          if_neg (other r (.head _)).symm]
      · obtain ⟨given, adds', gives⟩ := h.given
        have same :
            (rest.filter fun r' => !(memory.insert r.transaction r).contains r'.transaction) =
              rest.filter fun r' => !memory.contains r'.transaction := by
          refine List.filter_congr fun r' hr' => ?_
          rw [SortedMap.contains, elsewhere r' hr', SortedMap.contains]
        refine ⟨_, adds.trans adds', ?_⟩
        rw [List.filter_cons, missing, ← same]
        exact .cons ⟨rfl, carried⟩ gives

/-! ## Resolving -/

/-- A decision on a prepared transaction is carried out and stored, or is not stored, and memory is
as it was. -/
theorem undisturbed_handleDecision {d : Decision} {ok : Unit → Memory → Trace (role self) → Prop}
    {err : CommitError → Memory → Trace (role self) → Prop}
    (cached : memory.get? r.transaction = some r) (prepared : r.state = .prepared)
    (carried : r.payload = some payload)
    (resolved : ∀ e t', e.actor = self →
      e.Takes r.transaction .prepared (.resolved d) (.resolved d) → Resolving self t t' [e] →
      ok () (memory.insert r.transaction { r with state := .resolved d }) t')
    (failed : ∀ failure t', Resolving self t t' [] → err failure memory t') :
    (handleDecision self r.transaction d).Meets (role self).undisturbed ok err memory t := by
  -- what follows once the resource manager has answered
  have carriedOut : ∀ (outcome : Except Fault Unit) t₁, Resolving self t t₁ [] →
      (∀ failure, outcome = .error failure → err (.internal failure) memory t₁) ∧
        (outcome = .ok () → (advance self r (.resolved d) (.resolved d)).Meets
          (role self).undisturbed ok err memory t₁) := by
    intro outcome t₁ dealt
    refine ⟨fun failure _ => failed _ t₁ dealt, fun _ => meets_advance_of ?_⟩
    refine meets_ask_undisturbed rfl fun now e actor takes => ?_
    rw [prepared] at takes
    have asked : Resolving self t (t₁.tell (.inl .now) now) [] :=
      dealt.trans (.tell (by simp [dealing?]) rfl)
    refine meets_append_undisturbed actor ?_ fun failure => ?_
    · have apply : r.apply e = .ok { r with state := .resolved d } := by
        rw [Record.apply_of_takes (prepared ▸ takes) (by rw [prepared]; cases d <;> rfl)]
        simp [Record.step]
      rw [apply]
      refine ⟨?_, by simp⟩
      rintro _ ⟨⟩
      exact resolved e _ actor takes (asked.trans (.store takes.payload))
    · exact failed _ _ (asked.trans (.tell (by simp [dealing?]) rfl))
  refine meets_handleDecision_of (meets_record?_of ?_ ?_)
  · intro r₀ cached'
    obtain rfl : r = r₀ := Option.some.inj (cached.symm.trans cached')
    constructor
    case aborts => simp
    case ignores => simp
    case repeats =>
      rintro _ ⟨⟩ applied
      cases d <;> simp [prepared, ParticipantState.resolved] at applied
    case refuses =>
      rintro _ ⟨⟩ - unprepared
      exact absurd prepared unprepared
    case misses =>
      rintro _ ⟨⟩ - missing
      simp [carried] at missing
    case carries =>
      rintro _ payload ⟨⟩ - -
      cases d with
      | commit =>
        refine meets_ask_undisturbed rfl fun outcome => carriedOut outcome _ ?_
        exact .tell (by simp [dealing?, CarriesOut]) rfl
      | abort =>
        refine meets_ask_undisturbed rfl fun outcome => carriedOut outcome _ ?_
        exact .tell (by simp [dealing?, CarriesOut]) rfl
  · exact fun unknown => by simp [cached] at unknown

/-- The coordinator of a prepared transaction is asked, and what it has decided is carried out. -/
theorem undisturbed_resolve {coordinator : ProcessId} {report : RecoveryReport}
    {ok : RecoveryReport → Memory → Trace (role self) → Prop}
    {err : RecoveryError → Memory → Trace (role self) → Prop}
    (named : r.coordinator = some coordinator) (cached : memory.get? r.transaction = some r)
    (prepared : r.state = .prepared) (carried : r.payload = some payload)
    (resolved : ∀ d e t', e.actor = self →
      e.Takes r.transaction .prepared (.resolved d) (.resolved d) → Resolving self t t' [e] →
      .answered (.inr (.askDecision coordinator r.transaction)) (.ok (some d)) ∈ t'.events →
      ok { report with resolved := report.resolved ++ [(r.transaction, d)] }
        (memory.insert r.transaction { r with state := .resolved d }) t')
    (blocked : ∀ t', Resolving self t t' [] →
      ok { report with blocked := report.blocked ++ [r.transaction] } memory t')
    (failed : ∀ failure memory' t', err failure memory' t') :
    (resolve self report r).Meets (role self).undisturbed ok err memory t := by
  refine meets_resolve_of (by simp [named]) fun coordinator' named' => ?_
  obtain rfl : coordinator = coordinator' := Option.some.inj (named.symm.trans named')
  refine meets_ask_undisturbed rfl fun answer => ?_
  have asked :
      Resolving self t (t.tell (.inr (.askDecision coordinator r.transaction)) answer) [] :=
    .tell (by simp [dealing?]) rfl
  refine ⟨?_, fun _ => blocked _ asked⟩
  rintro d rfl
  refine undisturbed_handleDecision cached prepared carried ?_ ?_
  · intro e t' actor takes adds
    refine resolved d e t' actor takes (asked.trans adds) ?_
    obtain ⟨dealt, adds, -⟩ := adds
    exact adds.events.subset (by simp)
  · exact fun failure t' adds => ⟨fun _ _ => failed _ _ _, fun _ => blocked t' (asked.trans adds)⟩

/-! ## Accounting for all -/

/-- What is prepared is in memory. -/
def Ready (p : ProcessId) (own : List Entry) (memory : Memory) (r : Record) : Prop :=
  memory.get? r.transaction = some r ∧ ∃ payload, Holding p own r payload

/-- What has become of some transactions that were prepared, and how the report has grown: each is
reported by whether it is still prepared, its coordinator has told the decision on those that are
not, and memory has it as the log has it. All others are as they were. -/
structure Accounts (p : ProcessId) (records : List Record) (report report' : RecoveryReport)
    (memory memory' : Memory) (t t' : Trace (role p)) : Prop where
  /-- Only decisions have been carried out. -/
  resolving : ∃ entries, Resolving p t t' entries
  /-- What is not prepared any more is resolved. -/
  resolved : report'.resolved.map Prod.fst = report.resolved.map Prod.fst ++
    (records.map Record.transaction).filter fun tx =>
      Log.lastState? t'.own p tx ≠ some .prepared
  /-- The rest is blocked. -/
  blocked : report'.blocked = report.blocked ++
    (records.map Record.transaction).filter fun tx => Log.lastState? t'.own p tx = some .prepared
  /-- The coordinator has told the decision, and the last entry says so. -/
  told : ∀ tx d, (tx, d) ∈ report'.resolved → (tx, d) ∈ report.resolved ∨
    ∃ r ∈ records, r.transaction = tx ∧
      (∃ coordinator, r.coordinator = some coordinator ∧
        .answered (.inr (.askDecision coordinator tx)) (.ok (some d)) ∈ t'.events) ∧
      Log.lastState? t'.own p tx = some (ParticipantState.resolved d).toState
  /-- Memory has each transaction as the log has it. -/
  copies : ∀ r ∈ records, ∃ r', memory'.get? r.transaction = some r' ∧
    Log.lastState? t'.own p r.transaction = some r'.state.toState
  /-- All else is as it was. -/
  others : ∀ tx, (∀ r ∈ records, r.transaction ≠ tx) →
    memory'.get? tx = memory.get? tx ∧ Log.history t'.own p tx = Log.history t.own p tx

variable {report report₁ report' : RecoveryReport}

/-- The last entry of what is held says that it is prepared. -/
theorem Holding.lastState? {log : List Entry} (h : Holding self log r payload) :
    Log.lastState? log self r.transaction = some .prepared := by
  rw [Sees.lastState? h.sees, h.prepared]
  rfl

theorem Accounts.refl (report : RecoveryReport) (memory : Memory) (t : Trace (role self)) :
    Accounts self [] report report memory memory t t where
  resolving := ⟨[], .refl t⟩
  resolved := by simp
  blocked := by simp
  told _ _ listed := .inl listed
  copies := by simp
  others _ _ := ⟨rfl, rfl⟩

/-- What has been said of some transactions remains true while others are resolved. -/
theorem Accounts.trans {records' : List Record}
    (h : Accounts self records report report₁ memory memory₁ t t₁)
    (h' : Accounts self records' report₁ report' memory₁ memory' t₁ t')
    (disjoint : ∀ r ∈ records, ∀ r' ∈ records', r'.transaction ≠ r.transaction) :
    Accounts self (records ++ records') report report' memory memory' t t' := by
  have later : ∀ tx ∈ records.map Record.transaction,
      Log.lastState? t'.own self tx = Log.lastState? t₁.own self tx := by
    intro tx listed
    obtain ⟨r, hr, rfl⟩ := List.mem_map.1 listed
    rw [Log.lastState?, (h'.others _ (disjoint r hr)).2, Log.lastState?]
  obtain ⟨entries, resolving⟩ := h.resolving
  obtain ⟨entries', resolving'⟩ := h'.resolving
  constructor
  · exact ⟨_, resolving.trans resolving'⟩
  · rw [h'.resolved, h.resolved, List.map_append, List.filter_append, List.append_assoc]
    congr 2
    exact List.filter_congr fun tx listed => by rw [later tx listed]
  · rw [h'.blocked, h.blocked, List.map_append, List.filter_append, List.append_assoc]
    congr 2
    exact List.filter_congr fun tx listed => by rw [later tx listed]
  · intro tx d listed
    rcases h'.told tx d listed with earlier | ⟨r, hr, told⟩
    · rcases h.told tx d earlier with first | ⟨r, hr, rfl, ⟨coordinator, named, answered⟩, last⟩
      · exact .inl first
      · obtain ⟨dealt, adds, -⟩ := resolving'
        refine .inr ⟨r, List.mem_append_left _ hr, rfl, ⟨coordinator, named, ?_⟩, ?_⟩
        · exact adds.events.subset answered
        · rw [later _ (List.mem_map_of_mem hr), last]
    · exact .inr ⟨r, List.mem_append_right _ hr, told⟩
  · intro r hr
    rcases List.mem_append.1 hr with hr | hr
    · rw [(h'.others _ (disjoint r hr)).1, later _ (List.mem_map_of_mem hr)]
      exact h.copies r hr
    · exact h'.copies r hr
  · intro tx other
    obtain ⟨copy, history⟩ := h.others tx fun r hr => other r (List.mem_append_left _ hr)
    obtain ⟨copy', history'⟩ := h'.others tx fun r hr => other r (List.mem_append_right _ hr)
    exact ⟨copy'.trans copy, history'.trans history⟩

/-- A transaction has been resolved. -/
theorem Accounts.resolve {coordinator : ProcessId} {d : Decision} {e : Entry}
    (named : r.coordinator = some coordinator) (actor : e.actor = self)
    (takes : e.Takes r.transaction .prepared (.resolved d) (.resolved d))
    (adds : Resolving self t t' [e])
    (told : .answered (.inr (.askDecision coordinator r.transaction)) (.ok (some d)) ∈ t'.events) :
    Accounts self [r] report { report with resolved := report.resolved ++ [(r.transaction, d)] }
      memory (memory.insert r.transaction { r with state := .resolved d }) t t' := by
  have own : t'.own = t.own ++ [e] := by
    obtain ⟨dealt, adds, -⟩ := adds
    exact adds.own
  have last : Log.lastState? t'.own self r.transaction =
      some (ParticipantState.resolved d).toState := by
    simp [Log.lastState?, own, Log.history_append_own t.own actor takes.transaction, takes.state]
  have differs : (ParticipantState.resolved d).toState ≠ .prepared := by
    cases d <;> simp [ParticipantState.resolved, ParticipantState.toState]
  constructor
  · exact ⟨[e], adds⟩
  · simp [last, differs]
  · simp [last, differs]
  · intro tx d' listed
    rcases List.mem_append.1 listed with earlier | new
    · exact .inl earlier
    · cases List.mem_singleton.1 new
      exact .inr ⟨r, .head _, rfl, ⟨coordinator, named, told⟩, last⟩
  · simpa using last
  · intro tx other
    have ne : r.transaction ≠ tx := other r (.head _)
    rw [SortedMap.get?_insert, if_neg ne.symm, own]
    refine ⟨rfl, Log.history_append_other t.own fun _ about => ?_⟩
    exact ne (takes.transaction.symm.trans about)

/-- A transaction is still blocked. -/
theorem Accounts.block (ready : Ready self t.own memory r) (adds : Resolving self t t' []) :
    Accounts self [r] report { report with blocked := report.blocked ++ [r.transaction] }
      memory memory t t' := by
  have own : t'.own = t.own := by
    obtain ⟨dealt, adds, -⟩ := adds
    rw [adds.own, List.append_nil]
  obtain ⟨cached, payload, holding⟩ := ready
  have last : Log.lastState? t'.own self r.transaction = some .prepared := by
    rw [own]
    exact holding.lastState?
  constructor
  · exact ⟨[], adds⟩
  · simp [last]
  · simp [last]
  · exact fun tx d listed => .inl listed
  · have state : r.state.toState = .prepared := by rw [holding.prepared]; rfl
    simp [cached, last, state]
  · exact fun tx other => ⟨rfl, by rw [own]⟩

theorem undisturbed_resolveAll {ok : RecoveryReport → Memory → Trace (role self) → Prop}
    {err : RecoveryError → Memory → Trace (role self) → Prop}
    (distinct : records.Pairwise fun r r' => r.transaction ≠ r'.transaction)
    (ready : ∀ r ∈ records, Ready self t.own memory r)
    (resolved : ∀ report' memory' t', Accounts self records report report' memory memory' t t' →
      ok report' memory' t')
    (failed : ∀ failure memory' t', err failure memory' t') :
    (records.foldlM (resolve self) report).Meets (role self).undisturbed ok err memory t := by
  induction records generalizing report memory t with
  | nil => exact resolved report memory t (.refl report memory t)
  | cons r rest ih =>
    obtain ⟨different, distinct⟩ := List.pairwise_cons.1 distinct
    -- whatever has become of the first, the rest is as it was
    have goesOn : ∀ report₁ memory₁ t₁, Accounts self [r] report report₁ memory memory₁ t t₁ →
        (rest.foldlM (resolve self) report₁).Meets (role self).undisturbed ok err memory₁ t₁ := by
      intro report₁ memory₁ t₁ accounts
      refine ih distinct ?_ fun report' memory' t' h => resolved report' memory' t' ?_
      · intro r' hr'
        obtain ⟨copy, history⟩ := accounts.others r'.transaction (by simpa using different r' hr')
        obtain ⟨cached, payload, holding⟩ := ready r' (.tail _ hr')
        exact ⟨copy.trans cached, payload, holding.sees.of_history history, holding.prepared,
          holding.payload⟩
      · exact accounts.trans h fun r₁ hr₁ r' hr' =>
          List.mem_singleton.1 hr₁ ▸ (different r' hr').symm
    obtain ⟨cached, payload, holding⟩ := ready r (.head _)
    obtain ⟨coordinator, named, -⟩ := holding.named
    rw [List.foldlM_cons, Action.meets_bind]
    refine undisturbed_resolve named cached holding.prepared holding.payload ?_ ?_ failed
    · exact fun d e t₁ actor takes adds told =>
        goesOn _ _ t₁ (.resolve named actor takes adds told)
    · exact fun t₁ adds => goesOn _ memory t₁ (.block (ready r (.head _)) adds)

/-! ## The whole recovery -/

/-- A recovery that is left alone and succeeds has put everything that was found back into memory
and has then accounted for it. -/
theorem undisturbed_recover {ok : RecoveryReport → Memory → Trace (role self) → Prop}
    {err : RecoveryError → Memory → Trace (role self) → Prop}
    (kept : ∀ tx, Kept tx (Log.history t.own self tx) (memory.get? tx))
    (recovered : ∀ records report memory₁ memory' t₁ t',
      records.map Record.transaction = Log.unfinished t.own self →
      (∀ r ∈ records, ∃ payload, Holding self t.own r payload) →
      Restores self records memory memory₁ t t₁ →
      Accounts self records {} report memory₁ memory' t₁ t' → ok report memory' t')
    (failed : ∀ failure memory' t', err failure memory' t') :
    (recover self).Meets (role self).undisturbed ok err memory t := by
  refine meets_recover_of (meets_scan_undisturbed ?_ fun _ => failed _ _ _)
  have scanned := Adds.tell t (.inl (.scan self)) (.ok (Log.scanIncomplete t.own self))
  generalize t.tell (.inl (.scan self)) (.ok (Log.scanIncomplete t.own self)) = t₀ at scanned ⊢
  refine ⟨fun _ _ => failed _ _ _, fun records replayed => ?_⟩
  obtain ⟨all, holding⟩ := found_of_scan (fun tx => Kept.sees (kept tx)) replayed
  have distinct : records.Pairwise fun r r' => r.transaction ≠ r'.transaction := by
    rw [← List.pairwise_map, ← List.Nodup, all]
    exact Log.nodup_transactions _
  refine undisturbed_restoreAll distinct ?_ ?_ ?_ failed
  · intro r hr
    obtain ⟨payload, holding⟩ := holding r hr
    exact ⟨holding.prepared, payload, holding.payload⟩
  · intro r hr r' cached
    obtain ⟨payload, holding⟩ := holding r hr
    exact holding.sees.unique (Kept.history (kept r.transaction) cached)
  · intro memory₁ t₁ restores
    obtain ⟨given, adds, gives⟩ := restores.given
    have own : t₁.own = t.own := by rw [adds.own, scanned.own]; simp
    refine undisturbed_resolveAll distinct ?_ ?_ failed
    · intro r hr
      rw [own]
      exact ⟨restores.copies r hr, holding r hr⟩
    · intro report memory' t' accounts
      refine recovered records report memory₁ memory' t₁ t' ?_ holding ?_ accounts
      · rw [all, Log.transactions_scanIncomplete]
      · exact ⟨restores.copies, restores.others, _, scanned.trans adds, gives⟩

end AtomicCommit.Participant
