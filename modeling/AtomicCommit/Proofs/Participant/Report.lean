import AtomicCommit.Proofs.Participant.Recovering
import AtomicCommit.Proofs.Participant.Resources
import AtomicCommit.Proofs.Participant.Retention

/-!
# What the recovery of a participant comes to

A recovery that succeeds has resolved or reported every transaction that the log showed as prepared.
It resolves only what the coordinator that the log names has told it, and leaves the rest prepared
and blocked. What is not in memory it has the resource manager take hold of, before it carries out
any decision; from then on until a restart nothing is to be taken hold of again.

Recovery runs before a restarted node accepts new work. Nothing is presupposed of what the
participant has been through before it, and all answers are as they may be, but while it runs
nobody else changes the memory or writes entries of the participant.

## Main definitions

* `Participant.awaiting`, `Participant.due`: what is prepared, and what of it is not in memory.
* `Participant.RecoveryReport.Tells`: what a report says of the participant before and after.

## Main results

* `Participant.recovery_resolves_or_reports`: what a recovery comes to.
-/

namespace AtomicCommit.Participant

/-- The transactions that a log shows as prepared by a participant, in the order in which it wrote
of them first. -/
def awaiting (p : ProcessId) (log : List Entry) : List TransactionId :=
  (Log.transactions (Log.own log p)).filter fun tx => Log.lastState? log p tx = some .prepared

/-- Those that are prepared and not in memory. -/
def due (p : ProcessId) (n : Node (role p)) : List TransactionId :=
  (awaiting p n.log).filter fun tx => !n.memory.contains tx

/-- All that a log has of a transaction is that it has been prepared, with a payload, for a
coordinator. -/
def Awaits (p : ProcessId) (log : List Entry) (tx : TransactionId) (coordinator : ProcessId)
    (payload : PreparedPayload) : Prop :=
  ∃ e, Log.history log p tx = [e] ∧ e.state = .prepared ∧ e.payload = .prepared coordinator payload

/-- The payload of a prepared transaction was given back to the resource manager. -/
def GivenBack (p : ProcessId) (log : List Entry) (tx : TransactionId)
    (dealing : Dealing × PreparedPayload) : Prop :=
  dealing.1 = .reacquired ∧ ∃ coordinator, Awaits p log tx coordinator dealing.2

/-- What a report says of a participant before and after a recovery. -/
structure RecoveryReport.Tells (report : RecoveryReport) (p : ProcessId) (call : ℕ)
    (n n' : Node (role p)) : Prop where
  /-- What is not prepared any more is resolved, in the order of the log. -/
  resolved : report.resolved.map Prod.fst =
    (awaiting p n.log).filter fun tx => Log.lastState? n'.log p tx ≠ some .prepared
  /-- What is still prepared is blocked, in the order of the log. -/
  blocked : report.blocked =
    (awaiting p n.log).filter fun tx => Log.lastState? n'.log p tx = some .prepared
  /-- What is resolved is so by the decision that the coordinator of the transaction has told. -/
  told : ∀ tx d, (tx, d) ∈ report.resolved → ∃ coordinator payload,
    Awaits p n.log tx coordinator payload ∧
    (∃ log, ⟨call, .answered (.inr (.askDecision coordinator tx)) (.ok (some d)), log⟩ ∈ n'.past) ∧
    Log.lastState? n'.log p tx = some (ParticipantState.resolved d).toState
  /-- The participant waits for the decisions on what is blocked, and on nothing else. -/
  waits : Participant.blocked n'.memory = (SortedSet.ofList report.blocked).toList
  /-- What was not in memory was given back to the resource manager, each once, in the order of the
  log, before anything was committed or aborted. -/
  given : ∃ given carried, dealings p n'.past call = given ++ carried ∧
    List.Forall₂ (GivenBack p n.log) (due p n) given ∧ ∀ dealing ∈ carried, CarriesOut dealing

variable {self : ProcessId} {call : ℕ} {log : List Entry} {tx : TransactionId}
  {n n' n₁ : Node (role self)} {report : RecoveryReport}

/-! ## What is prepared -/

theorem mem_awaiting_iff :
    tx ∈ awaiting self log ↔ Log.lastState? log self tx = some .prepared := by
  simp only [awaiting, List.mem_filter, decide_eq_true_eq, and_iff_right_iff_imp]
  intro prepared
  rw [Log.mem_transactions_iff, Log.load_own]
  intro empty
  simp [Log.lastState?, empty] at prepared

theorem nodup_awaiting (log : List Entry) : (awaiting self log).Nodup :=
  (Log.nodup_transactions _).filter _

/-- What is unfinished is prepared. -/
theorem unfinished_eq_awaiting (holds : (discipline self).Holds n) :
    Log.unfinished n.log self = awaiting self n.log := by
  rw [Log.unfinished_eq_filter, awaiting]
  refine List.filter_congr fun tx _ => ?_
  cases holds.kept tx with
  | unknown empty _ =>
    have empty : Log.history n.log self tx = [] := empty
    simp [Log.isIncomplete, Log.lastState?, empty]
  | @known r history _ =>
    rw [Log.isIncomplete, Log.lastState?, history.last]
    rcases history.prepared_or_resolved with prepared | ⟨d, resolved⟩
    · simp [prepared, ParticipantState.toState, State.isTerminal]
    · cases d <;> simp [resolved, ParticipantState.resolved, ParticipantState.toState,
        State.isTerminal]

theorem Holding.awaits {r : Record} {payload : PreparedPayload} (h : Holding self log r payload)
    {coordinator : ProcessId} (named : r.coordinator = some coordinator) :
    Awaits self log r.transaction coordinator payload := by
  obtain ⟨e, coordinator', only, prepared, carried⟩ := h.history
  have same : r.coordinator = some coordinator' :=
    h.sees.coordinator_of_prepared h.prepared (only ▸ List.mem_singleton_self e) carried
  obtain rfl : coordinator = coordinator' := Option.some.inj (named.symm.trans same)
  exact ⟨e, only, prepared, carried⟩

/-- What is blocked is in memory and prepared. -/
theorem mem_blocked_iff {memory : Memory} :
    tx ∈ Participant.blocked memory ↔ ∃ r, memory.get? tx = some r ∧ r.state = .prepared := by
  simp [Participant.blocked, SortedMap.mem_entries_iff]

theorem ascending_blocked (memory : Memory) :
    (Participant.blocked memory).Pairwise fun a b => compare a b = .lt :=
  List.pairwise_map.2 (memory.ascending.filter _)

/-! ## A recovery that is left alone -/

/-- What a recovery has done when it has succeeded: what it has found prepared it has put back into
memory, and has then accounted for. -/
structure Recovers (p : ProcessId) (n n' : Node (role p)) (report : RecoveryReport)
    (records : List Record) (memory : Memory) (t t₁ t' : Trace (role p)) : Prop where
  /-- What was prepared was found. -/
  found : records.map Record.transaction = awaiting p n.log
  /-- The log has held it. -/
  holding : ∀ r ∈ records, ∃ payload, Holding p n.log r payload
  /-- It was put back. -/
  restores : Restores p records n.memory memory t t₁
  /-- It is accounted for. -/
  accounts : Accounts p records {} report memory n'.memory t₁ t'
  /-- These were the entries of the participant. -/
  before : t.own = Log.own n.log p
  /-- These are its entries now. -/
  after : t'.own = Log.own n'.log p

/-- A recovery that succeeds and was left alone has done so. -/
theorem exists_recovers (h : Reachable self n)
    (started : n.Reacts (Allows self n) (.started call .recover) n₁)
    (alone : Relation.ReflTransGen (Node.Undisturbed (Allows self) call) n₁ n')
    (returned : ⟨call, .returned .recover (.ok report), log⟩ ∈ n'.past) :
    ∃ records memory t t₁ t', Recovers self n n' report records memory t t₁ t' ∧
      t.events = [.started .recover] ∧
      n'.eventsOf call = t'.events ++ [.returned .recover (.ok report)] := by
  have kept : ∀ tx, Kept tx (Log.history (Log.own n.log self) self tx) (n.memory.get? tx) := by
    intro tx
    rw [Log.history_own]
    exact h.holds.kept tx
  have meets : ((role self).program .recover n.memory).Meets (role self).undisturbed
      (fun outcome t' => ∀ report, outcome.1 = .ok report → ∃ records memory t₁,
        records.map Record.transaction = Log.unfinished (Log.own n.log self) self ∧
        (∀ r ∈ records, ∃ payload, Holding self (Log.own n.log self) r payload) ∧
        Restores self records n.memory memory ⟨Log.own n.log self, [.started .recover]⟩ t₁ ∧
        Accounts self records {} report memory outcome.2 t₁ t')
      ⟨Log.own n.log self, [.started .recover]⟩ := by
    refine Action.Meets.program (undisturbed_recover kept ?_ fun _ _ _ _ => nofun)
    rintro records report memory memory' t₁ t' all holding restores accounts _ ⟨⟩
    exact ⟨records, memory, t₁, all, holding, restores, accounts⟩
  obtain ⟨t', own, events, post⟩ :=
    ((Node.performs_start started meets).run alone).returned returned
  obtain ⟨records, memory, t₁, all, holding, restores, accounts⟩ := post report rfl
  refine ⟨records, memory, _, t₁, t', ⟨?_, ?_, restores, accounts, rfl, own.symm⟩, rfl, events⟩
  · rw [all, ← unfinished_eq_awaiting h.holds, ← Log.transactions_scanIncomplete,
      Log.scanIncomplete_own, Log.transactions_scanIncomplete]
  · intro r hr
    obtain ⟨payload, holding⟩ := holding r hr
    exact ⟨payload, holding.sees.of_history (Log.history_own ..).symm, holding.prepared,
      holding.payload⟩

namespace Recovers

variable {records : List Record} {memory : Memory} {t t₁ t' : Trace (role self)}

theorem lastState? (h : Recovers self n n' report records memory t t₁ t') (tx : TransactionId) :
    Log.lastState? t'.own self tx = Log.lastState? n'.log self tx := by
  rw [h.after, Log.lastState?_own]

/-- Nothing is prepared that was not prepared before. -/
theorem mem_awaiting (h : Recovers self n n' report records memory t t₁ t')
    (prepared : Log.lastState? n'.log self tx = some .prepared) : tx ∈ awaiting self n.log := by
  by_contra unlisted
  have other : ∀ r ∈ records, r.transaction ≠ tx := by
    rintro r hr rfl
    exact unlisted (h.found ▸ List.mem_map_of_mem hr)
  obtain ⟨given, adds, -⟩ := h.restores.given
  have same : Log.history n'.log self tx = Log.history n.log self tx := by
    rw [← Log.history_own, ← h.after, (h.accounts.others tx other).2, adds.own, List.append_nil,
      h.before, Log.history_own]
  rw [Log.lastState?, same] at prepared
  exact unlisted (mem_awaiting_iff.2 prepared)

/-- What is still prepared is in memory. -/
theorem exists_copy (h : Recovers self n n' report records memory t t₁ t')
    (prepared : Log.lastState? n'.log self tx = some .prepared) :
    ∃ r, n'.memory.get? tx = some r ∧ r.state = .prepared := by
  have listed := h.mem_awaiting prepared
  rw [← h.found] at listed
  obtain ⟨r, hr, rfl⟩ := List.mem_map.1 listed
  obtain ⟨r', cached, last⟩ := h.accounts.copies r hr
  rw [h.lastState?, prepared, Option.some.injEq] at last
  exact ⟨r', cached, ParticipantState.toState_injective last.symm⟩

/-- What is reported is so. -/
theorem tells (h : Recovers self n n' report records memory t t₁ t')
    (holds : (discipline self).Holds n') (starts : t.events = [.started .recover])
    (ends : n'.eventsOf call = t'.events ++ [.returned .recover (.ok report)]) :
    report.Tells self call n n' := by
  have blocked : report.blocked = (awaiting self n.log).filter
      fun tx => Log.lastState? n'.log self tx = some .prepared := by
    rw [h.accounts.blocked, h.found]
    simp only [h.lastState?]
    rfl
  refine ⟨?_, blocked, ?_, ?_, ?_⟩
  · rw [h.accounts.resolved, h.found]
    simp only [h.lastState?]
    rfl
  · intro tx d listed
    rcases h.accounts.told tx d listed with none | ⟨r, hr, rfl, ⟨coordinator, named, told⟩, last⟩
    · cases none
    · obtain ⟨payload, holding⟩ := h.holding r hr
      have noted : .answered (.inr (.askDecision coordinator r.transaction)) (.ok (some d)) ∈
          n'.eventsOf call := ends ▸ List.mem_append_left _ told
      exact ⟨coordinator, payload, holding.awaits named, mem_events_iff.1 noted,
        h.lastState? _ ▸ last⟩
  · refine SortedSet.eq_toList (ascending_blocked _) fun tx => ?_
    rw [mem_blocked_iff, SortedSet.contains_ofList, blocked, List.mem_filter, decide_eq_true_iff]
    constructor
    · rintro ⟨r, cached, prepared⟩
      have last := Kept.lastState? (holds.kept tx) cached
      rw [prepared] at last
      exact ⟨h.mem_awaiting last, last⟩
    · exact fun ⟨_, prepared⟩ => h.exists_copy prepared
  · obtain ⟨given, adds, gives⟩ := h.restores.given
    obtain ⟨entries, carried, adds', carries⟩ := h.accounts.resolving
    refine ⟨given, carried, ?_, ?_, carries⟩
    · have all : dealings self n'.past call = (n'.eventsOf call).filterMap (dealing? self) := by
        rw [Node.eventsOf, List.filterMap_map]
        rfl
      have first : dealing? self (.started .recover) = none := rfl
      have last : dealing? self (.returned .recover (.ok report : Operation.recover.Result)) =
        none := rfl
      rw [all, ends, List.filterMap_append, adds'.dealt, adds.dealt, starts]
      simp [first, last]
    · have missing : due self n =
          (records.filter fun r => !n.memory.contains r.transaction).map Record.transaction := by
        rw [due, ← h.found, List.filter_map]
        rfl
      rw [missing, List.forall₂_map_left_iff]
      have held : ∀ r ∈ records.filter fun r => !n.memory.contains r.transaction,
          ∃ payload, Holding self n.log r payload :=
        fun r hr => h.holding r (List.mem_filter.1 hr).1
      refine ((List.forall₂_and_left _ _).2 ⟨held, gives⟩).imp fun r dealing => ?_
      rintro ⟨⟨payload, holding⟩, reacquired, passed⟩
      obtain rfl : payload = dealing.2 := Option.some.inj (holding.payload.symm.trans passed)
      obtain ⟨coordinator, named, -⟩ := holding.named
      exact ⟨reacquired, coordinator, holding.awaits named⟩

end Recovers

theorem RecoveryReport.Tells.perm (h : report.Tells self call n n') :
    (report.resolved.map Prod.fst ++ report.blocked).Perm (awaiting self n.log) := by
  have rest : report.blocked = (awaiting self n.log).filter
      fun tx => !Decidable.decide (Log.lastState? n'.log self tx ≠ some .prepared) := by
    rw [h.blocked]
    exact List.filter_congr fun tx _ => by simp
  rw [h.resolved, rest]
  exact List.filter_append_perm _ _

/-- A recovery that succeeds is complete and has decided nothing by itself, whatever it has been
answered and whatever the participant has been through. What is resolved and what is blocked are the
transactions that the log showed as prepared at the start, each once, each list in the order in
which the participant wrote of them first. What is resolved is so by the decision that the
coordinator named in the log has told, and the last entry says so; what is blocked is still
prepared, and the participant waits for the decisions on just that. What was prepared and not in
memory was given back to the resource manager, each once, before anything was committed or aborted.
It had not been in memory since the last restart; and until the next one, whatever happens, nothing
is prepared that would have to be given back. In what the participant has been through and comes to,
what a recovery has found in the log is assumed to be left to it until it asks for the first
decision (`recoveryLocks`). -/
theorem recovery_resolves_or_reports (h : Reachable self n)
    (started : n.Reacts (Allows self n) (.started call .recover) n₁)
    (alone : Relation.ReflTransGen (Node.Undisturbed (Allows self) call) n₁ n')
    (returned : ⟨call, .returned .recover (.ok report), log⟩ ∈ n'.past) :
    report.Tells self call n n' ∧
    (awaiting self n.log).Nodup ∧
    (report.resolved.map Prod.fst ++ report.blocked).Perm (awaiting self n.log) ∧
    (∀ n₀, Reachable self n₀ → Lives self n₀ n → ∀ tx ∈ due self n,
      n₀.memory.contains tx = false) ∧
    ∀ n'', Lives self n' n'' → due self n'' = [] := by
  have reachable : Reachable self n' := by
    clear returned
    induction alone with
    | refl => exact h.step started.step
    | tail _ step ih => exact ih.step step.step
  obtain ⟨records, memory, t, t₁, t', recovers, starts, ends⟩ :=
    exists_recovers h started alone returned
  have tells := recovers.tells reachable.holds starts ends
  refine ⟨tells, nodup_awaiting n.log, tells.perm, ?_, ?_⟩
  · intro n₀ h₀ lives tx listed
    obtain ⟨prepared, missing⟩ := List.mem_filter.1 listed
    by_contra there
    have kept := Lives.keeps h₀ lives (mem_awaiting_iff.1 prepared) (.inr (by simpa using there))
    simp [kept] at missing
  · intro n'' lives
    refine List.filter_eq_nil_iff.2 fun tx listed => ?_
    have prepared := mem_awaiting_iff.1 listed
    have kept := Lives.keeps reachable lives prepared ?_
    · simp [kept]
    · by_cases unknown : Log.history n'.log self tx = []
      · exact .inl unknown
      · have before := prepared_of_prefix (reachable.lives lives).holds (Lives.grows lives) unknown
          prepared
        obtain ⟨r, cached, -⟩ := recovers.exists_copy before
        exact .inr (SortedMap.contains_iff.2 ⟨r, cached⟩)

/-! ## One decision that is told, and one that is not -/

section Tells

/-- Another transaction. -/
abbrev offer : PrepareMessage := ⟨⟨2⟩, ⟨"c"⟩, []⟩

/-- The coordinator tells one decision, and can not be reached for the other. -/
def telling : Node.Outside (role cohort)
  | .askDecision coordinator tx =>
    if tx = proposal.transaction then some (.ok (some .commit))
    else some (.error (.unreachable coordinator))
  | q => willing cohort q

/-- One transaction was prepared before a restart, the other after it. -/
def awaitingRun : Node (role cohort) :=
  Node.begins { outside := willing cohort } { log := votedRun.log, past := votedRun.past } 1
    (.handlePrepare offer)

/-- The participant has recovered. -/
def recoveredRun : Node (role cohort) :=
  awaitingRun.begins { outside := telling } 2 .recover

theorem attains_telling : Node.Attains (Reachable cohort) (Allows cohort) telling where
  step := attains.step
  host := attains.host
  outside _ _ _ _ _ _ alone _ := allows_of_alone alone

theorem alone_restarted (n : Node (role cohort)) (call : ℕ) :
    ({ log := n.log, past := n.past } : Node (role cohort)).Alone call := fun _ _ => rfl

theorem reachable_awaitingRun : Reachable cohort awaitingRun :=
  begins_of_rested attains (reachable_votedRun.step .restart) rested_votedRun.restart

/-- Of two transactions that are prepared one is not in memory and is given back. One is resolved as
the coordinator has told, the other stays blocked, and neither is ever given back again. -/
theorem recovery_resolves_or_reports_recoveredRun :
    Reachable cohort awaitingRun ∧ awaiting cohort awaitingRun.log = [⟨1⟩, ⟨2⟩] ∧
    due cohort awaitingRun = [⟨1⟩] ∧
    RecoveryReport.Tells ⟨[(⟨1⟩, .commit)], [⟨2⟩]⟩ cohort 2 awaitingRun recoveredRun ∧
    ∀ n'', Lives cohort recoveredRun n'' → due cohort n'' = [] := by
  have alone : awaitingRun.Alone 2 :=
    (Node.alone_begins (alone_restarted votedRun 1)).of_ended (by decide +kernel)
  have new : ∀ m ∈ awaitingRun.past, m.call ≠ 2 := by decide +kernel
  have started : awaitingRun.Reacts (Allows cohort awaitingRun) (.started 2 .recover)
      (awaitingRun.opens 2 .recover) := .start new (allows_of_alone alone)
  have undisturbed : Relation.ReflTransGen (Node.Undisturbed (Allows cohort) 2)
      (awaitingRun.opens 2 .recover) recoveredRun :=
    Node.Attains.undisturbed { outside := telling } attains_telling alone
  have returned : recoveredRun.past.getLast? =
      some ⟨2, .returned .recover (.ok ⟨[(⟨1⟩, .commit)], [⟨2⟩]⟩), recoveredRun.log⟩ := by rfl
  obtain ⟨tells, -, -, -, rest⟩ := recovery_resolves_or_reports reachable_awaitingRun started
    undisturbed (List.mem_of_getLast? returned)
  exact ⟨reachable_awaitingRun, by decide +kernel, by decide +kernel, tells, rest⟩

end Tells

end AtomicCommit.Participant
