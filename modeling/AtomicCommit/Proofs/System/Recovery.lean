import AtomicCommit.Proofs.Coordinator.Backoff
import AtomicCommit.Proofs.Coordinator.Convergence
import AtomicCommit.Proofs.Participant.Acknowledgement
import AtomicCommit.Proofs.System.Backing

/-!
# Recovery converges

Whatever state a system has come to, once nothing fails any more and whoever is told a decision says
what came of it, a single recovery of the coordinator finishes everything that was ever begun.
Before that anything may have been lost: replies, entries, and all that the processes had in memory.

## Main definitions

* `System.Continues`: an endless run of a system.
* `System.Favourable`: nothing fails in a run for calls that start in it.

## Main results

* `System.recovery_converges`: a recovery ends well, everything is finished after it, and the next
  one finds nothing to do.
-/

namespace AtomicCommit.System

open Participant (obedience)

variable {c : Coordinator}

/-! ## Runs in which nothing fails -/

/-- A run in which something or nothing happens at every point in time. -/
def Continues (run : ℕ → System c) : Prop :=
  ∀ i, run (i + 1) = run i ∨ Step (run i) (run (i + 1))

/-- In a run a participant comes to say whether it has carried out a decision that it is told: a
call that starts in the run ends so. -/
def Reports (run : ℕ → System c) (message : DecisionMessage) (p : ProcessId)
    (result : Except TransportError Unit) : Prop :=
  ∃ i call outcome log, ((run 0).participants p).Unstarted call ∧
    ⟨call, .returned (.handleDecision message.transaction message.decision) outcome, log⟩ ∈
      ((run i).participants p).past ∧ result.isOk = outcome.isOk

/-- Nothing fails in a run for calls that start in it: entries are stored, logs are read, resource
managers carry out what has been decided, the times up to which the coordinator awaits votes and
acknowledgements can be represented, so that its timeouts fit its clocks, and whoever is told a
decision says what came of it. -/
structure Favourable (run : ℕ → System c) : Prop where
  /-- At the coordinator. -/
  coordinator : ∀ i, ∀ m ∈ (run i).coordinator.past, (run 0).coordinator.Unstarted m.call →
    m.Hears (c.Good (Reports run))
  /-- At the participants. -/
  participants : ∀ i p, ∀ m ∈ ((run i).participants p).past,
    ((run 0).participants p).Unstarted m.call → m.Hears (Participant.Good p)

variable {run : ℕ → System c} {s : System c} {i : ℕ} {p : ProcessId} {tx : TransactionId}

theorem Continues.leads (h : Continues run) {j : ℕ} (le : i ≤ j) : Leads (run i) (run j) := by
  induction j, le using Nat.le_induction with
  | base => exact .refl
  | succ j _ ih =>
    rcases h j with same | step
    · rwa [same]
    · exact ih.tail step

/-- The run of the coordinator. -/
theorem Continues.coordinator (h : Continues run) :
    Node.Continues (fun i => (run i).CoordinatorAllows) fun i => (run i).coordinator := by
  intro i
  dsimp only
  rcases h i with same | step
  · exact .inl (by rw [same])
  · generalize run (i + 1) = s at step
    cases step with
    | coordinator step => exact .inr step
    | participant _ => exact .inl rfl

theorem Continues.grows (h : Continues run) {j : ℕ} (le : i ≤ j) :
    (run i).coordinator.Grows (run j).coordinator.toScene :=
  Node.Continues.grows h.coordinator le

/-- The run of a participant. -/
theorem Continues.participant (h : Continues run) (p : ProcessId) :
    Node.Continues (fun i => (run i).ParticipantAllows p) fun i => (run i).participants p := by
  intro i
  dsimp only
  rcases h i with same | step
  · exact .inl (by rw [same])
  · generalize run (i + 1) = s at step
    cases step with
    | coordinator _ => exact .inl rfl
    | @participant q n step =>
      by_cases same : p = q
      · subst same
        dsimp only
        rw [Function.update_self]
        exact .inr step
      · exact .inl (Function.update_of_ne same ..)

/-! ## What comes to its end -/

/-- Nobody has resolved a transaction otherwise than it is told. -/
theorem Linked.agrees (linked : Linked s) {d : Decision}
    (sent : c.Sends s.coordinator.past p ⟨tx, d⟩) {r : Record}
    (known : Participant.Sees p (s.participants p).log tx (some r)) :
    r.state = .prepared ∨ r.state = .resolved d := by
  have sound := linked.coordinator.toSound
  obtain ⟨part, decided⟩ := sent.takesPart sound
  refine (Record.History.prepared_or_resolved known).imp_right ?_
  rintro ⟨d', resolved⟩
  rcases linked.decisionLogged_of_applied ⟨r, known, resolved⟩ with
    decided' | ⟨rfl, no, -⟩
  · have same : d' = d := decided.unique sound decided'
    exact same ▸ resolved
  · cases d with
    | abort => exact resolved
    | commit => cases no.unique (linked.yes_of_commit decided part)

/-- Every decision that is handled is acknowledged. -/
theorem Favourable.obedient (reachable : (run 0).Reachable) (continues : Continues run)
    (favourable : Favourable run) (i : ℕ) (p : ProcessId) :
    (Participant.discipline p).Prospers (obedience p)
      (fun call op => ((run 0).participants p).Unstarted call ∧ ∃ tx d, op = .handleDecision tx d)
      ((run i).participants p) := by
  induction i with
  | zero => exact .of_new (reachable.linked.participants p).holds fun _ _ covered => covered.1
  | succ i ih =>
    rcases continues.participant p i with same | step
    · dsimp only at same
      rw [same]
      exact ih
    · have linked := reachable.linked.leads (continues.leads i.zero_le)
      refine Participant.prospers_step (fun _ _ covered => covered.2)
        (linked.participants p).holds ih step.noted (fun _ _ h => h.1.toAllows) ?_ ?_
      · intro call tx d _ allowed r known
        exact linked.agrees (allowed.1.decision tx d rfl).sends known
      · exact fun call t a log _ covered h =>
          favourable.participants (i + 1) p _ h.2 covered.1 _ a rfl

/-- Every recovery finishes everything. -/
theorem Favourable.recovers (reachable : (run 0).Reachable) (continues : Continues run)
    (favourable : Favourable run) (attempts : c.config.retry.maxAttempts ≠ 0) (i : ℕ) :
    c.discipline.Prospers c.recovery
      (fun call op => (run 0).coordinator.Unstarted call ∧ op = .recover)
      (run i).coordinator := by
  induction i with
  | zero => exact .of_new reachable.linked.coordinator fun _ _ covered => covered.1
  | succ i ih =>
    rcases continues.coordinator i with same | step
    · dsimp only at same
      rw [same]
      exact ih
    · have linked := reachable.linked.leads (continues.leads i.zero_le)
      refine Coordinator.prospers_step attempts (fun _ _ covered => covered.2) linked.coordinator ih
        step.noted (fun _ _ h => h.1.toAllows) ?_
      intro call t a log _ covered h
      show c.Good (fun _ _ result => result = .ok ()) t.question a
      refine (favourable.coordinator (i + 1) _ h.2 covered.1 _ a rfl).mono ?_
      rintro message p result ⟨j, call, outcome, log, new, returned, same⟩
      obtain ⟨before, -, acknowledged⟩ :=
        (favourable.obedient reachable continues j p).ends _ _ _ _ returned ⟨new, _, _, rfl⟩
      have acknowledged : outcome = .ok () := acknowledged
      rw [acknowledged] at same
      cases result with
      | ok _ => rfl
      | error _ => cases same

/-! ## What is left behind -/

/-- Where nothing is unfinished everything is done, and everybody has resolved it as decided. -/
theorem Linked.settled_of_finished (linked : Linked s) (finished : c.Finished s.coordinator.log)
    (known : Log.history s.coordinator.log c.id tx ≠ []) :
    Log.lastState? s.coordinator.log c.id tx = some .done ∧
      (∃ d, c.DecisionLogged s.coordinator.log tx d ∧
        ∀ p, c.TakesPart s.coordinator.log tx p → Resolved p (s.participants p).log tx d) ∧
      ∀ p, Log.lastState? (s.participants p).log p tx ≠ some .prepared := by
  obtain ⟨t, rfl, logged⟩ := Coordinator.exists_logged linked.coordinator.toSound known
  have done : t.state = .done := by
    by_contra unfinished
    have incomplete := (Log.isIncomplete_iff_of_replay logged).2 unfinished
    rw [finished t.id] at incomplete
    cases incomplete
  have last := logged.summary.last
  have doneLogged := logged.done_iff.2 done
  obtain ⟨d, decided⟩ := linked.decided_of_done doneLogged
  have resolved : ∀ p, c.TakesPart s.coordinator.log t.id p →
      Resolved p (s.participants p).log t.id d :=
    fun p part => resolved_of_applied (linked.applied_of_done doneLogged part decided)
  refine ⟨by rw [Log.lastState?, last, done]; rfl, ⟨d, decided, resolved⟩, fun p prepared => ?_⟩
  by_cases part : c.TakesPart s.coordinator.log t.id p
  · rw [resolved p part] at prepared
    cases d <;> cases prepared
  · have nothing : Log.history (s.participants p).log p t.id = [] :=
      List.eq_nil_iff_forall_not_mem.2 fun e he => part (linked.takesPart_of_mem he)
    rw [Log.lastState?, nothing] at prepared
    cases prepared

/-- The coordinator stays idle until something that changes transactions starts. -/
theorem Continues.idle (continues : Continues run) (reachable : (run 0).Reachable) {k j : ℕ}
    (idle : c.Idle (run k).coordinator) (le : k ≤ j)
    (undriven : ∀ call op log, ⟨call, .started op, log⟩ ∈ (run j).coordinator.past →
      (run k).coordinator.Unstarted call → op.drives = false) : c.Idle (run j).coordinator := by
  induction j, le using Nat.le_induction with
  | base => exact idle
  | succ j le ih =>
    have linked := reachable.linked.leads (continues.leads j.zero_le)
    have idle := ih fun call op log started =>
      undriven call op log ((continues.grows j.le_succ).past.subset started)
    rcases continues.coordinator j with same | step
    · dsimp only at same
      rw [same]
      exact idle
    · exact idle.step linked.coordinator step fun call op log started new =>
        undriven call op log started (new.of_prefix (continues.grows le).past)

/-- From every state that a system can come to, if nothing fails from then on for calls that start,
and their timeouts, the one for acknowledgements like the one for votes, do not lead beyond what the
coordinator's clocks can tell, a recovery of the coordinator that is answered whenever it rests
returns without an error. Then every transaction in its log has come to DONE with a decision,
everyone who takes part has resolved it as decided, whether or not it was ever asked to prepare, and
nobody is left prepared; and a second recovery, if nothing has begun before it, reports nothing. Of
the recoveries of participants the runs assume what `Participant.recoveryLocks` says. -/
theorem recovery_converges {options : Config.Options} {call : ℕ} {log : List Entry}
    (built : Config.build options = .ok c.config) (reachable : (run 0).Reachable)
    (continues : Continues run) (favourable : Favourable run)
    (new : (run 0).coordinator.Unstarted call)
    (started : ⟨call, .started .recover, log⟩ ∈ (run i).coordinator.past)
    (attended : Node.Attended (fun i => (run i).coordinator) call) :
    ∃ k report,
      ⟨call, .returned .recover (.ok report), (run k).coordinator.log⟩ ∈
        (run k).coordinator.past ∧
      (∀ tx, Log.history (run k).coordinator.log c.id tx ≠ [] →
        Log.lastState? (run k).coordinator.log c.id tx = some .done ∧
        (∃ d, c.DecisionLogged (run k).coordinator.log tx d ∧
          ∀ p, c.TakesPart (run k).coordinator.log tx p →
            Resolved p ((run k).participants p).log tx d) ∧
        ∀ p, Log.lastState? ((run k).participants p).log p tx ≠ some .prepared) ∧
      ∀ j second log', (run k).coordinator.Unstarted second →
        ⟨second, .started .recover, log'⟩ ∈ (run j).coordinator.past →
        (∀ other op log'', ⟨other, .started op, log''⟩ ∈ (run j).coordinator.past →
          op.drives = true → (run k).coordinator.Unstarted other → other = second) →
        ∀ l result log'', ⟨second, .returned .recover result, log''⟩ ∈ (run l).coordinator.past →
          result = .ok {} := by
  have prospers := favourable.recovers reachable continues (Config.attempts_of_build built)
  have linked (i : ℕ) : Linked (run i) := reachable.linked.leads (continues.leads i.zero_le)
  have lives : ∀ k q log', ⟨call, .asked q, log'⟩ ∈ (run k).coordinator.past →
      c.role.restsAt q = true := by
    intro k q log' asked
    have started := (continues.grows (le_max_left i k)).past.subset started
    have asked := (continues.grows (le_max_right i k)).past.subset asked
    exact Coordinator.restsAt_of_asked (prospers (max i k)) ⟨new, rfl⟩ started asked
  obtain ⟨k, s, ⟨result, memory⟩, m, rfl, allowed, settled⟩ :=
    continues.coordinator.exists_end new attended lives started
  dsimp only at settled
  have logs : (run (k + 1)).coordinator.log = s.log := by rw [settled]; rfl
  have returned : ⟨m.call, .returned .recover result, s.log⟩ ∈ (run (k + 1)).coordinator.past := by
    rw [settled]
    exact List.mem_append_right _ (.head _)
  obtain ⟨-, log₁, -, started₁⟩ := (linked (k + 1)).coordinator.chronicle.returned returned
  obtain ⟨finished, report, rfl, -⟩ := Coordinator.recovered_of_returned
    (linked (k + 1)).coordinator.toSound (prospers (k + 1)) ⟨new, rfl⟩ started₁ returned
  have idle : c.Idle (run (k + 1)).coordinator := by
    rw [settled]
    exact Coordinator.idle_of_settle allowed.toAllows finished
  refine ⟨k + 1, report, logs ▸ returned, ?_, ?_⟩
  · exact fun tx known => (linked (k + 1)).settled_of_finished idle.finished known
  · intro j second log' new' started' alone l result log'' returned'
    obtain ⟨k', le, lt, rfl, starts⟩ := continues.coordinator.exists_start new' started'
    have idle' : c.Idle (run k').coordinator := by
      refine continues.idle reachable idle le fun other op log₂ started₂ unstarted => ?_
      by_contra drives
      obtain rfl := alone other op log₂ ((continues.grows lt.le).past.subset started₂)
        (by simpa using drives) unstarted
      exact starts.1 _ started₂ rfl
    have started' := (continues.grows (le_max_left j l)).past.subset started'
    have returned' := (continues.grows (le_max_right j l)).past.subset returned'
    have new' := new'.of_prefix (continues.grows (k + 1).zero_le).past
    obtain ⟨-, report, rfl, none⟩ := Coordinator.recovered_of_returned
      (linked (max j l)).coordinator.toSound (prospers (max j l)) ⟨new', rfl⟩ started' returned'
    rw [none idle'.finished]

/-! ## A recovery after a crash -/

section Crash

open Coordinator (deal party decidedRun)

/-- The coordinator has crashed after its decision, and its participant has not heard of it. -/
def crashedSystem : System default :=
  decidedSystem.withCoordinator { log := decidedRun.log, past := decidedRun.past }

/-- The coordinator recovers, and sends the decision again. -/
def recoveringRun : Node (default : Coordinator).role :=
  crashedSystem.coordinator.begins { outside := Coordinator.sending default } 1 .recover

/-- It hears that the participant has committed. -/
def recoveredRun : Node (default : Coordinator).role :=
  recoveringRun.resumes (Coordinator.acknowledging default ⟨deal, .commit⟩ party)
    { outside := Coordinator.sending default } 1

/-- It has sent the decision. -/
def recoveringSystem : System default :=
  crashedSystem.withCoordinator recoveringRun

/-- The participant has committed. -/
def obeyingSystem : System default :=
  recoveringSystem.withParticipant party committedRun

/-- The recovery has ended. -/
def recoveredSystem : System default :=
  obeyingSystem.withCoordinator recoveredRun

theorem reachable_crashedSystem : crashedSystem.Reachable :=
  reachable_decidedSystem.tail (.coordinator .restart)

theorem leads_recoveredSystem : Leads crashedSystem recoveredSystem := by
  have alone : crashedSystem.coordinator.Alone 1 := fun _ _ => rfl
  have recovering : Leads crashedSystem recoveringSystem := by
    refine (attains_coordinator crashedSystem).begins { outside := Coordinator.sending default }
      .refl alone (by decide +kernel) ?_
    exact { toAllows := Coordinator.allows_of_alone alone nofun
            called := nofun
            vote := nofun
            acknowledgement := nofun }
  have obeying : Leads crashedSystem obeyingSystem := by
    have alone : preparedRun.Alone 0 := Node.alone_begins fun _ _ => rfl
    have start : Leads crashedSystem (recoveringSystem.withParticipant party preparedRun) :=
      (withParticipant_self recoveringSystem).symm ▸ recovering
    refine (attains_participant recoveringSystem).begins { outside := Participant.willing party }
      start (alone.of_ended (by decide +kernel)) (by decide +kernel) ?_
    refine allows_decision _ ⟨deal, .commit⟩ ?_ (by decide +kernel)
    rw [participants_withParticipant]
    exact alone.of_ended (by decide +kernel)
  refine (attains_coordinator obeyingSystem).resumes { outside := Coordinator.sending default }
    obeying (Node.alone_begins alone) fun op q a first => ?_
  exact allows_acknowledging _ ⟨deal, .commit⟩ (Node.alone_begins alone) (by decide +kernel)
    (by decide +kernel) first

/-- What a system may come to it comes to in some run, and stays there. -/
theorem exists_run {s₀ s : System c} (leads : Leads s₀ s) :
    ∃ run : ℕ → System c, run 0 = s₀ ∧ Continues run ∧ ∃ n, ∀ i ≥ n, run i = s := by
  induction leads using Relation.ReflTransGen.head_induction_on with
  | refl => exact ⟨fun _ => s, rfl, fun _ => .inl rfl, 0, fun _ _ => rfl⟩
  | @head before _ step _ ih =>
    obtain ⟨run, rfl, continues, n, ends⟩ := ih
    refine ⟨fun i => Nat.casesOn i before run, rfl, ?_, n + 1, ?_⟩
    · rintro (_ | i)
      · exact .inr step
      · exact continues i
    · rintro (_ | i) le
      · omega
      · exact ends i (by omega)

/-- Nothing fails in a run that comes to the end of this recovery. -/
theorem favourable_of_recovered {run : ℕ → System default} (first : run 0 = crashedSystem)
    (continues : Continues run) {n : ℕ} (ends : ∀ i ≥ n, run i = recoveredSystem) :
    Favourable run := by
  have last (i : ℕ) : run (max i n) = recoveredSystem := ends _ (le_max_right i n)
  have reports : ∀ message p result,
      message = ⟨deal, .commit⟩ ∧ p = party ∧ result.isOk = true →
        Reports run message p result := by
    rintro _ _ result ⟨rfl, rfl, ok⟩
    obtain ⟨⟨call, event, log⟩, hm, new, h⟩ :
        ∃ m ∈ (recoveredSystem.participants party).past,
          (crashedSystem.participants party).Unstarted m.call ∧
            Participant.reports m ⟨deal, .commit⟩ = true := by
      decide +kernel
    obtain rfl := Participant.event_of_reports h
    refine ⟨n, call, .ok (), log, ?_, ?_, ok⟩
    · rw [first]
      exact new
    · rw [ends n le_rfl]
      exact hm
  constructor
  · intro i m hm new
    have good : ∀ m ∈ recoveredSystem.coordinator.past,
        crashedSystem.coordinator.Unstarted m.call →
        m.Hears ((default : Coordinator).Good fun message p result =>
          message = ⟨deal, .commit⟩ ∧ p = party ∧ result.isOk = true) := by
      decide +kernel
    rw [first] at new
    have hm := (continues.grows (le_max_left i n)).past.subset hm
    rw [last] at hm
    exact fun q a event => (good m hm new q a event).mono reports
  · intro i p m hm new
    have good : ∀ m ∈ (recoveredSystem.participants party).past,
        (crashedSystem.participants party).Unstarted m.call → m.Hears (Participant.Good party) := by
      decide +kernel
    rw [first] at new
    have hm := ((continues.participant p).grows (le_max_left i n)).past.subset hm
    rw [last] at hm
    by_cases same : p = party
    · subst same
      exact good m hm new
    · have nothing : recoveredSystem.participants p = {} :=
        (Function.update_of_ne same ..).trans (Function.update_of_ne same ..)
      rw [nothing] at hm
      cases hm

/-- After a crash a recovery finishes what was decided. -/
theorem recovery_converges_crashedSystem :
    ∃ run : ℕ → System default, run 0 = crashedSystem ∧ crashedSystem.Reachable ∧
      Continues run ∧ Favourable run ∧ (run 0).coordinator.Unstarted 1 ∧
      (∃ i log, ⟨1, .started .recover, log⟩ ∈ (run i).coordinator.past) ∧
      Node.Attended (fun i => (run i).coordinator) 1 ∧
      ∃ k report,
        ⟨1, .returned .recover (.ok report), (run k).coordinator.log⟩ ∈ (run k).coordinator.past ∧
        Log.lastState? (run k).coordinator.log (default : Coordinator).id deal = some .done ∧
        ∃ d, Resolved party ((run k).participants party).log deal d := by
  obtain ⟨run, first, continues, n, ends⟩ := exists_run leads_recoveredSystem
  have reachable : (run 0).Reachable := first ▸ reachable_crashedSystem
  have favourable := favourable_of_recovered first continues ends
  have new : (run 0).coordinator.Unstarted 1 := by
    rw [first]
    decide +kernel
  obtain ⟨log, started⟩ : ∃ log, ⟨1, .started .recover, log⟩ ∈ (run n).coordinator.past := by
    rw [ends n le_rfl]
    obtain ⟨⟨call, event, log⟩, hm, rfl, h⟩ : ∃ m ∈ recoveredSystem.coordinator.past,
        m.call = 1 ∧ Coordinator.recovers m = true := by
      decide +kernel
    obtain rfl := Coordinator.event_of_recovers h
    exact ⟨log, hm⟩
  have attended : Node.Attended (fun i => (run i).coordinator) 1 := by
    refine Node.attended_of_ended (i := n)
      (fun i => (reachable.linked.leads (continues.leads i.zero_le)).coordinator) ?_ ?_
    · intro j le
      rw [ends j le]
      decide +kernel
    · have last : (lastOf recoveredSystem.coordinator.past 1).all (fun m => !m.event.isAsked) =
          true := by
        decide +kernel
      intro q log asked
      rw [ends n le_rfl] at asked
      rw [asked] at last
      cases last
  have part : (default : Coordinator).TakesPart (run 0).coordinator.log deal party := by
    obtain ⟨e, he⟩ : ∃ e, e ∈ Log.history ((run 0).participants party).log party deal := by
      refine List.exists_mem_of_ne_nil _ ?_
      rw [first]
      decide +kernel
    exact reachable.linked.takesPart_of_mem he
  have built : Config.build {} = .ok (default : Coordinator).config := rfl
  obtain ⟨k, report, returned, settled, -⟩ :=
    recovery_converges built reachable continues favourable new started attended
  refine ⟨run, first, reachable_crashedSystem, continues, favourable, new, ⟨n, log, started⟩,
    attended, k, report, returned, ?_⟩
  have part := part.mono (continues.grows k.zero_le).log
  have known : Log.history (run k).coordinator.log (default : Coordinator).id deal ≠ [] := by
    obtain ⟨e, he, -⟩ := part
    exact List.ne_nil_of_mem he
  obtain ⟨done, ⟨d, -, resolved⟩, -⟩ := settled deal known
  exact ⟨done, d, resolved party part⟩

end Crash

end AtomicCommit.System
