import AtomicCommit.Proofs.Participant.Smooth

/-!
# What a participant does with its resource manager

What the resource manager has prepared is stored or released before the vote is given. From then on
the log says what the resource manager may be asked: what is stored is what is passed to it, a
decision is carried out only by who was told it, and who is finished with a transaction leaves the
resource manager alone. Recovery runs before a restarted node accepts new work.

## Main definitions

* `Participant.payload?`: the payload that a question passes on.
* `Participant.Mandated`: a call is to carry out a decision.

## Main results

* `Participant.payloads_are_accounted_for`: what becomes of payloads, and who passes them on.
-/

namespace AtomicCommit.Participant

/-- The payload that a question passes on to the resource manager. -/
def payload? : Request → Option PreparedPayload
  | .commit payload | .abort payload | .restore payload => some payload
  | _ => none

/-- A call is to carry out a decision on a transaction: it was sent the decision, or it recovers and
was told it last. -/
def Mandated (p : ProcessId) (past : List (Moment (role p))) (call : ℕ) (tx : TransactionId)
    (d : Decision) : Prop :=
  ∃ op log, ⟨call, .started op, log⟩ ∈ past ∧ mandate p past call op = some (tx, d)

variable {self : ProcessId} {past : List (Moment (role self))} {log : List Entry} {call : ℕ}
  {q : Request} {tx : TransactionId}

/-! ## What the log says to a question -/

/-- What is held has been stored once, and nothing else of the transaction. -/
theorem Holding.history {r : Record} {payload : PreparedPayload} (h : Holding self log r payload) :
    ∃ e coordinator, Log.history log self r.transaction = [e] ∧ e.state = .prepared ∧
      e.payload = .prepared coordinator payload := by
  obtain ⟨e, coordinator, payload', only, takes, -, carried⟩ :=
    Record.History.singleton_of_prepared h.sees h.prepared
  rw [h.payload, Option.some.injEq] at carried
  exact ⟨e, coordinator, only, takes.state, carried ▸ takes.payload⟩

/-- Either nothing is known of a transaction, and the question is one of who votes, or what is
stored is what is passed on. -/
theorem Uses.cases (h : Uses self past log call q tx) :
    Log.history log self tx = [] ∧ (∀ payload, q ≠ .commit payload) ∨
    ∃ r payload, r.transaction = tx ∧ Holding self log r payload ∧ payload? q = some payload := by
  cases h with
  | check _ unknown _ => exact .inl ⟨unknown, by simp⟩
  | prepare _ unknown _ => exact .inl ⟨unknown, by simp⟩
  | release _ unknown _ _ _ => exact .inl ⟨unknown, by simp⟩
  | @commit op r payload log₀ _ _ holding => exact .inr ⟨r, payload, rfl, holding, rfl⟩
  | @abort op r payload log₀ _ _ holding => exact .inr ⟨r, payload, rfl, holding, rfl⟩
  | @restore entries found restored r payload log₀ log₁ _ _ _ prepared order _ carried =>
    obtain ⟨payload', holding⟩ := prepared r (order.subset (by simp))
    have same : payload' = payload := by simpa [holding.payload] using carried
    exact .inr ⟨r, payload, rfl, same ▸ holding, rfl⟩

/-- Nothing is asked about a transaction that is finished. -/
theorem Uses.unfinished (h : Uses self past log call q tx) {e : Entry}
    (he : e ∈ Log.history log self tx) : e.state.isTerminal = false := by
  rcases h.cases with ⟨unknown, -⟩ | ⟨r, payload, rfl, holding, -⟩
  · rw [unknown] at he
    cases he
  · obtain ⟨e', coordinator, only, prepared, -⟩ := holding.history
    rw [only, List.mem_singleton] at he
    rw [he, prepared]
    rfl

/-- What is stored is what is passed on. -/
theorem Uses.passes (h : Uses self past log call q tx) {e : Entry}
    (he : e ∈ Log.history log self tx) {coordinator : ProcessId} {payload : PreparedPayload}
    (stored : e.payload = .prepared coordinator payload) : payload? q = some payload := by
  rcases h.cases with ⟨unknown, -⟩ | ⟨r, payload', rfl, holding, passed⟩
  · rw [unknown] at he
    cases he
  · obtain ⟨e', coordinator', only, -, stored'⟩ := holding.history
    rw [only, List.mem_singleton] at he
    rw [he, stored'] at stored
    cases stored
    exact passed

/-- A question that passes nothing on is about a transaction of which nothing is known. -/
theorem Uses.unknown (h : Uses self past log call q tx) (none : payload? q = none) :
    Log.history log self tx = [] := by
  rcases h.cases with ⟨unknown, -⟩ | ⟨r, payload, -, -, passed⟩
  · exact unknown
  · rw [none] at passed
    cases passed

/-- Only who is to commit has anything committed. -/
theorem Uses.commits {payload : PreparedPayload}
    (h : Uses self past log call (.commit payload) tx) : Mandated self past call tx .commit := by
  cases h with
  | commit started mandate _ => exact ⟨_, _, started, mandate⟩

/-- Only who is to abort has anything aborted, but for what could not be stored. -/
theorem Uses.aborts {payload : PreparedPayload}
    (h : Uses self past log call (.abort payload) tx) (known : Log.history log self tx ≠ []) :
    Mandated self past call tx .abort := by
  cases h with
  | release _ unknown _ _ _ => exact absurd unknown known
  | abort started mandate _ => exact ⟨_, _, started, mandate⟩

/-! ## The whole run -/

/-- In every run of a participant, whatever it is told, whatever its resource manager answers and
whatever fails: when a call that was asked for its vote ends, it has got no payload, or it has
stored the one that it got, or has had it aborted, once. Every other question to the resource
manager is about a transaction. It is not finished, and if anything is stored of it, then the
question passes on the payload that is stored. What is committed is committed by who is to commit
the transaction, and what is stored is aborted by who is to abort it. What a recovery has found in
the log is assumed to be left to it until it asks for the first decision (`recoveryLocks`). -/
theorem payloads_are_accounted_for {p : ProcessId} {n : Node (role p)} (h : Reachable p n) :
    (∀ before call message result log,
      before ++ [⟨call, .returned (.handlePrepare message) result, log⟩] <+: n.past →
      Settles p log message (dealings p before call)) ∧
    ∀ before call q log, before ++ [⟨call, .asked (.inr q), log⟩] <+: n.past →
      (∀ coordinator tx, q ≠ .askDecision coordinator tx) →
      (∃ tx, Uses p before log call q tx) ∧
      ∀ tx, Uses p before log call q tx →
        (∀ e ∈ Log.history log p tx, e.state.isTerminal = false) ∧
        (∀ e ∈ Log.history log p tx, ∀ coordinator payload,
          e.payload = .prepared coordinator payload → payload? q = some payload) ∧
        (∀ operations, q = .canCommit operations ∨ q = .prepare operations →
          Log.history log p tx = []) ∧
        (∀ payload, q = .commit payload → Mandated p before call tx .commit) ∧
        ∀ payload, q = .abort payload → Log.history log p tx ≠ [] →
          Mandated p before call tx .abort := by
  have justified : ∀ before m, before ++ [m] <+: n.past → Justified p before m :=
    fun before m sub => (h.holds.chronicle.of_prefix sub).last.2
  refine ⟨fun before call message result log sub => (justified before _ sub).2, ?_⟩
  intro before call q log sub other
  have asks : Asks p before log call (.inr q) := justified before _ sub
  constructor
  · cases q with
    | askDecision coordinator tx => exact absurd rfl (other coordinator tx)
    | _ => exact asks
  · intro tx uses
    refine ⟨fun e he => uses.unfinished he, fun e he coordinator payload => uses.passes he, ?_, ?_,
      ?_⟩
    · rintro operations (rfl | rfl)
      · exact uses.unknown rfl
      · exact uses.unknown rfl
    · rintro payload rfl
      exact uses.commits
    · rintro payload rfl known
      exact uses.aborts known

/-! ## A payload that could not be stored -/

section Releases

/-- The log refuses the vote, and what was prepared is released. -/
def releasedRun : Node (role cohort) :=
  Node.begins { outside := willing cohort, refuses := fun _ => some (.unavailable (.reported "")) }
    {} 0 (.handlePrepare proposal)

/-- The vote is asked for again, and is stored. -/
def retriedRun : Node (role cohort) :=
  releasedRun.begins { outside := willing cohort } 1 (.handlePrepare proposal)

/-- It is told to commit. -/
def carriedOutRun : Node (role cohort) :=
  retriedRun.begins { outside := willing cohort } 2 (.handleDecision proposal.transaction .commit)

theorem rested_releasedRun : releasedRun.Rested 1 := Node.rested_initial.begins rfl

theorem reachable_retriedRun : Reachable cohort retriedRun := by
  have released : Reachable cohort releasedRun :=
    begins_of_rested { attains with } .initial Node.rested_initial
  exact begins_of_rested attains released rested_releasedRun

theorem reachable_carriedOutRun : Reachable cohort carriedOutRun :=
  begins_of_rested attains reachable_retriedRun (rested_releasedRun.begins rfl)

/-- What happened up to a moment. -/
theorem take_prefix_of_getElem? {past : List (Moment (role self))} {k : ℕ} {m : Moment (role self)}
    (h : past[k]? = some m) : past.take k ++ [m] <+: past := by
  have whole : past.take k ++ [m] = past.take (k + 1) := by
    rw [List.take_add_one, h]
    rfl
  exact whole ▸ List.take_prefix (k + 1) past

/-- A payload that could not be stored is released, and the vote is an error; the one that is stored
in the end is the one committed. -/
theorem payloads_are_accounted_for_carriedOutRun :
    Reachable cohort carriedOutRun ∧
    (∃ before failure log,
      before ++ [⟨0, .returned (.handlePrepare proposal) (.error failure), log⟩] <+:
        carriedOutRun.past ∧
      dealings cohort before 0 = [(.obtained, ⟨[]⟩), (.aborted, ⟨[]⟩)] ∧
      Settles cohort log proposal (dealings cohort before 0)) ∧
    ∃ before log, before ++ [⟨2, .asked (.inr (.commit ⟨[]⟩)), log⟩] <+: carriedOutRun.past ∧
      ∃ tx, Uses cohort before log 2 (.commit ⟨[]⟩) tx ∧
        Mandated cohort before 2 tx .commit := by
  obtain ⟨ends, asks⟩ := payloads_are_accounted_for reachable_carriedOutRun
  refine ⟨reachable_carriedOutRun, ?_, ?_⟩
  · have sub := take_prefix_of_getElem? (show carriedOutRun.past[13]? = some _ from rfl)
    exact ⟨_, _, _, sub, by decide +kernel, ends _ _ _ _ _ sub⟩
  · have sub := take_prefix_of_getElem? (show carriedOutRun.past[27]? = some _ from rfl)
    obtain ⟨⟨tx, uses⟩, what⟩ := asks _ _ _ _ sub (by simp)
    obtain ⟨-, -, -, mandated, -⟩ := what tx uses
    exact ⟨_, _, sub, tx, uses, mandated _ rfl⟩

end Releases

end AtomicCommit.Participant
