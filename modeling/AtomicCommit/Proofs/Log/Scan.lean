import AtomicCommit.Proofs.Log.History
import AtomicCommit.Proofs.Sorted.Lookup
import AtomicCommit.Proofs.Transaction.Record
import AtomicCommit.Proofs.Transaction.Replay

/-!
# The two ways of reading a log

At startup an actor scans the log for what it has not finished, and splits the scan into one
history per transaction. To answer a question it loads a single transaction and keeps its own
entries. Both find the same histories, and both agree with the replay of a history on whether the
transaction is finished.

A scan and a split go through the log once, with a table of what they have seen. What they compute
in this way is what `scanIncomplete` and `groupByTransaction` say.

## Main definitions

* `Log.incompleteEntries`: the scan, with a table of latest states.
* `Log.gather`: the split, with a table of positions.

## Main results

* `Log.incompleteEntries_eq`, `Log.gather_eq`: single passes compute the scan and the split.
* `Log.scan_agrees_with_load`: a scan finds what loading finds.
-/

namespace AtomicCommit

namespace Log

variable {log : List Entry} {actor : ProcessId} {tx : TransactionId}

/-! ## Transactions in order of first appearance -/

/-- One more entry adds its transaction at the end, unless that has been seen. -/
theorem transactions_concat (es : List Entry) (e : Entry) :
    transactions (es ++ [e]) =
      if e.transaction ∈ transactions es then transactions es
      else transactions es ++ [e.transaction] := by
  unfold transactions
  rw [List.map_append, List.eraseDups_append]
  by_cases seen : e.transaction ∈ es.map Entry.transaction
  · have nothing : ([e].map Entry.transaction).removeAll (es.map Entry.transaction) = [] := by
      simpa [List.removeAll] using seen
    rw [if_pos (List.mem_eraseDups.2 seen), nothing, List.eraseDups_nil, List.append_nil]
  · have new : ([e].map Entry.transaction).removeAll (es.map Entry.transaction) =
        [e.transaction] := by
      simpa [List.removeAll] using seen
    rw [if_neg fun h => seen (List.mem_eraseDups.1 h), new]
    rfl

theorem transactions_append_of_mem {es later : List Entry}
    (seen : ∀ e ∈ later, e.transaction ∈ transactions es) :
    transactions (es ++ later) = transactions es := by
  induction later using List.reverseRecOn with
  | nil => rw [List.append_nil]
  | append_singleton later e ih =>
    have ih := ih fun e' he' => seen e' (List.mem_append_left _ he')
    rw [← List.append_assoc, transactions_concat, ih, if_pos (seen e (by simp))]

theorem transactions_filter (p : TransactionId → Bool) (es : List Entry) :
    transactions (es.filter fun e => p e.transaction) = (transactions es).filter p := by
  induction es using List.reverseRecOn with
  | nil => rfl
  | append_singleton es e ih =>
    rw [List.filter_append, transactions_concat]
    by_cases keep : p e.transaction
    · rw [List.filter_singleton, keep, cond_true, transactions_concat, ih]
      by_cases seen : e.transaction ∈ transactions es
      · rw [if_pos seen, if_pos (List.mem_filter.2 ⟨seen, keep⟩)]
      · rw [if_neg seen, if_neg fun h => seen (List.mem_filter.1 h).1]
        simp [keep]
    · have drop : p e.transaction = false := by simpa using keep
      rw [List.filter_singleton, drop, cond_false, List.append_nil, ih]
      by_cases seen : e.transaction ∈ transactions es
      · rw [if_pos seen]
      · rw [if_neg seen]
        simp [drop]

/-- Of two listed transactions the earlier one appears first. -/
theorem pairwise_transactions (es : List Entry) :
    (transactions es).Pairwise fun tx tx' =>
      (es.map Entry.transaction).idxOf tx < (es.map Entry.transaction).idxOf tx' := by
  induction es using List.reverseRecOn with
  | nil => exact .nil
  | append_singleton es e ih =>
    have there : ∀ tx ∈ transactions es, tx ∈ es.map Entry.transaction :=
      fun tx h => List.mem_eraseDups.1 h
    have old : (transactions es).Pairwise fun tx tx' =>
        ((es ++ [e]).map Entry.transaction).idxOf tx <
          ((es ++ [e]).map Entry.transaction).idxOf tx' := by
      refine ih.imp_of_mem fun {tx tx'} h h' lt => ?_
      rw [List.map_append, List.idxOf_append_of_mem (there tx h),
        List.idxOf_append_of_mem (there tx' h')]
      exact lt
    rw [transactions_concat]
    by_cases seen : e.transaction ∈ transactions es
    · rw [if_pos seen]
      exact old
    · rw [if_neg seen]
      refine List.pairwise_append.2 ⟨old, List.pairwise_singleton _ _, fun tx h tx' h' => ?_⟩
      rw [List.mem_singleton.1 h', List.map_append, List.idxOf_append_of_mem (there tx h),
        List.idxOf_append_of_notMem fun h => seen (List.mem_eraseDups.2 h)]
      exact Nat.lt_add_right _ (List.idxOf_lt_length_of_mem (there tx h))

/-! ## What an actor has not finished -/

/-- The transactions whose last entry by the actor is not terminal, in the order in which it wrote
its first entries for them. -/
def unfinished (log : List Entry) (actor : ProcessId) : List TransactionId :=
  (transactions (own log actor)).filter fun tx =>
    ((load log tx).filter fun e => e.actor = actor).getLast?.any fun e => !e.state.isTerminal

theorem any_last_eq_isIncomplete (log : List Entry) (actor : ProcessId) (tx : TransactionId) :
    (((load log tx).filter fun e => e.actor = actor).getLast?.any fun e => !e.state.isTerminal) =
      isIncomplete log actor tx := by
  rw [filter_load_eq_history, isIncomplete, lastState?]
  cases (history log actor tx).getLast? <;> rfl

theorem unfinished_eq_filter (log : List Entry) (actor : ProcessId) :
    unfinished log actor =
      (transactions (own log actor)).filter fun tx => isIncomplete log actor tx := by
  simp only [unfinished, any_last_eq_isIncomplete]

/-- A scan lists what its actor has not finished. -/
theorem transactions_scanIncomplete (log : List Entry) (actor : ProcessId) :
    transactions (scanIncomplete log actor) = unfinished log actor := by
  rw [scanIncomplete_eq_filter, transactions_filter, unfinished_eq_filter]

theorem mem_unfinished_iff : tx ∈ unfinished log actor ↔ isIncomplete log actor tx = true := by
  rw [← transactions_scanIncomplete, mem_transactions_scan_iff]

theorem nodup_unfinished (log : List Entry) (actor : ProcessId) : (unfinished log actor).Nodup :=
  (nodup_transactions _).filter _

/-- A transaction that replays is unfinished unless it is done. -/
theorem isIncomplete_iff_of_replay {t : Transaction}
    (h : Transaction.replay (history log actor tx) = .ok t) :
    isIncomplete log actor tx = true ↔ t.state ≠ .done := by
  have last := (Transaction.summarizes_of_replay h).last
  rw [isIncomplete, lastState?, last]
  cases t.state <;> simp [CoordinatorState.toState, State.isTerminal]

/-- A transaction that replays is unfinished unless its last entry says that it is done. -/
theorem isIncomplete_eq_of_replay {t : Transaction}
    (h : Transaction.replay (history log actor tx) = .ok t) :
    isIncomplete log actor tx = decide (lastState? log actor tx ≠ some .done) := by
  rw [Bool.eq_iff_iff, isIncomplete_iff_of_replay h, decide_eq_true_iff, lastState?,
    (Transaction.summarizes_of_replay h).last, Ne, Ne, Option.some.injEq,
    CoordinatorState.toState_eq_done_iff]

/-- A coordinator has not finished what does not replay to a transaction that is done. -/
theorem mem_unfinished_iff_of_transaction {t : Transaction}
    (h : Transaction.replay (history log actor tx) = .ok t) :
    tx ∈ unfinished log actor ↔ t.state.isTerminal = false := by
  rw [mem_unfinished_iff, isIncomplete_iff_of_replay h, CoordinatorState.isTerminal,
    decide_eq_false_iff_not]

/-- A participant has not finished what replays to a record that is neither committed nor
aborted. -/
theorem mem_unfinished_iff_of_record {found : Option Record}
    (h : Record.replay (history log actor tx) = .ok found) :
    tx ∈ unfinished log actor ↔ ∃ r, found = some r ∧ r.state.isTerminal = false := by
  rw [mem_unfinished_iff, isIncomplete, lastState?]
  cases found with
  | none =>
    rw [Record.eq_nil_of_replay h]
    simp
  | some r =>
    rw [Record.last_of_replay h]
    cases state : r.state <;>
      simp [state, ParticipantState.toState, State.isTerminal, ParticipantState.isTerminal]

/-! ## What a growing log leaves unfinished -/

theorem own_append (log later : List Entry) (actor : ProcessId) :
    own (log ++ later) actor = own log actor ++ own later actor := by
  rw [own, List.filter_append, own, own]

/-- A history grows with every entry that its actor adds to the log. -/
theorem history_ne_of_mem {later : List Entry} {e : Entry} (he : e ∈ own later actor) :
    history (log ++ later) actor e.transaction ≠ history log actor e.transaction := by
  obtain ⟨he, written⟩ := List.mem_filter.1 he
  rw [history_append, Ne, List.append_right_eq_self]
  exact List.ne_nil_of_mem (mem_history_iff.2 ⟨he, rfl, of_decide_eq_true written⟩)

/-- An actor whose histories are as they were has written nothing. -/
theorem own_eq_of_histories {log' : List Entry} (grown : log <+: log')
    (same : ∀ tx, history log' actor tx = history log actor tx) :
    own log' actor = own log actor := by
  obtain ⟨later, rfl⟩ := grown
  have nothing : own later actor = [] :=
    List.eq_nil_iff_forall_not_mem.2 fun e he => history_ne_of_mem he (same e.transaction)
  rw [own_append, nothing, List.append_nil]

/-- What is unfinished depends on what the actor has written. -/
theorem unfinished_congr {log' : List Entry} (same : own log' actor = own log actor) :
    unfinished log' actor = unfinished log actor := by
  rw [← transactions_scanIncomplete, ← scanIncomplete_own, same, scanIncomplete_own,
    transactions_scanIncomplete]

/-- As long as an actor goes on only with what it has not finished, those that stay unfinished keep
their order, and no other ones join them. -/
theorem unfinished_of_prefix {log' : List Entry} (grown : log <+: log')
    (same : ∀ tx ∉ unfinished log actor, history log' actor tx = history log actor tx) :
    unfinished log' actor = (unfinished log actor).filter fun tx => isIncomplete log' actor tx := by
  have known : transactions (own log' actor) = transactions (own log actor) := by
    obtain ⟨later, rfl⟩ := grown
    rw [own_append]
    refine transactions_append_of_mem fun e he => ?_
    by_contra unknown
    have finished : e.transaction ∉ unfinished log actor :=
      fun listed => unknown (List.mem_filter.1 listed).1
    exact history_ne_of_mem he (same e.transaction finished)
  rw [unfinished_eq_filter log', known, unfinished_eq_filter log, List.filter_filter]
  refine List.filter_congr fun tx _ => ?_
  by_cases listed : tx ∈ unfinished log actor
  · rw [mem_unfinished_iff.1 listed, Bool.and_true]
  · have done : isIncomplete log actor tx = false := by
      rw [← Bool.not_eq_true, ← mem_unfinished_iff]
      exact listed
    rw [isIncomplete_congr (same tx listed), done, Bool.and_false]

/-! ## A scan in one pass -/

/-- The latest state of each transaction in a list of entries. -/
def latest (entries : List Entry) : SortedMap TransactionId State :=
  entries.foldl (fun table e => table.insert e.transaction e.state) ∅

/-- The entries of an actor for the transactions it has not finished, by a table of the latest
states that it wrote. -/
def incompleteEntries (entries : List Entry) (actor : ProcessId) : List Entry :=
  let table := latest (own entries actor)
  entries.filter fun e =>
    e.actor = actor && (table.get? e.transaction).any fun s => !s.isTerminal

theorem get?_latest (entries : List Entry) (tx : TransactionId) :
    (latest entries).get? tx = (load entries tx).getLast?.map Entry.state := by
  induction entries using List.reverseRecOn with
  | nil => rfl
  | append_singleton es e ih =>
    unfold latest at ih ⊢
    rw [List.foldl_append, List.foldl_cons, List.foldl_nil, SortedMap.get?_insert, ih]
    by_cases h : e.transaction = tx
    · simp [load, h]
    · have h' : ¬ tx = e.transaction := fun h' => h h'.symm
      simp [load, h, h']

/-- The table tells which transactions are unfinished. -/
theorem incompleteEntries_eq (log : List Entry) (actor : ProcessId) :
    incompleteEntries log actor = scanIncomplete log actor := by
  unfold incompleteEntries scanIncomplete
  refine List.filter_congr fun e _ => ?_
  rw [get?_latest, load_own, isIncomplete, lastState?]
  cases (history log actor e.transaction).getLast?.map Entry.state <;> rfl

/-! ## A split in one pass -/

/-- Groups of entries, with the position of the group of each transaction. -/
structure Groups where
  /-- Where the group of a transaction stands. -/
  positions : SortedMap TransactionId Nat := ∅
  /-- The groups. -/
  groups : List (List Entry) := []

/-- The groups with one more entry, in a group of its own if its transaction is new. -/
def Groups.add (g : Groups) (e : Entry) : Groups :=
  match g.positions.get? e.transaction with
  | some i => { g with groups := g.groups.modify i (· ++ [e]) }
  | none =>
    { positions := g.positions.insert e.transaction g.groups.length
      groups := g.groups ++ [[e]] }

/-- One history per transaction, by a table of the groups opened so far. -/
def gather (entries : List Entry) : List (List Entry) :=
  (entries.foldl Groups.add {}).groups

theorem load_concat (es : List Entry) (e : Entry) (tx : TransactionId) :
    load (es ++ [e]) tx = load es tx ++ if e.transaction = tx then [e] else [] := by
  by_cases h : e.transaction = tx <;> simp [load, h]

/-- An entry of a known transaction joins its group. -/
theorem groupByTransaction_concat_of_mem {es : List Entry} {e : Entry}
    (seen : e.transaction ∈ transactions es) :
    groupByTransaction (es ++ [e]) =
      (groupByTransaction es).modify ((transactions es).idxOf e.transaction) (· ++ [e]) := by
  unfold groupByTransaction
  rw [transactions_concat, if_pos seen]
  refine List.ext_getElem (by simp) fun i h _ => ?_
  rw [List.length_map] at h
  rw [List.getElem_modify, List.getElem_map, List.getElem_map, load_concat]
  by_cases there : e.transaction = (transactions es)[i]
  · have position : (transactions es).idxOf e.transaction = i := by
      rw [there]
      exact (nodup_transactions es).idxOf_getElem i h
    rw [if_pos there, if_pos position]
  · have position : (transactions es).idxOf e.transaction ≠ i := by
      rintro rfl
      exact there (List.getElem_idxOf h).symm
    rw [if_neg there, if_neg position, List.append_nil]

/-- An entry of an unknown transaction opens a group. -/
theorem groupByTransaction_concat_of_not_mem {es : List Entry} {e : Entry}
    (new : e.transaction ∉ transactions es) :
    groupByTransaction (es ++ [e]) = groupByTransaction es ++ [[e]] := by
  unfold groupByTransaction
  rw [transactions_concat, if_neg new, List.map_append]
  congr 1
  · refine List.map_congr_left fun tx h => ?_
    rw [load_concat, if_neg, List.append_nil]
    rintro rfl
    exact new h
  · have none : load es e.transaction = [] := by
      by_contra some
      exact new (mem_transactions_iff.2 some)
    rw [List.map_singleton, load_concat, if_pos rfl, none, List.nil_append]

/-- What the groups are after some entries. -/
structure Groups.Holds (g : Groups) (es : List Entry) : Prop where
  /-- The groups are the histories so far. -/
  groups : g.groups = groupByTransaction es
  /-- The table knows where each of them stands. -/
  positions : ∀ tx, g.positions.get? tx =
    if tx ∈ transactions es then some ((transactions es).idxOf tx) else none

theorem Groups.Holds.add {g : Groups} {es : List Entry} (h : g.Holds es) (e : Entry) :
    (g.add e).Holds (es ++ [e]) := by
  unfold Groups.add
  rw [h.positions]
  by_cases seen : e.transaction ∈ transactions es
  · rw [if_pos seen]
    constructor
    · rw [groupByTransaction_concat_of_mem seen, ← h.groups]
    · intro tx
      rw [transactions_concat, if_pos seen]
      exact h.positions tx
  · rw [if_neg seen]
    constructor
    · rw [groupByTransaction_concat_of_not_mem seen, ← h.groups]
    · intro tx
      have size : g.groups.length = (transactions es).length := by
        rw [h.groups, groupByTransaction, List.length_map]
      rw [SortedMap.get?_insert, h.positions, transactions_concat, if_neg seen, size]
      by_cases same : tx = e.transaction
      · subst same
        rw [if_pos rfl, if_pos (by simp), List.idxOf_append_of_notMem seen]
        simp
      · rw [if_neg same]
        by_cases there : tx ∈ transactions es
        · rw [if_pos there, if_pos (List.mem_append_left _ there),
            List.idxOf_append_of_mem there]
        · rw [if_neg there, if_neg (by simp [there, same])]

/-- The table of positions sorts the entries into their histories. -/
theorem gather_eq (entries : List Entry) : gather entries = groupByTransaction entries := by
  suffices (entries.foldl Groups.add {}).Holds entries from this.groups
  induction entries using List.reverseRecOn with
  | nil => exact ⟨rfl, fun tx => rfl⟩
  | append_singleton es e ih =>
    rw [List.foldl_append]
    exact ih.add e

/-! ## Scanning and loading -/

/-- A scan and loading find the same. Whoever scans, in whatever order the entries of all actors
lie in the log, gets one group for each transaction that the last entry of its own leaves open, in
the order in which its entries for them begin, and the group is what loading the transaction and
keeping the own entries gives. Where that replays, at a coordinator or at a participant, the
transaction is listed exactly if the replayed state is not terminal. -/
theorem scan_agrees_with_load (log : List Entry) (actor : ProcessId) :
    gather (incompleteEntries log actor) = groupByTransaction (scanIncomplete log actor) ∧
    groupByTransaction (scanIncomplete log actor) =
      (unfinished log actor).map (fun tx => (load log tx).filter fun e => e.actor = actor) ∧
    (unfinished log actor).Nodup ∧
    (unfinished log actor).Pairwise (fun tx tx' =>
      ((own log actor).map Entry.transaction).idxOf tx <
        ((own log actor).map Entry.transaction).idxOf tx') ∧
    (∀ tx, tx ∈ unfinished log actor ↔
      ∃ e, ((load log tx).filter fun e => e.actor = actor).getLast? = some e ∧
        e.state.isTerminal = false) ∧
    (∀ tx t, Transaction.replay ((load log tx).filter fun e => e.actor = actor) = .ok t →
      (tx ∈ unfinished log actor ↔ t.state.isTerminal = false)) ∧
    ∀ tx found, Record.replay ((load log tx).filter fun e => e.actor = actor) = .ok found →
      (tx ∈ unfinished log actor ↔ ∃ r, found = some r ∧ r.state.isTerminal = false) := by
  refine ⟨?_, ?_, nodup_unfinished log actor, (pairwise_transactions _).filter _, ?_, ?_, ?_⟩
  · rw [gather_eq, incompleteEntries_eq]
  · rw [groupByTransaction_scan, transactions_scanIncomplete]
    rfl
  · intro tx
    rw [mem_unfinished_iff, ← any_last_eq_isIncomplete]
    simp [Option.any_eq_true]
  · exact fun tx t replay => mem_unfinished_iff_of_transaction replay
  · exact fun tx found replay => mem_unfinished_iff_of_record replay

/-- A coordinator and a participant in one log, with a transaction that is open for the one and
finished for the other. -/
def interleaved : List Entry :=
  let coordinator : ProcessId := ⟨"coordinator"⟩
  let participant : ProcessId := ⟨"participant"⟩
  let entry (tx : Nat) (actor : ProcessId) (previous : Option State) (state : State)
      (payload : Payload) : Entry :=
    { transaction := ⟨tx⟩, actor, previous, state, payload, time := .epoch }
  [entry 1 coordinator none .init (.begin [participant] ∅ .epoch),
    entry 1 participant (some .idle) .prepared (.prepared coordinator ⟨[]⟩),
    entry 2 participant (some .idle) .prepared (.prepared coordinator ⟨[]⟩),
    entry 1 coordinator (some .init) .preparing .none,
    entry 1 participant (some .prepared) .committed (.resolved .commit)]

/-- In a shared log one transaction is unfinished for its coordinator only, the other for the
participant only. -/
theorem scan_agrees_with_load_interleaved :
    (∃ t, Transaction.replay (history interleaved ⟨"coordinator"⟩ ⟨1⟩) = .ok t ∧
      ⟨1⟩ ∈ unfinished interleaved ⟨"coordinator"⟩) ∧
    (∃ r, Record.replay (history interleaved ⟨"participant"⟩ ⟨1⟩) = .ok (some r) ∧
      ⟨1⟩ ∉ unfinished interleaved ⟨"participant"⟩) ∧
    ∃ r, Record.replay (history interleaved ⟨"participant"⟩ ⟨2⟩) = .ok (some r) ∧
      ⟨2⟩ ∈ unfinished interleaved ⟨"participant"⟩ := by
  have atCoordinator := (scan_agrees_with_load interleaved ⟨"coordinator"⟩).2.2.2.2.2.1
  have atParticipant := (scan_agrees_with_load interleaved ⟨"participant"⟩).2.2.2.2.2.2
  refine ⟨⟨_, rfl, (atCoordinator ⟨1⟩ _ rfl).2 (by decide)⟩, ⟨_, rfl, ?_⟩,
    ⟨_, rfl, (atParticipant ⟨2⟩ _ rfl).2 ⟨_, rfl, by decide⟩⟩⟩
  intro listed
  obtain ⟨r, found, unresolved⟩ := (atParticipant ⟨1⟩ _ rfl).1 listed
  cases found
  cases unresolved

end Log

end AtomicCommit
