import AtomicCommit.Log.History
import Mathlib.Data.List.Dedup
import Mathlib.Data.List.Forall2
import Mathlib.Data.List.Infix

/-!
# Histories in a log

The history of a transaction is what one actor wrote for it. Entries of others leave it as it is,
and a log that grows only adds to its end. A scan for unfinished transactions, grouped by
transaction, gives back exactly the histories that have not come to a terminal state.
-/

namespace AtomicCommit.Log

variable {log : List Entry} {actor : ProcessId} {tx : TransactionId}

@[simp] theorem history_nil : history [] actor tx = [] := rfl

theorem mem_history_iff {e : Entry} :
    e ∈ history log actor tx ↔ e ∈ log ∧ e.transaction = tx ∧ e.actor = actor := by
  simp only [history, load, List.mem_filter, decide_eq_true_eq, and_assoc]

theorem history_append (log later : List Entry) (actor : ProcessId) (tx : TransactionId) :
    history (log ++ later) actor tx = history log actor tx ++ history later actor tx := by
  simp [history, load]

/-- An entry of the history's own actor and transaction is added to its end. -/
theorem history_append_own {e : Entry} (log : List Entry) (ha : e.actor = actor)
    (ht : e.transaction = tx) : history (log ++ [e]) actor tx = history log actor tx ++ [e] := by
  simp [history, load, ha, ht]

/-- Any other entry leaves the history as it is. -/
theorem history_append_other {e : Entry} (log : List Entry)
    (h : e.actor = actor → e.transaction ≠ tx) :
    history (log ++ [e]) actor tx = history log actor tx := by
  by_cases ht : e.transaction = tx
  · have ha : e.actor ≠ actor := fun ha => h ha ht
    simp [history, load, ha]
  · simp [history, load, ht]

theorem history_prefix {log later : List Entry} (h : log <+: later) (actor : ProcessId)
    (tx : TransactionId) : history log actor tx <+: history later actor tx := by
  obtain ⟨rest, rfl⟩ := h
  rw [history_append]
  exact List.prefix_append _ _

theorem filter_load_eq_history (log : List Entry) (actor : ProcessId) (tx : TransactionId) :
    (load log tx).filter (fun e => e.actor = actor) = history log actor tx := rfl

/-- A history is about one transaction. -/
theorem load_history (log : List Entry) (actor : ProcessId) (tx : TransactionId) :
    load (history log actor tx) tx = history log actor tx :=
  List.filter_eq_self.2 fun _ he => decide_eq_true (mem_history_iff.1 he).2.1

/-- What an actor has written. -/
def own (entries : List Entry) (actor : ProcessId) : List Entry :=
  entries.filter fun e => e.actor = actor

theorem history_own (log : List Entry) (actor : ProcessId) (tx : TransactionId) :
    history (own log actor) actor tx = history log actor tx := by
  unfold history load own
  rw [List.filter_filter, List.filter_filter, List.filter_filter]
  refine List.filter_congr fun e _ => ?_
  by_cases h : e.actor = actor <;> simp [h]

theorem lastState?_own (log : List Entry) (actor : ProcessId) (tx : TransactionId) :
    lastState? (own log actor) actor tx = lastState? log actor tx := by
  rw [lastState?, history_own, lastState?]

theorem load_own (log : List Entry) (actor : ProcessId) (tx : TransactionId) :
    load (own log actor) tx = history log actor tx := by
  unfold history load own
  rw [List.filter_filter, List.filter_filter]
  exact List.filter_congr fun e _ => Bool.and_comm ..

/-! ## Scans -/

/-- The part of a scan that concerns a transaction is its history, if that is unfinished. -/
theorem load_scanIncomplete (log : List Entry) (actor : ProcessId) (tx : TransactionId) :
    load (scanIncomplete log actor) tx =
      if isIncomplete log actor tx then history log actor tx else [] := by
  unfold load scanIncomplete history load
  rw [List.filter_filter, List.filter_filter]
  by_cases h : isIncomplete log actor tx
  · rw [if_pos h]
    apply List.filter_congr
    intro e _
    by_cases ht : e.transaction = tx <;> simp [ht, h]
  · rw [if_neg h, List.filter_eq_nil_iff]
    intro e _
    by_cases ht : e.transaction = tx <;> simp [ht, h]

theorem scanIncomplete_own (log : List Entry) (actor : ProcessId) :
    scanIncomplete (own log actor) actor = scanIncomplete log actor := by
  unfold scanIncomplete isIncomplete lastState?
  simp only [history_own]
  rw [own, List.filter_filter]
  refine List.filter_congr fun e _ => ?_
  by_cases h : e.actor = actor <;> simp [h]

/-- A scan keeps of what the actor wrote the entries of its unfinished transactions. -/
theorem scanIncomplete_eq_filter (log : List Entry) (actor : ProcessId) :
    scanIncomplete log actor =
      (own log actor).filter fun e => isIncomplete log actor e.transaction := by
  rw [own, List.filter_filter]
  exact List.filter_congr fun e _ => Bool.and_comm ..

/-- Whether a transaction is unfinished depends on its history alone. -/
theorem isIncomplete_congr {log' : List Entry}
    (h : history log' actor tx = history log actor tx) :
    isIncomplete log' actor tx = isIncomplete log actor tx := by
  simp only [isIncomplete, lastState?, h]

theorem mem_transactions_iff {entries : List Entry} :
    tx ∈ transactions entries ↔ load entries tx ≠ [] := by
  rw [transactions, List.mem_eraseDups, List.mem_map, Ne, load, List.filter_eq_nil_iff]
  simp

private theorem nodup_eraseDups : (ids : List TransactionId) → ids.eraseDups.Nodup
  | [] => by simp
  | id :: ids => by
    rw [List.eraseDups_cons, List.nodup_cons, List.mem_eraseDups]
    exact ⟨by simp, nodup_eraseDups _⟩
termination_by ids => ids.length
decreasing_by simpa using Nat.lt_succ_of_le (List.length_filter_le _ _)

theorem nodup_transactions (entries : List Entry) : (transactions entries).Nodup :=
  nodup_eraseDups _

/-- The transactions of a scan are those that are unfinished. -/
theorem mem_transactions_scan_iff :
    tx ∈ transactions (scanIncomplete log actor) ↔ isIncomplete log actor tx = true := by
  rw [mem_transactions_iff, load_scanIncomplete]
  by_cases h : isIncomplete log actor tx
  · have : history log actor tx ≠ [] := by
      intro empty
      simp [isIncomplete, lastState?, empty] at h
    simp [h, this]
  · simp [h]

/-- A scan grouped by transaction consists of the unfinished histories. -/
theorem groupByTransaction_scan (log : List Entry) (actor : ProcessId) :
    groupByTransaction (scanIncomplete log actor) =
      (transactions (scanIncomplete log actor)).map (history log actor) := by
  unfold groupByTransaction
  apply List.map_congr_left
  intro tx h
  rw [load_scanIncomplete, if_pos (mem_transactions_scan_iff.1 h)]

/-! ## Working through histories -/

/-- A list worked through without an error. -/
theorem forall₂_of_mapM {ε α β : Type} {f : α → Except ε β} {l : List α} {l' : List β}
    (h : l.mapM f = .ok l') : List.Forall₂ (fun a b => f a = .ok b) l l' := by
  induction l generalizing l' with
  | nil =>
    cases h
    exact .nil
  | cons a l ih =>
    rw [List.mapM_cons] at h
    cases ha : f a with
    | error e => simp [ha, bind, Except.bind] at h
    | ok b =>
      cases hl : l.mapM f with
      | error e => simp [ha, hl, bind, Except.bind] at h
      | ok bs =>
        simp only [ha, hl, bind, Except.bind, pure, Except.pure, Except.ok.injEq] at h
        rw [← h]
        exact .cons ha (ih hl)

/-- A list of which each part can be worked through. -/
theorem exists_mapM {ε α β : Type} {f : α → Except ε β} {l : List α}
    (h : ∀ a ∈ l, ∃ b, f a = .ok b) : ∃ l', l.mapM f = .ok l' := by
  induction l with
  | nil => exact ⟨[], rfl⟩
  | cons a l ih =>
    obtain ⟨b, hb⟩ := h a (.head _)
    obtain ⟨bs, hbs⟩ := ih fun a' ha' => h a' (.tail _ ha')
    exact ⟨b :: bs, by simp [List.mapM_cons, hb, hbs, bind, Except.bind, pure, Except.pure]⟩

/-- A list that can not be worked through has something in it that fails so. -/
theorem exists_of_mapM_error {ε α β : Type} {f : α → Except ε β} {l : List α} {failure : ε}
    (h : l.mapM f = .error failure) : ∃ a ∈ l, f a = .error failure := by
  induction l with
  | nil => cases h
  | cons a l ih =>
    rw [List.mapM_cons] at h
    cases first : f a with
    | error failure' =>
      simp only [first, bind, Except.bind, Except.error.injEq] at h
      exact ⟨a, .head _, h ▸ first⟩
    | ok b =>
      cases others : l.mapM f with
      | error failure' =>
        simp only [first, others, bind, Except.bind, Except.error.injEq] at h
        obtain ⟨a', there, failed⟩ := ih (h ▸ others)
        exact ⟨a', .tail _ there, failed⟩
      | ok bs => simp [first, others, bind, Except.bind, pure, Except.pure] at h

theorem exists_of_forall₂ {α β : Type} {R : α → β → Prop} {l : List α} {l' : List β}
    (h : List.Forall₂ R l l') {b : β} (hb : b ∈ l') : ∃ a ∈ l, R a b := by
  induction h with
  | nil => simp at hb
  | @cons a b' l l' head _ ih =>
    rcases List.mem_cons.1 hb with rfl | hb
    · exact ⟨a, .head _, head⟩
    · obtain ⟨a', ha', hr⟩ := ih hb
      exact ⟨a', .tail _ ha', hr⟩

end AtomicCommit.Log
