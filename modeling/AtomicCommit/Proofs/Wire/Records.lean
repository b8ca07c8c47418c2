import AtomicCommit.Proofs.Transaction.Id
import AtomicCommit.Proofs.Wire.Format
import AtomicCommit.Wire.Records

/-!
# Records that are read back

Identifiers, words, bytes, times, operations, payloads and log entries are read back from what is
written of them, as far as there is room for the nesting of their data.

## Main definitions

* `Payload.operations`: the operations that a payload holds.

## Main results

* `Wire.returns_entry`: an entry is read back just if there is room for what is written of it.
* `Wire.depth_entry_le_iff`: that is when the data of its operations nest little enough.
-/

namespace AtomicCommit

/-- The operations that a payload holds. -/
def Payload.operations : Payload → List Operation
  | .begin _ assigned _ => assigned.values.flatten
  | _ => []

namespace Wire

open AtomicCommit.Json (Tree Value Document)

/-! ## Single values -/

theorem returns_transactionId (id : TransactionId) : transactionId.Returns id :=
  (Format.returns_text id.text).through id.ofText?_text

theorem returns_processId (p : ProcessId) : processId.Returns p :=
  (Format.returns_text p.name).through rfl

theorem returns_vote (v : Vote) : vote.Returns v :=
  Format.returns_enumeration (by cases v <;> decide)

theorem returns_decision (d : Decision) : decision.Returns d :=
  Format.returns_enumeration (by cases d <;> decide)

theorem returns_state (s : State) : state.Returns s :=
  Format.returns_enumeration (by cases s <;> decide)

theorem returns_preparedPayload (p : PreparedPayload) : preparedPayload.Returns p := by
  refine Format.Returns.through (Format.Returns.list fun n there => ?_) ?_
  · obtain ⟨b, -, rfl⟩ := List.mem_map.1 there
    exact Format.returns_natural b.toNat_lt
  · simp [Function.comp_def]

theorem returns_document {d : Document} (integral : d.value.isIntegral = true) :
    document.Returns d := by
  rintro v ⟨⟩
  exact ⟨integral, d.ofTree?_tree integral⟩

section Times

variable {t : Timestamp}

theorem parts_of_nonneg (late : ¬t.nanos < 0) :
    (t.seconds.toNat : Int) * nanosPerSecond + t.subsecond = t.nanos ∧
      t.seconds.toNat < Nat.pow 2 64 ∧ t.subsecond < Nat.pow 2 32 := by
  have bound := t.nanos_lt
  rw [Timestamp.seconds, Timestamp.subsecond, Int.fdiv_eq_ediv_of_nonneg _ (by decide),
    Int.fmod_eq_emod_of_nonneg _ (by decide)]
  simp only [nanosPerSecond, Nat.pow_eq] at bound ⊢
  omega

/-- Seconds and nanoseconds make up the time they are taken from. -/
theorem ofParts?_of_nonneg (late : ¬t.nanos < 0) :
    Timestamp.ofParts? t.seconds.toNat t.subsecond = some t := by
  rw [Timestamp.ofParts?, (parts_of_nonneg late).1, Timestamp.ofNanos?,
    dif_pos ⟨t.le_nanos, t.nanos_lt⟩]

theorem returns_timestamp (t : Timestamp) : timestamp.Returns t := by
  intro v written
  by_cases late : t.nanos < 0
  · simp [timestamp, late] at written
  obtain ⟨-, few, small⟩ := parts_of_nonneg late
  have back := ofParts?_of_nonneg late
  simp only [timestamp, late, if_false] at written
  obtain ⟨seconds, first, written⟩ := Option.bind_eq_some_iff.1 written
  obtain ⟨nanos, second, written⟩ := Option.bind_eq_some_iff.1 written
  cases written
  obtain ⟨integral, read⟩ := Format.returns_natural few seconds first
  obtain ⟨integral', read'⟩ := Format.returns_natural small nanos second
  refine ⟨by simp [Value.isIntegral, Value.membersIntegral, integral, integral'], ?_⟩
  refine Format.readRecord_object rfl (by decide) fun room => ?_
  simp only [List.map_cons, List.map_nil, Format.required_some, read, read', Option.bind_eq_bind,
    Format.ite_some_bind, back, Value.membersDepth, Nat.max_le, Nat.zero_le, and_true, ite_and]

end Times

section Texts

variable (room : ℕ)

@[simp] theorem read_text (s : String) : Format.text.read room (Value.string s).tree = some s :=
  (Format.returns_text s).read_string rfl room

@[simp] theorem read_transactionId (id : TransactionId) :
    transactionId.read room (Value.string id.text).tree = some id :=
  (returns_transactionId id).read_string rfl room

@[simp] theorem read_processId (p : ProcessId) :
    processId.read room (Value.string p.name).tree = some p :=
  (returns_processId p).read_string rfl room

@[simp] theorem read_vote (v : Vote) : vote.read room (Value.string v.word).tree = some v :=
  (returns_vote v).read_string rfl room

@[simp] theorem read_decision (d : Decision) :
    decision.read room (Value.string d.word).tree = some d :=
  (returns_decision d).read_string rfl room

@[simp] theorem read_state (s : State) : state.read room (Value.string s.word).tree = some s :=
  (returns_state s).read_string rfl room

end Texts

/-! ## Records -/

theorem returns_operation {o : Operation} (integral : o.data.value.isIntegral = true) :
    operation.Returns o := by
  rintro v ⟨⟩
  have read := (returns_document integral _ rfl).2
  refine ⟨by simp [Value.isIntegral, Value.membersIntegral, integral], ?_⟩
  refine Format.readRecord_object rfl (by decide) fun room => ?_
  simp [read, Format.ite_some_bind, Value.membersDepth, Value.depth]

/-- An object with a single member is read as the payload of its name. -/
theorem read_tagged {name : String} {fields : List (String × Value)} {p : Payload}
    (read : ∀ room, readPayload room name (Value.object fields).tree =
      if (Value.object fields).depth ≤ room then some p else none) (room : ℕ) :
    payload.read room (tagged name fields).tree =
      if (tagged name fields).depth ≤ room then some p else none := by
  cases room with
  | zero => simp [payload, tagged, Value.tree, Value.memberTrees, Value.depth]
  | succ room =>
    have depth : (tagged name fields).depth = (Value.object fields).depth + 1 := by
      simp [tagged, Value.depth, Value.membersDepth]
    rw [depth, tagged, Value.tree]
    simp only [Value.memberTrees, payload, Json.text?_pieces, Option.bind_some, read,
      Nat.add_le_add_iff_right]

theorem returns_payload {p : Payload}
    (integral : ∀ o ∈ p.operations, o.data.value.isIntegral = true) : payload.Returns p := by
  intro v written
  cases p with
  | none =>
    cases written
    simp [Value.isIntegral, payload, Value.tree, Value.depth, Json.text?_pieces]
  | begin participants assigned deadline =>
    obtain ⟨names, first, written⟩ := Option.bind_eq_some_iff.1 written
    obtain ⟨work, second, written⟩ := Option.bind_eq_some_iff.1 written
    obtain ⟨time, third, written⟩ := Option.bind_eq_some_iff.1 written
    cases written
    have listed : ∀ e ∈ assigned.entries, operations.Returns e.2 := fun e there =>
      Format.Returns.list fun o held => returns_operation <| integral o <|
        List.mem_flatten.2 ⟨e.2, List.mem_map_of_mem there, held⟩
    obtain ⟨integral₁, read₁⟩ :=
      Format.Returns.list (fun p _ => returns_processId p) names first
    obtain ⟨integral₂, read₂⟩ := Format.Returns.byProcess listed work second
    obtain ⟨integral₃, read₃⟩ := returns_timestamp deadline time third
    refine ⟨?_, read_tagged fun room => ?_⟩
    · simp [tagged, Value.isIntegral, Value.membersIntegral, integral₁, integral₂, integral₃]
    refine Format.readRecord_object rfl (by simp) (fun room => ?_) room
    simp [read₁, read₂, read₃, Format.ite_some_bind, Value.membersDepth, ite_and]
  | prepared coordinator prepared =>
    obtain ⟨bytes, first, written⟩ := Option.bind_eq_some_iff.1 written
    cases written
    obtain ⟨integral, read⟩ := returns_preparedPayload prepared bytes first
    refine ⟨?_, read_tagged fun room => ?_⟩
    · simp [tagged, Value.isIntegral, Value.membersIntegral, integral]
    refine Format.readRecord_object rfl (by simp) (fun room => ?_) room
    simp [read, Format.ite_some_bind, Value.membersDepth, Value.depth]
  | vote | decision | acknowledged | voted | resolved =>
    cases written
    refine ⟨rfl, read_tagged fun room => ?_⟩
    refine Format.readRecord_object rfl (by simp) (fun room => ?_) room
    simp [Value.membersDepth, Value.depth]

/-- The state before an entry is read back, or that there was none. -/
theorem nullable_previous (previous : Option State) (room : ℕ) :
    Format.nullable state room
      (some ((previous.map fun s => Value.string s.word).getD .null).tree) = some previous := by
  cases previous with
  | none => rfl
  | some s =>
    show (state.read room (Value.string s.word).tree).map some = some (some s)
    rw [read_state, Option.map_some]

theorem returns_entry {e : Entry}
    (integral : ∀ o ∈ e.payload.operations, o.data.value.isIntegral = true) :
    entry.Returns e := by
  intro v written
  obtain ⟨data, first, written⟩ := Option.bind_eq_some_iff.1 written
  obtain ⟨time, second, written⟩ := Option.bind_eq_some_iff.1 written
  cases written
  obtain ⟨integral₁, read₁⟩ := returns_payload integral data first
  obtain ⟨integral₂, read₂⟩ := returns_timestamp e.time time second
  have plain : ((e.previous.map fun s => Value.string s.word).getD .null).isIntegral = true ∧
      ((e.previous.map fun s => Value.string s.word).getD .null).depth = 0 := by
    cases e.previous <;> simp [Value.isIntegral, Value.depth]
  constructor
  · simp [Value.isIntegral, Value.membersIntegral, integral₁, integral₂, plain]
  refine Format.readRecord_object rfl (by simp) fun room => ?_
  simp [read₁, read₂, nullable_previous, Format.ite_some_bind, Value.membersDepth, Value.depth,
    plain, ite_and]

theorem returns_prepareMessage {m : PrepareMessage}
    (integral : ∀ o ∈ m.operations, o.data.value.isIntegral = true) : prepareMessage.Returns m := by
  intro v written
  obtain ⟨work, listed, written⟩ := Option.bind_eq_some_iff.1 written
  cases written
  have returns : operations.Returns m.operations :=
    Format.Returns.list fun o there => returns_operation (integral o there)
  obtain ⟨integral, read⟩ := returns work listed
  constructor
  · simp [Value.isIntegral, Value.membersIntegral, integral]
  refine Format.readRecord_object rfl (by decide) fun room => ?_
  simp [read, Format.ite_some_bind, Value.membersDepth, Value.depth]

theorem returns_decisionMessage (m : DecisionMessage) : decisionMessage.Returns m := by
  rintro v ⟨⟩
  refine ⟨rfl, Format.readRecord_object rfl (by decide) fun room => ?_⟩
  simp [Value.membersDepth, Value.depth]

/-! ## Nesting -/

section Nesting

variable {room : ℕ} {v : Value}

theorem depth_natural {bound n : ℕ} (written : (Format.natural bound).write n = some v) :
    v.depth = 0 := by
  simp only [Format.natural, Option.map_eq_some_iff] at written
  obtain ⟨i, -, rfl⟩ := written
  rfl

theorem depth_timestamp {t : Timestamp} (written : timestamp.write t = some v) : v.depth = 1 := by
  by_cases late : t.nanos < 0
  · simp [timestamp, late] at written
  simp only [timestamp, late, if_false] at written
  obtain ⟨seconds, first, written⟩ := Option.bind_eq_some_iff.1 written
  obtain ⟨nanos, second, written⟩ := Option.bind_eq_some_iff.1 written
  cases written
  simp [Value.depth, Value.membersDepth, depth_natural first, depth_natural second]

theorem depth_operation_le_iff {o : Operation} (written : operation.write o = some v) :
    v.depth ≤ room + 1 ↔ o.data.value.depth ≤ room := by
  cases written
  simp [Value.depth, Value.membersDepth]

/-- Operations by process nest three deeper than their data. -/
theorem depth_operations_le_iff {assigned : SortedMap ProcessId (List Operation)}
    (written : (Format.byProcess operations).write assigned = some v) :
    v.depth ≤ room + 3 ↔ ∀ o ∈ assigned.values.flatten, o.data.value.depth ≤ room := by
  have listed : ∀ l v, operations.write l = some v →
      (v.depth ≤ room + 2 ↔ ∀ o ∈ l, o.data.value.depth ≤ room) := fun _ _ =>
    Format.depth_list_le_iff fun _ _ _ => depth_operation_le_iff
  have mapped : v.depth ≤ room + 3 ↔
      ∀ e ∈ assigned.entries, ∀ o ∈ e.2, o.data.value.depth ≤ room :=
    Format.depth_byProcess_le_iff (P := fun l => ∀ o ∈ l, o.data.value.depth ≤ room)
      (fun e _ => listed e.2) written
  rw [mapped]
  simp only [SortedMap.values, List.mem_flatten, List.mem_map]
  constructor
  · rintro shallow o ⟨l, ⟨e, there, rfl⟩, held⟩
    exact shallow e there o held
  · exact fun shallow e there o held => shallow o ⟨e.2, ⟨e, there, rfl⟩, held⟩

/-- A payload nests five deeper than the data of its operations. -/
theorem depth_payload_le_iff {p : Payload} (written : payload.write p = some v) :
    v.depth ≤ room + 5 ↔ ∀ o ∈ p.operations, o.data.value.depth ≤ room := by
  cases p with
  | begin participants assigned deadline =>
    obtain ⟨names, first, written⟩ := Option.bind_eq_some_iff.1 written
    obtain ⟨work, second, written⟩ := Option.bind_eq_some_iff.1 written
    obtain ⟨time, third, written⟩ := Option.bind_eq_some_iff.1 written
    cases written
    have named : names.depth ≤ 0 + 1 ↔ ∀ p ∈ participants, True :=
      Format.depth_list_le_iff (fun _ _ v written => by cases written; simp [Value.depth]) first
    have named := named.2 fun _ _ => trivial
    rw [Payload.operations, ← depth_operations_le_iff second]
    simp only [tagged, Value.depth, Value.membersDepth, depth_timestamp third]
    omega
  | prepared coordinator prepared =>
    obtain ⟨bytes, first, written⟩ := Option.bind_eq_some_iff.1 written
    cases written
    have flat : bytes.depth ≤ 0 + 1 ↔ ∀ n ∈ prepared.bytes.map UInt8.toNat, True :=
      Format.depth_list_le_iff (fun _ _ v written => by simp [depth_natural written]) first
    have flat := flat.2 fun _ _ => trivial
    simp only [tagged, Value.depth, Value.membersDepth, Payload.operations, List.not_mem_nil]
    simp only [false_implies, implies_true, iff_true]
    omega
  | none | vote | decision | acknowledged | voted | resolved =>
    cases written
    simp [tagged, Value.depth, Value.membersDepth, Payload.operations]

/-- An entry nests six deeper than the data of its operations. -/
theorem depth_entry_le_iff {e : Entry} (written : entry.write e = some v) :
    v.depth ≤ room + 6 ↔ ∀ o ∈ e.payload.operations, o.data.value.depth ≤ room := by
  obtain ⟨data, first, written⟩ := Option.bind_eq_some_iff.1 written
  obtain ⟨time, second, written⟩ := Option.bind_eq_some_iff.1 written
  cases written
  have plain : ((e.previous.map fun s => Value.string s.word).getD .null).depth = 0 := by
    cases e.previous <;> rfl
  have inside : data.depth ≤ room + 5 ↔ _ := depth_payload_le_iff first
  simp [Value.depth, Value.membersDepth, depth_timestamp second, plain, ← inside]

end Nesting

end Wire

end AtomicCommit
