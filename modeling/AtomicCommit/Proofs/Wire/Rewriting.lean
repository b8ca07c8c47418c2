import AtomicCommit.Proofs.Wire.Records

/-!
# Texts that are read and written again

Readers take many texts for one value: records as objects or as arrays, members in any order, words
as keys, identifiers in several forms, repeated keys. Writers know one text. Whatever is read can be
written, and the text of it nests no deeper than the one that was read, so that it is read in turn,
as the same value. From then on reading and writing change nothing any more.

## Main definitions

* `Format.Fits`: whatever is read has a written form for which there was room.
* `Format.Settles`: a text reads as a value, and what it reads as is written as the text.
* `Format.IsStable`: whatever is read settles once it is written.

## Main results

* `Format.isStable`: a format is stable if its readings fit and are read back.
* `Wire.formats_are_stable`: the formats of log entries, payloads, messages and operations.
-/

namespace AtomicCommit.Wire

open AtomicCommit.Json (Tree Literal Value Document)

namespace Format

variable {α β : Type}

/-- A value has a written form, and there is room for its nesting. -/
def FitsIn (f : Format α) (room : ℕ) (a : α) : Prop :=
  ∃ v, f.write a = some v ∧ v.depth ≤ room

/-- Whatever is read has a written form for which there was room. -/
def Fits (f : Format α) : Prop :=
  ∀ room tree a, f.read room tree = some a → f.FitsIn room a

/-- A text reads as a value, and what it reads as is written as the text. -/
structure Settles (f : Format α) (a : α) (text : List UInt8) : Prop where
  /-- It is the text of the value. -/
  written : f.encode? a = some text
  /-- It is accepted, as the value. -/
  accepted : f.decode? text = some a
  /-- What is read of it is written as it stands. -/
  again : ∀ a', f.decode? text = some a' → f.encode? a' = some text

/-- Of a text that is accepted, the value can be written, and the text of it settles; for values
about which nothing else is known than `integral`. -/
def IsStable (f : Format α) (integral : α → Prop) : Prop :=
  ∀ text a, f.decode? text = some a → integral a → ∃ text', f.Settles a text'

/-- A format is stable if what it reads fits, and what it writes is read back. -/
theorem isStable {f : Format α} {integral : α → Prop} (fits : f.Fits)
    (returns : ∀ a, integral a → f.Returns a) : f.IsStable integral := by
  intro text a read whole
  obtain ⟨tree, -, read⟩ := Option.bind_eq_some_iff.1 read
  obtain ⟨v, written, shallow⟩ := fits maxNesting tree a read
  obtain ⟨encoded, back⟩ := (returns a whole).decode? written
  rw [if_pos shallow] at back
  refine ⟨v.render, encoded, back, fun a' read' => ?_⟩
  obtain rfl : a = a' := Option.some.inj (back.symm.trans read')
  exact encoded

/-! ## Single values -/

theorem fits_text : text.Fits := by
  intro room tree s read
  exact ⟨.string s, rfl, Nat.zero_le room⟩

/-- Every natural number of 64 bits is written as an integer. -/
theorem natural_fitsIn (bound : ℕ) {n : ℕ} (small : n < Nat.pow 2 64) (room : ℕ) :
    (natural bound).FitsIn room n := by
  have inRange : -(Nat.pow 2 63 : Int) ≤ (n : Int) ∧ (n : Int) < (Nat.pow 2 64 : Int) := by
    simp only [Nat.pow_eq] at small ⊢
    omega
  refine ⟨.number (.integer ⟨n, inRange.1, inRange.2⟩), ?_, Nat.zero_le room⟩
  simp only [natural, Json.Integer.ofInt?, dif_pos inRange, Option.map_some]

/-- A type behind another fits if what is written of it fits. -/
theorem Fits.through {f : Format α} {ofValue : α → Option β} {toValue : β → α} (h : f.Fits)
    (back : ∀ a b room, ofValue a = some b → f.FitsIn room a → f.FitsIn room (toValue b)) :
    (f.through ofValue toValue).Fits := by
  intro room tree b read
  obtain ⟨a, read, value⟩ := Option.bind_eq_some_iff.1 read
  exact back a b room value (h room tree a read)

/-! ## Lists -/

/-- A list is written if all in it can be. -/
theorem exists_mapM_write {write : α → Option β} {P : β → Prop} {l : List α}
    (h : ∀ a ∈ l, ∃ b, write a = some b ∧ P b) : ∃ bs, l.mapM write = some bs ∧ ∀ b ∈ bs, P b := by
  induction l with
  | nil => exact ⟨[], rfl, by simp⟩
  | cons a l ih =>
    obtain ⟨b, written, holds⟩ := h a (.head _)
    obtain ⟨bs, others, all⟩ := ih fun a there => h a (.tail _ there)
    exact ⟨b :: bs, by simp [written, others], List.forall_mem_cons.2 ⟨holds, all⟩⟩

/-- What is made of a list is made of its members. -/
theorem forall_of_mapM {read : β → Option α} {P : α → Prop} {l : List β} {as : List α}
    (h : ∀ b a, read b = some a → P a) (made : l.mapM read = some as) : ∀ a ∈ as, P a := by
  induction l generalizing as with
  | nil =>
    cases made
    simp
  | cons b l ih =>
    rw [List.mapM_cons] at made
    obtain ⟨a, first, made⟩ := Option.bind_eq_some_iff.1 made
    obtain ⟨as, others, made⟩ := Option.bind_eq_some_iff.1 made
    cases made
    exact List.forall_mem_cons.2 ⟨h b a first, ih others⟩

theorem list_fitsIn {f : Format α} {l : List α} {room : ℕ} (h : ∀ a ∈ l, f.FitsIn room a) :
    f.list.FitsIn (room + 1) l := by
  obtain ⟨vs, written, shallow⟩ := exists_mapM_write h
  refine ⟨.array vs, by simp [list, written], ?_⟩
  rw [Value.depth, Nat.add_le_add_iff_right]
  exact Value.itemsDepth_le_iff.2 shallow

theorem Fits.list {f : Format α} (h : f.Fits) : f.list.Fits := by
  intro room tree l read
  simp only [Format.list] at read
  split at read
  · exact list_fitsIn (forall_of_mapM (h _) read)
  · cases read

/-! ## Records -/

/-- A record is built of its fields, for which there is room once it has taken one. -/
theorem built_of_readRecord {names : List String} {closed : Bool}
    {build : ℕ → List (Option Tree) → Option α} {room : ℕ} {tree : Tree} {a : α}
    (read : readRecord names closed build room tree = some a) :
    ∃ room' fields, room = room' + 1 ∧ build room' fields = some a := by
  cases room with
  | zero => cases read
  | succ room =>
    obtain ⟨fields, -, built⟩ := Option.bind_eq_some_iff.1 read
    exact ⟨room, fields, rfl, built⟩

/-- A value fits that is written as an object of members for which there is room. -/
theorem fitsIn_of_members {f : Format α} {room : ℕ} {a : α} (members : List (String × Value))
    (written : f.write a = some (.object members)) (shallow : ∀ m ∈ members, m.2.depth ≤ room) :
    f.FitsIn (room + 1) a := by
  refine ⟨.object members, written, ?_⟩
  rw [Value.depth, Nat.add_le_add_iff_right]
  exact Value.membersDepth_le_iff.2 shallow

/-- A field that is read fits. -/
theorem Fits.required {f : Format α} (h : f.Fits) {room : ℕ} {field : Option Tree} {a : α}
    (read : required f room field = some a) : f.FitsIn room a := by
  obtain ⟨tree, -, read⟩ := Option.bind_eq_some_iff.1 read
  exact h room tree a read

/-! ## Maps from processes -/

/-- What is put into a map is among its entries with what was there before. -/
theorem fitsIn_of_readEntries {f : Format α} (h : f.Fits) {room : ℕ}
    {found m : SortedMap ProcessId α} {trees : List (Literal × Tree)}
    (before : ∀ p a, found.get? p = some a → f.FitsIn room a)
    (read : readEntries f room found trees = some m) :
    ∀ p a, m.get? p = some a → f.FitsIn room a := by
  induction trees generalizing found with
  | nil =>
    cases read
    exact before
  | cons member rest ih =>
    unfold readEntries at read
    split at read
    · rename_i key value _ first
      refine ih (fun p a there => ?_) read
      rw [SortedMap.get?_insert] at there
      split at there
      · cases there
        exact h room _ _ first
      · exact before p a there
    · cases read

theorem Fits.byProcess {f : Format α} (h : f.Fits) : (byProcess f).Fits := by
  intro room tree m read
  simp only [Format.byProcess] at read
  split at read
  · rename_i room members
    have each : ∀ e ∈ m.entries, ∃ member, (f.write e.2).map (e.1.name, ·) = some member ∧
        member.2.depth ≤ room := by
      intro e there
      obtain ⟨v, written, shallow⟩ := fitsIn_of_readEntries h (by simp) read e.1 e.2
        (SortedMap.mem_entries_iff.1 there)
      exact ⟨(e.1.name, v), by rw [written]; rfl, shallow⟩
    obtain ⟨members, written, shallow⟩ := exists_mapM_write each
    exact fitsIn_of_members members (by simp [Format.byProcess, written]) shallow
  · cases read

end Format

/-! ## Values -/

theorem fits_processId : processId.Fits :=
  Format.fits_text.through fun _ p room _ _ => ⟨.string p.name, rfl, Nat.zero_le room⟩

/-- Bytes are written as an array of numbers, whatever they are. -/
theorem fits_preparedPayload : preparedPayload.Fits := by
  intro room tree p read
  obtain ⟨ns, read, -⟩ := Option.bind_eq_some_iff.1 read
  cases room with
  | zero => cases read
  | succ room =>
    refine Format.list_fitsIn fun n there => ?_
    obtain ⟨b, -, rfl⟩ := List.mem_map.1 there
    exact Format.natural_fitsIn _ (Nat.lt_of_lt_of_le b.toNat_lt (by decide)) room

/-- A time is written if it is none before the epoch. -/
theorem timestamp_fitsIn {t : Timestamp} (late : ¬t.nanos < 0) (room : ℕ) :
    timestamp.FitsIn (room + 1) t := by
  obtain ⟨-, few, small⟩ := parts_of_nonneg late
  obtain ⟨seconds, first, shallow⟩ := Format.natural_fitsIn (Nat.pow 2 64) few room
  obtain ⟨nanos, second, shallow'⟩ := Format.natural_fitsIn (Nat.pow 2 32)
    (Nat.lt_trans small (by decide)) room
  refine Format.fitsIn_of_members [("secs_since_epoch", seconds), ("nanos_since_epoch", nanos)]
    ?_ ?_
  · simp [timestamp, late, first, second]
  · simp [shallow, shallow']

/-- What seconds and nanoseconds make up is no time before the epoch. -/
theorem nonneg_of_ofParts? {seconds nanos : ℕ} {t : Timestamp}
    (made : Timestamp.ofParts? seconds nanos = some t) : ¬t.nanos < 0 := by
  simp only [Timestamp.ofParts?, Timestamp.ofNanos?, nanosPerSecond] at made
  split at made
  · cases made
    dsimp only
    omega
  · cases made

theorem fits_timestamp : timestamp.Fits := by
  intro room tree t read
  obtain ⟨room, fields, rfl, built⟩ := Format.built_of_readRecord read
  split at built
  · simp only [Option.bind_eq_bind, Option.bind_eq_some_iff] at built
    obtain ⟨seconds, -, nanos, -, built⟩ := built
    exact timestamp_fitsIn (nonneg_of_ofParts? built) room
  · cases built

/-! ## Records -/

/-- Missing data is null, for which there always is room. -/
theorem fits_operation : operation.Fits := by
  intro room tree o read
  obtain ⟨room, fields, rfl, built⟩ := Format.built_of_readRecord read
  split at built
  · rename_i kind resource data
    simp only [Option.bind_eq_bind, Option.bind_eq_some_iff, Option.pure_def,
      Option.some.injEq] at built
    obtain ⟨kind, -, resource, -, d, third, rfl⟩ := built
    have shallow : d.value.depth ≤ room := by
      cases data with
      | none =>
        cases third
        exact Nat.zero_le room
      | some tree => exact Json.Document.depth_le_of_ofTree? third
    refine Format.fitsIn_of_members _ rfl ?_
    simpa [Value.depth] using shallow
  · cases built

theorem fits_prepareMessage : prepareMessage.Fits := by
  intro room tree m read
  obtain ⟨room, fields, rfl, built⟩ := Format.built_of_readRecord read
  split at built
  · simp only [Option.bind_eq_bind, Option.bind_eq_some_iff, Option.pure_def,
      Option.some.injEq] at built
    obtain ⟨transaction, -, coordinator, -, held, third, rfl⟩ := built
    obtain ⟨work, written, shallow⟩ := (Format.Fits.list fits_operation).required third
    refine Format.fitsIn_of_members
      [("transaction_id", .string transaction.text),
        ("coordinator", .string coordinator.name), ("operations", work)] ?_ ?_
    · simp [prepareMessage, operations, written]
    · simpa [Value.depth] using shallow
  · cases built

theorem fits_decisionMessage : decisionMessage.Fits := by
  intro room tree m read
  obtain ⟨room, fields, rfl, built⟩ := Format.built_of_readRecord read
  refine Format.fitsIn_of_members _ rfl ?_
  simp [Value.depth]

/-- A payload fits that is written as an object with a single member, the fields of its case. -/
theorem payload_fitsIn {p : Payload} {room : ℕ} (name : String) (fields : List (String × Value))
    (written : payload.write p = some (tagged name fields))
    (shallow : ∀ m ∈ fields, m.2.depth ≤ room) : payload.FitsIn (room + 2) p := by
  refine Format.fitsIn_of_members _ written ?_
  rw [List.forall_mem_singleton, Value.depth, Nat.add_le_add_iff_right]
  exact Value.membersDepth_le_iff.2 shallow

/-- The payload of every case fits. -/
theorem fits_readPayload {room : ℕ} {name : String} {tree : Tree} {p : Payload}
    (read : readPayload room name tree = some p) : payload.FitsIn (room + 1) p := by
  unfold readPayload at read
  split at read
  case h_1 =>
    cases read
    exact ⟨_, rfl, Nat.zero_le _⟩
  case h_2 =>
    obtain ⟨room, fields, rfl, built⟩ := Format.built_of_readRecord read
    split at built <;> simp only [Option.bind_eq_bind, Option.bind_eq_some_iff, Option.pure_def,
      Option.some.injEq, reduceCtorEq] at built
    obtain ⟨participants, first, assigned, second, deadline, third, rfl⟩ := built
    obtain ⟨names, written, shallow⟩ := fits_processId.list.required first
    obtain ⟨work, written', shallow'⟩ := fits_operation.list.byProcess.required second
    obtain ⟨time, written'', shallow''⟩ := fits_timestamp.required third
    refine payload_fitsIn "begin" [("participants", names), ("operations", work),
      ("deadline", time)] ?_ ?_
    · simp [payload, operations, written, written', written'']
    · simp [shallow, shallow', shallow'']
  case h_6 =>
    obtain ⟨room, fields, rfl, built⟩ := Format.built_of_readRecord read
    split at built <;> simp only [Option.bind_eq_bind, Option.bind_eq_some_iff, Option.pure_def,
      Option.some.injEq, reduceCtorEq] at built
    obtain ⟨coordinator, -, prepared, second, rfl⟩ := built
    obtain ⟨bytes, written, shallow⟩ := fits_preparedPayload.required second
    refine payload_fitsIn "prepared" [("coordinator", .string coordinator.name),
      ("payload", bytes)] ?_ ?_
    · simp [payload, written]
    · simp [shallow, Value.depth]
  -- a process with a vote, or one or the other of a process and a decision: nothing nests
  case h_3 | h_7 =>
    obtain ⟨room, fields, rfl, built⟩ := Format.built_of_readRecord read
    split at built <;> simp only [Option.bind_eq_bind, Option.bind_eq_some_iff, Option.pure_def,
      Option.some.injEq, reduceCtorEq] at built
    obtain ⟨process, -, cast, -, rfl⟩ := built
    exact payload_fitsIn _ _ rfl (by simp [Value.depth])
  case h_4 | h_5 | h_8 =>
    obtain ⟨room, fields, rfl, built⟩ := Format.built_of_readRecord read
    split at built <;> simp only [Option.bind_eq_bind, Option.bind_eq_some_iff, Option.pure_def,
      Option.some.injEq, reduceCtorEq] at built
    obtain ⟨field, -, rfl⟩ := built
    exact payload_fitsIn _ _ rfl (by simp [Value.depth])
  case h_9 => cases read

theorem fits_payload : payload.Fits := by
  intro room tree p read
  simp only [payload] at read
  split at read
  · split at read
    · cases read
      exact ⟨_, rfl, Nat.zero_le _⟩
    · cases read
  · obtain ⟨name, -, read⟩ := Option.bind_eq_some_iff.1 read
    exact fits_readPayload read
  · cases read

theorem fits_entry : entry.Fits := by
  intro room tree e read
  obtain ⟨room, fields, rfl, built⟩ := Format.built_of_readRecord read
  split at built <;> simp only [Option.bind_eq_bind, Option.bind_eq_some_iff, Option.pure_def,
    Option.some.injEq, reduceCtorEq] at built
  obtain ⟨transaction, -, actor, -, previous, -, state, -, held, fifth, time, sixth, rfl⟩ := built
  obtain ⟨data, written, shallow⟩ := fits_payload.required fifth
  obtain ⟨clock, written', shallow'⟩ := fits_timestamp.required sixth
  refine Format.fitsIn_of_members [("transaction_id", .string transaction.text),
    ("actor", .string actor.name),
    ("from_state", (previous.map fun s => Value.string s.word).getD .null),
    ("to_state", .string state.word), ("payload", data), ("timestamp", clock)] ?_ ?_
  · simp [entry, written, written']
  · cases previous <;> simp [shallow, shallow', Value.depth]

/-! ## Stability -/

/-- **What is read settles once it is written.** Let a text, in whatever form, be accepted as a log
entry, a payload, a message that asks for a vote, a message that tells a decision, or an operation,
and let the numbers in its data be integers. Then the value can be written, what is written is
accepted and reads as exactly this value, and is written again as it stands. -/
theorem formats_are_stable :
    entry.IsStable (fun e => ∀ o ∈ e.payload.operations, o.data.value.isIntegral = true) ∧
    payload.IsStable (fun p => ∀ o ∈ p.operations, o.data.value.isIntegral = true) ∧
    prepareMessage.IsStable (fun m => ∀ o ∈ m.operations, o.data.value.isIntegral = true) ∧
    decisionMessage.IsStable (fun _ => True) ∧
    operation.IsStable (fun o => o.data.value.isIntegral = true) := by
  refine ⟨?entry, ?payload, ?prepare, ?decision, ?operation⟩
  case entry => exact Format.isStable fits_entry fun e => returns_entry
  case payload => exact Format.isStable fits_payload fun p => returns_payload
  case prepare => exact Format.isStable fits_prepareMessage fun m => returns_prepareMessage
  case decision =>
    exact Format.isStable fits_decisionMessage fun m _ => returns_decisionMessage m
  case operation => exact Format.isStable fits_operation fun o => returns_operation

/-- An entry as no writer gives it: the record is an array, the identifier has capitals and no
hyphens, a state is a key, members stand in another order or are unknown, keys are repeated, and
nanoseconds are to be carried. -/
def loose : List UInt8 := Text.utf8 <|
  "[\"67E5504410B1426F9247BB680E5FE0C8\", \"c\", null, \x7b\"INIT\": null\x7d, " ++
  "\x7b\"begin\": \x7b\"deadline\": [5, 1000000007], \"participants\": [\"p\"], \"more\": 1.5, " ++
  "\"operations\": \x7b\"p\": [], \"p\": [[\"credit\", \"account/7\", " ++
  "\x7b\"b\": [1, -2], \"a\": null, \"b\": \"x\"\x7d]]\x7d\x7d\x7d, [5, 1000000007]]"

/-- The text that is written of it. -/
def settled : List UInt8 := Text.utf8 <|
  "\x7b\"transaction_id\":\"67e55044-10b1-426f-9247-bb680e5fe0c8\",\"actor\":\"c\"," ++
  "\"from_state\":null,\"to_state\":\"INIT\"," ++
  "\"payload\":\x7b\"begin\":\x7b\"participants\":[\"p\"]," ++
  "\"operations\":\x7b\"p\":[\x7b\"type\":\"credit\",\"resource\":\"account/7\"," ++
  "\"data\":\x7b\"a\":null,\"b\":\"x\"\x7d\x7d]\x7d,\"deadline\":\x7b\"secs_since_epoch\":6," ++
  "\"nanos_since_epoch\":7\x7d\x7d\x7d,\"timestamp\":\x7b\"secs_since_epoch\":6," ++
  "\"nanos_since_epoch\":7\x7d\x7d"

theorem formats_are_stable_loose :
    ∃ e, entry.decode? loose = some e ∧ entry.Settles e settled := by
  have accepted : (entry.decode? loose).isSome = true := by decide +kernel
  obtain ⟨e, read⟩ := Option.isSome_iff_exists.1 accepted
  have integral : (entry.decode? loose).all fun e =>
      e.payload.operations.all fun o => o.data.value.isIntegral := by decide +kernel
  have text : (entry.decode? loose).bind entry.encode? = some settled := by decide +kernel
  rw [read] at integral text
  obtain ⟨text', settles⟩ := formats_are_stable.1 loose e read (by simpa using integral)
  obtain rfl : text' = settled := Option.some.inj (settles.written.symm.trans text)
  exact ⟨e, read, settles⟩

end AtomicCommit.Wire
