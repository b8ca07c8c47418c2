import AtomicCommit.Proofs.Log.File
import AtomicCommit.Proofs.Wire.Records

/-!
# Entries that a log accepts and can not read

Writing an entry puts no bound on the nesting of the data in its operations, but reading does: an
entry is itself six containers deep around them, and no more than `Wire.Format.maxNesting` are read.
Of entries that hold integers for numbers, those that nest less are all read back; a single other
one makes the log impossible to open.

## Main definitions

* `Entry.IsIntegral`, `Entry.IsShallow`: what the data in the operations of an entry are like.
* `Log.File.store`: a list of entries is appended to a new file.

## Main results

* `Frame.readable_iff`: an entry is read back just if it is shallow.
* `Log.File.stored_entries_return_iff`: a log is opened again with its entries just if all are
  shallow.
-/

namespace AtomicCommit

/-- The numbers in the data of its operations are integers. -/
def Entry.IsIntegral (e : Entry) : Prop :=
  ∀ o ∈ e.payload.operations, o.data.value.isIntegral = true

/-- The data of its operations nest so little that the entry around them can be read. -/
def Entry.IsShallow (e : Entry) : Prop :=
  ∀ o ∈ e.payload.operations, o.data.value.depth ≤ 121

instance (e : Entry) : Decidable e.IsIntegral := inferInstanceAs (Decidable (∀ _ ∈ _, _))

instance (e : Entry) : Decidable e.IsShallow := inferInstanceAs (Decidable (∀ _ ∈ _, _))

namespace Frame

variable {e : Entry} {es : List Entry} {frame body bytes : List UInt8}

/-- The text of an entry is read back just if it is shallow. -/
theorem decode?_encode? (integral : e.IsIntegral) (written : Wire.entry.encode? e = some body) :
    Wire.entry.decode? body = if e.IsShallow then some e else none := by
  obtain ⟨v, form, rfl⟩ := Option.map_eq_some_iff.1 written
  have fits : v.depth ≤ Wire.Format.maxNesting ↔ e.IsShallow := Wire.depth_entry_le_iff form
  rw [((Wire.returns_entry integral).decode? form).2]
  simp only [fits]

/-- An entry that has a frame is read back just if it is shallow. -/
theorem readable_iff (integral : e.IsIntegral) (encoded : encode e = .ok frame) :
    Readable e ↔ e.IsShallow := by
  obtain ⟨body, written, -⟩ := encode_eq_ok_iff.1 encoded
  have read := decode?_encode? integral written
  constructor
  · intro readable
    by_contra deep
    rw [readable body written, if_neg deep] at read
    cases read
  · intro shallow body' written'
    rw [written] at written'
    cases written'
    rw [read, if_pos shallow]

/-- The frame of an entry that is not shallow is damaged, as it seems. -/
theorem decodeFrom_deep (integral : e.IsIntegral) (encoded : encode e = .ok frame)
    (deep : ¬e.IsShallow) (offset : Nat) (rest : List UInt8) :
    decodeFrom offset (frame ++ rest) = .error (.undecodable offset) := by
  obtain ⟨body, written, small, rfl⟩ := encode_eq_ok_iff.1 encoded
  have read := decode?_encode? integral written
  rw [if_neg deep] at read
  rw [decodeFrom_of_some (find?_wrap small rest)]
  simp only [Found.entry, ne_eq, not_true_eq_false, if_false, read]
  rfl

/-- No frames are read if one entry is not shallow. -/
theorem decodeFrom_frames_deep (h : Frames es bytes) (integral : ∀ e ∈ es, e.IsIntegral)
    (deep : ¬∀ e ∈ es, e.IsShallow) (offset : Nat) :
    ∃ place, decodeFrom offset bytes = .error (.undecodable place) := by
  -- The entries before the first that is not shallow are read.
  induction h generalizing offset with
  | nil => simp at deep
  | @cons e frame es bytes encoded _ ih =>
    have own := integral e (.head _)
    by_cases shallow : e.IsShallow
    · have others : ¬∀ e ∈ es, e.IsShallow := fun all =>
        deep (List.forall_mem_cons.2 ⟨shallow, all⟩)
      obtain ⟨place, read⟩ :=
        ih (fun e there => integral e (.tail _ there)) others (offset + frame.length)
      rw [decodeFrom_frame ((readable_iff own encoded).2 shallow) encoded, read]
      exact ⟨place, rfl⟩
    · exact ⟨offset, decodeFrom_deep own encoded shallow offset bytes⟩

theorem Frames.encoded (h : Frames es bytes) (there : e ∈ es) : ∃ frame, encode e = .ok frame := by
  induction h with
  | nil => cases there
  | cons encoded _ ih =>
    rcases List.mem_cons.1 there with rfl | later
    · exact ⟨_, encoded⟩
    · exact ih later

end Frame

namespace Log.File

variable {file : File} {es : List Entry}

/-- Appends entries that are all stored. -/
def storeFrom (file : File) : List Entry → Except LogError File
  | [] => .ok file
  | e :: es =>
    match file.append (fun _ => .complete) e with
    | (.ok (), file) => file.storeFrom es
    | (.error failure, _) => .error failure

/-- Appends entries to a new file. -/
def store (es : List Entry) : Except LogError File := do
  let file ← ofBytes []
  file.storeFrom es

theorem frames_of_storeFrom {es' : List Entry} {file' : File} (frames : Frame.Frames es file.bytes)
    (length : file.length = file.bytes.length) (entries : file.entries = es)
    (stored : file.storeFrom es' = .ok file') :
    Frame.Frames (es ++ es') file'.bytes ∧ file'.length = file'.bytes.length ∧
      file'.entries = es ++ es' := by
  induction es' generalizing file es with
  | nil =>
    cases stored
    simp [frames, length, entries]
  | cons e es' ih =>
    unfold storeFrom append at stored
    cases encoded : Frame.encode e with
    | error failure => simp [encoded] at stored
    | ok frame =>
      simp only [encoded] at stored
      have step := ih (frames.snoc encoded) (by simp [length]) (by simp [entries]) stored
      rwa [List.append_assoc, List.singleton_append] at step

theorem frames_of_store (stored : store es = .ok file) : Frame.Frames es file.bytes ∧
    file = { bytes := file.bytes, length := file.bytes.length, entries := es } := by
  rw [store, ofBytes_nil] at stored
  obtain ⟨frames, length, entries⟩ := frames_of_storeFrom .nil rfl rfl stored
  exact ⟨frames, by cases file; simp_all⟩

theorem exists_storeFrom (encoded : ∀ e ∈ es, (Frame.encode e).isOk = true) (file : File) :
    ∃ file', file.storeFrom es = .ok file' := by
  induction es generalizing file with
  | nil => exact ⟨file, rfl⟩
  | cons e es ih =>
    have first := encoded e (.head _)
    unfold storeFrom append
    cases written : Frame.encode e with
    | error failure => simp [written, Except.isOk, Except.toBool] at first
    | ok frame => exact ih (fun e there => encoded e (.tail _ there)) _

/-- Entries that all have frames are stored. -/
theorem exists_store (encoded : ∀ e ∈ es, (Frame.encode e).isOk = true) :
    ∃ file, store es = .ok file := by
  rw [store, ofBytes_nil]
  exact exists_storeFrom encoded _

/-- A log with an entry that is not shallow can not be opened. -/
theorem ofBytes_store_deep (integral : ∀ e ∈ es, e.IsIntegral) (stored : store es = .ok file)
    (deep : ¬∀ e ∈ es, e.IsShallow) :
    ∃ place, ofBytes file.bytes = .error (.corrupt (.undecodable place)) := by
  obtain ⟨place, read⟩ :=
    Frame.decodeFrom_frames_deep (frames_of_store stored).1 integral deep 0
  exact ⟨place, by rw [ofBytes, Frame.decodeAll, read]; rfl⟩

/-- A log of shallow entries is opened with just these. -/
theorem ofBytes_store_shallow (integral : ∀ e ∈ es, e.IsIntegral) (stored : store es = .ok file)
    (shallow : ∀ e ∈ es, e.IsShallow) :
    ofBytes file.bytes =
      .ok { bytes := file.bytes, length := file.bytes.length, entries := es } := by
  have frames := (frames_of_store stored).1
  have readable : ∀ e ∈ es, Frame.Readable e := fun e there =>
    have ⟨_, encoded⟩ := frames.encoded there
    (Frame.readable_iff (integral e there) encoded).2 (shallow e there)
  simpa only [List.append_nil] using ofBytes_frames frames readable Frame.find?_nil

section Nested

/-- So many arrays around a null. -/
def nested : ℕ → Json.Value
  | 0 => .null
  | n + 1 => .array [nested n]

theorem nested_canonical (n : ℕ) : (nested n).isCanonical = true := by
  induction n with
  | zero => rfl
  | succ n ih => simp [nested, Json.Value.isCanonical, Json.Value.itemsCanonical, ih]

/-- A coordinator begins a transaction of one operation, whose data are nested arrays. -/
def nesting (n : ℕ) : Entry :=
  { begun with
    transaction := ⟨8#128⟩
    payload :=
      .begin [⟨"p"⟩]
        (SortedMap.insert ∅ ⟨"p"⟩ [⟨"credit", "account/7", ⟨nested n, nested_canonical n⟩⟩])
        begun.time }

end Nested

end Log.File

end AtomicCommit
