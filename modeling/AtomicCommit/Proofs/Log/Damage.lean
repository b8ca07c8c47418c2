import AtomicCommit.Proofs.Log.File

/-!
# Damaged frames

The checksum of a frame covers its body and not its length. A frame whose stated length is changed
is noticed as long as the stated bytes are there; a length that points past the end of the file
looks like a frame that breaks off, and all that stands from there on is cut away, whole frames
included.

## Main results

* `Frame.decodeFrom_append`: what follows whole frames is read as it stands.
* `File.ofBytes_length_beyond`, `File.ofBytes_length_within`: what opening makes of a changed
  length.
* `File.changed_length_is_noticed_iff`: no entry is lost just if the length stays within the file,
  and then the log is corrupt at that frame.
-/

namespace AtomicCommit.Frame

variable {bytes : List UInt8} {found : Found} {es : List Entry} {offset : Nat}

theorem length_of_find? (h : find? bytes = some found) :
    bytes.length = 8 + found.body.length + found.rest.length := by
  obtain ⟨length, checksum, hl, hc, -, -, rfl⟩ := find?_eq_some_iff.1 h
  simp only [List.length_append, hl, hc]
  omega

/-- A frame stays where it is, whatever follows. -/
theorem find?_append (h : find? bytes = some found) (rest : List UInt8) :
    find? (bytes ++ rest) = some { found with rest := found.rest ++ rest } := by
  obtain ⟨length, checksum, hl, hc, size, stated, rfl⟩ := find?_eq_some_iff.1 h
  refine find?_eq_some_iff.2 ⟨length, checksum, hl, hc, size, stated, ?_⟩
  simp only [List.append_assoc]

/-- The bytes are whole frames that hold entries, and begin at the offset. -/
def WholeFrom (offset : Nat) (bytes : List UInt8) (es : List Entry) : Prop :=
  decodeFrom offset bytes = .ok (es, offset + bytes.length)

/-- Whole frames are none, or one that holds the first entry and whole frames after it. -/
theorem WholeFrom.cases (h : WholeFrom offset bytes es) :
    (bytes = [] ∧ es = []) ∨ ∃ found e es', find? bytes = some found ∧ found.entry offset = .ok e ∧
      WholeFrom (offset + 8 + found.body.length) found.rest es' ∧ es = e :: es' := by
  obtain ⟨-, rfl, here⟩ | ⟨found, e, es', starts, entry, more, rfl⟩ := decodeFrom_cases h
  · exact .inl ⟨List.length_eq_zero_iff.1 (by omega), rfl⟩
  · rw [length_of_find? starts, ← Nat.add_assoc, ← Nat.add_assoc] at more
    exact .inr ⟨found, e, es', starts, entry, more, rfl⟩

/-- What follows whole frames is read as it stands. -/
theorem decodeFrom_append (h : WholeFrom offset bytes es) (rest : List UInt8) :
    decodeFrom offset (bytes ++ rest) =
      (decodeFrom (offset + bytes.length) rest).map fun r => (es ++ r.1, r.2) := by
  induction es generalizing offset bytes with
  | nil =>
    obtain ⟨rfl, -⟩ | ⟨_, _, _, -, -, -, absurd⟩ := h.cases
    · show decodeFrom offset rest = (decodeFrom offset rest).map id
      rw [Except.map_id]
      rfl
    · cases absurd
  | cons e es ih =>
    obtain ⟨-, absurd⟩ | ⟨found, _, _, starts, read, later, same⟩ := h.cases
    · cases absurd
    · obtain ⟨rfl, rfl⟩ := List.cons.inj same
      have length := length_of_find? starts
      have read : Found.entry { found with rest := found.rest ++ rest } offset = .ok e := read
      rw [decodeFrom_of_some (find?_append starts rest), read, Except.bind, ih later, length]
      simp only [← Nat.add_assoc]
      cases decodeFrom (offset + 8 + found.body.length + found.rest.length) rest <;> rfl

theorem checksum_of_entry {e : Entry} (read : found.entry offset = .ok e) :
    (Checksum.ofBytes found.body).toNat = found.checksum := by
  by_contra differs
  simp [Found.entry, differs] at read

/-- A body that has not the checksum stated with it is noticed. -/
theorem decodeAll_of_checksum_ne {before length checksum content : List UInt8}
    (first : WholeFrom 0 before es) (hl : length.length = 4) (hc : checksum.length = 4)
    (within : number length ≤ content.length)
    (differs : (Checksum.ofBytes (content.take (number length))).toNat ≠ number checksum) :
    decodeAll (before ++ (length ++ (checksum ++ content))) =
      .error (.corrupt (.checksum before.length)) := by
  have starts := find?_header hl hc content
  rw [if_neg (Nat.not_lt.2 within)] at starts
  rw [decodeAll, decodeFrom_append first, decodeFrom_of_some starts]
  simp [Found.entry, differs, Except.map, Except.mapError, Except.bind]

/-- What follows whole frames, if it makes more of them. -/
theorem WholeFrom.of_append (h : WholeFrom offset bytes es) {rest : List UInt8} {all : List Entry}
    (whole : WholeFrom offset (bytes ++ rest) all) :
    ∃ more, WholeFrom (offset + bytes.length) rest more ∧ all = es ++ more := by
  rw [WholeFrom, decodeFrom_append h rest] at whole
  cases read : decodeFrom (offset + bytes.length) rest with
  | error failure => simp [read, Except.map] at whole
  | ok r =>
    simp only [read, Except.map, Except.ok.injEq, Prod.mk.injEq, List.length_append] at whole
    refine ⟨r.1, ?_, whole.1.symm⟩
    rw [WholeFrom, read, Except.ok.injEq]
    exact Prod.ext rfl (by dsimp only; omega)

end AtomicCommit.Frame

namespace AtomicCommit.Log.File

/-! ## A changed length -/

section Changed

variable {before length checksum content : List UInt8} {es : List Entry}

/-- A length that points past the end is taken for an unfinished frame, and cut away with all that
follows it. -/
theorem ofBytes_length_beyond (first : Frame.WholeFrom 0 before es) (hl : length.length = 4)
    (hc : checksum.length = 4) (beyond : content.length < Frame.number length) :
    ofBytes (before ++ (length ++ (checksum ++ content))) =
      .ok { bytes := before, length := before.length, entries := es } := by
  have torn : Frame.find? (length ++ (checksum ++ content)) = none := by
    rw [Frame.find?_header hl hc, if_pos beyond]
  rw [ofBytes, Frame.decodeAll, Frame.decodeFrom_append first, Frame.decodeFrom_of_none torn]
  simp [Except.map, Except.mapError, bind, Except.bind, pure, Except.pure]

/-- A length that stays within the file is noticed by the checksum. -/
theorem ofBytes_length_within (first : Frame.WholeFrom 0 before es) (hl : length.length = 4)
    (hc : checksum.length = 4) (within : Frame.number length ≤ content.length)
    (differs : (Checksum.ofBytes (content.take (Frame.number length))).toNat ≠
      Frame.number checksum) :
    ofBytes (before ++ (length ++ (checksum ++ content))) =
      .error (.corrupt (.checksum before.length)) := by
  rw [ofBytes, Frame.decodeAll_of_checksum_ne first hl hc within differs]
  rfl

/-- The checksum that a whole frame states is that of its body. -/
theorem checksum_of_wholeFrom {offset : Nat} (hl : length.length = 4) (hc : checksum.length = 4)
    (whole : Frame.WholeFrom offset (length ++ (checksum ++ content)) es) :
    (Checksum.ofBytes (content.take (Frame.number length))).toNat = Frame.number checksum ∧
      es ≠ [] := by
  obtain ⟨empty, -⟩ | ⟨found, e, es', starts, read, -, rfl⟩ := whole.cases
  · have := congrArg List.length empty
    simp [hl] at this
  · rw [Frame.find?_header hl hc] at starts
    split at starts
    · cases starts
    · cases starts
      exact ⟨Frame.checksum_of_entry read, by simp⟩

/-- **A changed length loses entries just if it points past the end of the file.** In a file of
whole frames the length of one is changed, and the checksum tells the body that is then cut out from
the real one. If opening succeeds it has all entries and leaves the file as long as it is, just if
the changed length stays within what follows. There opening does not succeed: the log is corrupt at
that frame. Where it points past the end opening succeeds, with nothing but the frames before. -/
theorem changed_length_is_noticed_iff {changed : List UInt8} {all : List Entry}
    (hl : length.length = 4) (hl' : changed.length = 4) (hc : checksum.length = 4)
    (first : Frame.WholeFrom 0 before es)
    (whole : Frame.WholeFrom 0 (before ++ (length ++ (checksum ++ content))) all)
    (differs : Frame.number changed ≤ content.length →
      Checksum.ofBytes (content.take (Frame.number changed)) ≠
        Checksum.ofBytes (content.take (Frame.number length))) :
    ((∀ file, ofBytes (before ++ (changed ++ (checksum ++ content))) = .ok file →
      all.length ≤ file.entries.length ∧
        file.bytes.length = (before ++ (changed ++ (checksum ++ content))).length) ↔
      Frame.number changed ≤ content.length) ∧
    (Frame.number changed ≤ content.length →
      ofBytes (before ++ (changed ++ (checksum ++ content))) =
        .error (.corrupt (.checksum before.length))) ∧
    (content.length < Frame.number changed →
      ofBytes (before ++ (changed ++ (checksum ++ content))) =
        .ok { bytes := before, length := before.length, entries := es }) := by
  obtain ⟨more, later, rfl⟩ := first.of_append whole
  obtain ⟨checked, nonempty⟩ := checksum_of_wholeFrom hl hc later
  have noticed : Frame.number changed ≤ content.length →
      ofBytes (before ++ (changed ++ (checksum ++ content))) =
        .error (.corrupt (.checksum before.length)) := by
    intro within
    -- The checksum stays that of the real body.
    exact ofBytes_length_within first hl' hc within fun same =>
      differs within (BitVec.eq_of_toNat_eq (same.trans checked.symm))
  refine ⟨⟨fun kept => ?_, fun within file opened => ?_⟩, noticed,
    ofBytes_length_beyond first hl' hc⟩
  · -- The frame whose length is changed is the first of those that are cut away.
    by_contra beyond
    have opened := ofBytes_length_beyond first hl' hc (Nat.lt_of_not_le beyond)
    have kept := (kept _ opened).1
    rw [List.length_append] at kept
    dsimp only at kept
    exact nonempty (List.length_eq_zero_iff.1 (by omega))
  · rw [noticed within] at opened
    cases opened

end Changed

section Flips

/-- The text of an entry that has one. -/
def bodyOf (e : Entry) : List UInt8 := (Wire.entry.encode? e).getD []

/-- What follows the length and the checksum of the first of two frames. -/
def contents : List UInt8 := bodyOf begun ++ Frame.wrap (bodyOf balloted)

/-- Two frames, of which the first states the given length. -/
def twoFrames (length : ℕ) : List UInt8 :=
  Frame.word length ++ (Frame.word (Checksum.ofBytes (bodyOf begun)).toNat ++ contents)

theorem wholeFrom_nil : Frame.WholeFrom 0 [] [] := Frame.decodeFrom_of_none Frame.find?_nil 0

theorem encode_twoFrames : ∀ e ∈ [begun, balloted],
    Frame.encode e = .ok (Frame.wrap (bodyOf e)) := by
  have written : ∀ e ∈ [begun, balloted], (Wire.entry.encode? e).isSome = true ∧
      (bodyOf e).length < Nat.pow 2 32 := by
    decide +kernel
  intro e there
  obtain ⟨isSome, small⟩ := written e there
  obtain ⟨body, text⟩ := Option.isSome_iff_exists.1 isSome
  have same : bodyOf e = body := by rw [bodyOf, text, Option.getD_some]
  exact Frame.encode_eq_ok_iff.2 ⟨body, text, same ▸ small, by rw [same]⟩

theorem wholeFrom_twoFrames :
    Frame.WholeFrom 0 (twoFrames (bodyOf begun).length) [begun, balloted] := by
  have frames := Frame.Frames.cons (encode_twoFrames begun (by simp)) <|
    .cons (encode_twoFrames balloted (by simp)) .nil
  have readable : ∀ e ∈ [begun, balloted], Frame.Readable e := by decide +kernel
  have whole := Frame.decodeFrom_frames frames readable Frame.find?_nil 0
  have same : Frame.wrap (bodyOf begun) ++ (Frame.wrap (bodyOf balloted) ++ []) =
      twoFrames (bodyOf begun).length := by
    rw [twoFrames, contents, List.append_nil]
    unfold Frame.wrap
    simp only [List.append_assoc]
  rwa [List.append_nil, same] at whole

/-- One bit of the length of the first frame is flipped, so that it points past the end. -/
theorem flipped_beyond :
    contents.length < Frame.number (Frame.word ((bodyOf begun).length + Nat.pow 2 24)) := by
  rw [Frame.number_word (by decide +kernel)]
  decide +kernel

/-- The log is opened without either entry, and the file is emptied. -/
theorem changed_length_drops_entries :
    Frame.decodeAll (twoFrames (bodyOf begun).length) =
      .ok ([begun, balloted], (twoFrames (bodyOf begun).length).length) ∧
    ofBytes (twoFrames ((bodyOf begun).length + Nat.pow 2 24)) =
      .ok { bytes := [], length := 0, entries := [] } := by
  constructor
  · have whole := wholeFrom_twoFrames
    rw [Frame.WholeFrom, Nat.zero_add] at whole
    rw [Frame.decodeAll, whole, Except.mapError]
  · have opened := ofBytes_length_beyond wholeFrom_nil (Frame.length_word _)
      (Frame.length_word (Checksum.ofBytes (bodyOf begun)).toNat) flipped_beyond
    rwa [List.nil_append] at opened

/-- Not every log that is opened has all entries. -/
theorem changed_length_is_noticed_iff_twoFrames :
    Frame.WholeFrom 0 (twoFrames (bodyOf begun).length) [begun, balloted] ∧
    ¬ ∀ file, ofBytes (twoFrames ((bodyOf begun).length + Nat.pow 2 24)) = .ok file →
      2 ≤ file.entries.length ∧
        file.bytes.length = (twoFrames ((bodyOf begun).length + Nat.pow 2 24)).length := by
  have whole := wholeFrom_twoFrames
  rw [twoFrames, ← List.nil_append (Frame.word _ ++ _)] at whole
  obtain ⟨noticed, -, -⟩ := changed_length_is_noticed_iff (Frame.length_word _)
    (Frame.length_word _) (Frame.length_word _) wholeFrom_nil whole
    fun within => absurd within (Nat.not_le.2 flipped_beyond)
  rw [List.nil_append, ← twoFrames] at noticed
  exact ⟨wholeFrom_twoFrames, fun kept => absurd (noticed.1 kept) (Nat.not_le.2 flipped_beyond)⟩

end Flips

end AtomicCommit.Log.File
