import AtomicCommit.Proofs.Log.Damage
import Mathlib.Data.Nat.PSub
import Mathlib.Order.Bounds.Basic

/-!
# Files cut at any byte

The whole frames at the start of a file end at its boundaries. A file that is cut anywhere keeps
the frames up to the last boundary before the cut, and what is left of the next one is no frame. So
a file is repaired by one opening, and an append that breaks off on a repaired file leaves it as it
was.

## Main definitions

* `Frame.Boundary`: so many frames end at an offset.
* `Frame.readAt`: frames are read by offsets into the bytes, with each range checked.

## Main results

* `Frame.decodeFrom_take`: what is read of bytes that are cut.
* `Frame.readAt_eq`: no range that is read is outside the bytes, and the reading ends.
* `Log.File.cut_keeps_whole_frames`: opening a cut file, a repaired one, and one torn anew.
-/

namespace AtomicCommit.Frame

variable {bytes : List UInt8} {found : Found} {es : List Entry} {offset stop k n : ℕ}

/-! ## Boundaries -/

/-- So many frames, each as long as it says, stand at the start of the bytes and end at an
offset. -/
inductive Boundary : List UInt8 → ℕ → ℕ → Prop where
  /-- No frame ends at the start. -/
  | start {bytes : List UInt8} : Boundary bytes 0 0
  /-- A frame comes first. -/
  | next {bytes length checksum body rest : List UInt8} {k n : ℕ}
      (split : bytes = length ++ (checksum ++ (body ++ rest))) (hl : length.length = 4)
      (hc : checksum.length = 4) (size : body.length = number length)
      (later : Boundary rest k n) : Boundary bytes (k + 1) (8 + body.length + n)

/-- The boundary behind no frame is the start. -/
theorem Boundary.zero (h : Boundary bytes 0 n) : n = 0 := by
  cases h
  rfl

/-- A boundary behind a frame is one of what follows the first. -/
theorem Boundary.succ (h : Boundary bytes (k + 1) n) : ∃ found m, find? bytes = some found ∧
    Boundary found.rest k m ∧ n = 8 + found.body.length + m := by
  cases h with
  | @next _ length checksum body rest _ m split hl hc size later =>
    let found : Found := { checksum := number checksum, body, rest }
    have starts : find? bytes = some found :=
      find?_eq_some_iff.2 ⟨length, checksum, hl, hc, size, rfl, split⟩
    exact ⟨found, m, starts, later, rfl⟩

theorem Boundary.next_of_find? (starts : find? bytes = some found)
    (later : Boundary found.rest k n) : Boundary bytes (k + 1) (8 + found.body.length + n) := by
  obtain ⟨length, checksum, hl, hc, size, -, split⟩ := find?_eq_some_iff.1 starts
  exact .next split hl hc size later

/-- The only boundary of bytes that hold no frame is the start. -/
theorem Boundary.of_none (h : Boundary bytes k n) (missing : find? bytes = none) : n = 0 := by
  cases k with
  | zero => exact h.zero
  | succ k =>
    obtain ⟨_, _, starts, -, -⟩ := h.succ
    rw [missing] at starts
    cases starts

/-- The boundaries of bytes that hold a frame are the start and those behind it. -/
theorem Boundary.of_some (h : Boundary bytes k n) (starts : find? bytes = some found) :
    n = 0 ∨ ∃ j m, Boundary found.rest j m ∧ n = 8 + found.body.length + m := by
  cases k with
  | zero => exact .inl h.zero
  | succ k =>
    obtain ⟨found', m, starts', later, rfl⟩ := h.succ
    rw [starts, Option.some.injEq] at starts'
    subst starts'
    exact .inr ⟨k, m, later, rfl⟩

/-- The number of frames before a boundary is told by its place. -/
theorem Boundary.unique {k' : ℕ} (h : Boundary bytes k n) (h' : Boundary bytes k' n) : k = k' := by
  induction k generalizing bytes n k' with
  | zero =>
    obtain rfl := h.zero
    cases k' with
    | zero => rfl
    | succ k' =>
      obtain ⟨_, _, -, -, away⟩ := h'.succ
      omega
  | succ k ih =>
    obtain ⟨found, m, starts, later, rfl⟩ := h.succ
    cases k' with
    | zero =>
      have here := h'.zero
      omega
    | succ k' =>
      obtain ⟨found', m', starts', later', place⟩ := h'.succ
      rw [starts, Option.some.injEq] at starts'
      subst starts'
      obtain rfl : m = m' := by omega
      rw [ih later later']

/-! ## Reading bytes that are cut -/

/-- The frames that are read end at a boundary. -/
theorem exists_boundary_of_decodeFrom (read : decodeFrom offset bytes = .ok (es, stop)) :
    ∃ n, Boundary bytes es.length n ∧ stop = offset + n := by
  induction es generalizing offset bytes with
  | nil =>
    obtain ⟨-, -, rfl⟩ | ⟨_, _, _, -, -, -, absurd⟩ := decodeFrom_cases read
    · exact ⟨0, .start, rfl⟩
    · cases absurd
  | cons e es ih =>
    obtain ⟨-, absurd, -⟩ | ⟨found, _, _, starts, -, more, same⟩ := decodeFrom_cases read
    · cases absurd
    · obtain ⟨rfl, rfl⟩ := List.cons.inj same
      obtain ⟨n, boundary, rfl⟩ := ih more
      exact ⟨_, boundary.next_of_find? starts, by omega⟩

/-- There is no boundary behind the one at which the reading ends. -/
theorem Boundary.le_stop (h : Boundary bytes k n)
    (read : decodeFrom offset bytes = .ok (es, stop)) : offset + n ≤ stop := by
  induction es generalizing offset bytes k n with
  | nil =>
    obtain ⟨missing, -, rfl⟩ | ⟨_, _, _, -, -, -, absurd⟩ := decodeFrom_cases read
    · rw [h.of_none missing, Nat.add_zero]
    · cases absurd
  | cons e es ih =>
    obtain ⟨-, absurd, -⟩ | ⟨found, _, _, starts, -, more, same⟩ := decodeFrom_cases read
    · cases absurd
    obtain ⟨rfl, rfl⟩ := List.cons.inj same
    obtain rfl | ⟨_, m, later, rfl⟩ := h.of_some starts
    · have := ih .start more
      omega
    · have := ih later more
      omega

/-- Less of what holds no frame holds none either. -/
theorem find?_take_of_none (missing : find? bytes = none) (n : ℕ) :
    find? (bytes.take n) = none := by
  cases starts : find? (bytes.take n) with
  | none => rfl
  | some found =>
    have whole := find?_append starts (bytes.drop n)
    rw [List.take_append_drop, missing] at whole
    cases whole

/-- A frame that is cut is none. -/
theorem find?_take_of_lt (starts : find? bytes = some found) (cut : n < 8 + found.body.length) :
    find? (bytes.take n) = none := by
  cases here : find? (bytes.take n) with
  | none => rfl
  | some found' =>
    have whole := find?_append here (bytes.drop n)
    rw [List.take_append_drop, starts] at whole
    cases whole
    have size := length_of_find? here
    rw [List.length_take] at size
    dsimp only at cut
    omega

/-- A frame before the cut stays where it is. -/
theorem find?_take_of_le (starts : find? bytes = some found) (whole : 8 + found.body.length ≤ n) :
    find? (bytes.take n) =
      some { found with rest := found.rest.take (n - (8 + found.body.length)) } := by
  obtain ⟨length, checksum, hl, hc, size, stated, rfl⟩ := find?_eq_some_iff.1 starts
  refine find?_eq_some_iff.2 ⟨length, checksum, hl, hc, size, stated, ?_⟩
  obtain ⟨m, rfl⟩ := Nat.exists_eq_add_of_le whole
  rw [List.take_append, List.take_append, List.take_append, hl, hc,
    List.take_of_length_le (by omega), List.take_of_length_le (by omega),
    List.take_of_length_le (by omega)]
  have left : 8 + found.body.length + m - 4 - 4 - found.body.length =
      8 + found.body.length + m - (8 + found.body.length) := by omega
  rw [left]

/-- What is read of bytes that are cut: the frames up to the last boundary before the cut. -/
theorem decodeFrom_take (read : decodeFrom offset bytes = .ok (es, stop)) (n : ℕ) :
    ∃ k w, Boundary bytes k w ∧ w ≤ n ∧
      (∀ k' w', Boundary bytes k' w' → w' ≤ n → w' ≤ w) ∧
      decodeFrom offset (bytes.take n) = .ok (es.take k, offset + w) := by
  induction es generalizing offset bytes n with
  | nil =>
    obtain ⟨missing, -, rfl⟩ | ⟨_, _, _, -, -, -, absurd⟩ := decodeFrom_cases read
    · refine ⟨0, 0, .start, by omega, ?_, ?_⟩
      · intro k w boundary _
        exact (boundary.of_none missing).le
      · exact decodeFrom_of_none (find?_take_of_none missing n) stop
    · cases absurd
  | cons e es ih =>
    obtain ⟨-, absurd, -⟩ | ⟨found, _, _, starts, entry, more, same⟩ := decodeFrom_cases read
    · cases absurd
    obtain ⟨rfl, rfl⟩ := List.cons.inj same
    by_cases whole : 8 + found.body.length ≤ n
    · obtain ⟨k, w, boundary, before, last, cut⟩ := ih more (n - (8 + found.body.length))
      refine ⟨k + 1, _, boundary.next_of_find? starts, by omega, ?_, ?_⟩
      · intro k' w' boundary' before'
        obtain rfl | ⟨j, m, later, rfl⟩ := boundary'.of_some starts
        · omega
        · have := last j m later (by omega)
          omega
      · have entry : Found.entry
            { found with rest := found.rest.take (n - (8 + found.body.length)) } offset = .ok e :=
          entry
        rw [decodeFrom_of_some (find?_take_of_le starts whole), entry]
        simp only [Except.bind, ← Nat.add_assoc, cut, Except.map, List.take_succ_cons]
    · refine ⟨0, 0, .start, by omega, ?_, ?_⟩
      · intro k' w' boundary before
        obtain rfl | ⟨_, _, -, rfl⟩ := boundary.of_some starts
        · omega
        · omega
      · exact decodeFrom_of_none (find?_take_of_lt starts (Nat.lt_of_not_le whole)) offset

/-! ## Reading by offsets -/

/-- The bytes between two offsets, if they stand in order and within the bytes. -/
def slice? (bytes : List UInt8) (start stop : ℕ) : Option (List UInt8) :=
  if start ≤ stop ∧ stop ≤ bytes.length then some ((bytes.drop start).take (stop - start)) else none

/-- Reads frames by offsets into the bytes, with so many turns at most. There is no answer if a
difference falls below zero, if a range is not within the bytes, or if the turns do not suffice. -/
def readAt (bytes : List UInt8) : ℕ → ℕ → Option (Except Corruption (List Entry × ℕ))
  | 0, _ => none
  | turns + 1, offset => do
    let left ← bytes.length.psub offset
    if left < 8 then return .ok ([], offset)
    let header ← slice? bytes offset (offset + 8)
    let length := number (header.take 4)
    let checksum := number (header.drop 4)
    let left ← bytes.length.psub (offset + 8)
    if left < length then return .ok ([], offset)
    let body ← slice? bytes (offset + 8) (offset + 8 + length)
    match Found.entry { checksum, body, rest := [] } offset with
    | .error damage => return .error damage
    | .ok e =>
      let rest ← readAt bytes turns (offset + 8 + length)
      return rest.map fun r => (e :: r.1, r.2)

theorem slice?_eq {length : ℕ} (inside : offset + length ≤ bytes.length) :
    slice? bytes offset (offset + length) = some ((bytes.drop offset).take length) := by
  rw [slice?, if_pos ⟨Nat.le_add_right _ _, inside⟩, Nat.add_sub_cancel_left]

/-- Reading by offsets has an answer, and it is what is read of the bytes from there on. -/
theorem readAt_eq {turns : ℕ} (inside : offset ≤ bytes.length)
    (enough : bytes.length - offset < 8 * turns) :
    readAt bytes turns offset = some (decodeFrom offset (bytes.drop offset)) := by
  induction turns generalizing offset with
  | zero => omega
  | succ turns ih =>
    rw [readAt, Nat.psub_eq_sub inside]
    by_cases header : bytes.length - offset < 8
    · have short : (bytes.drop offset).length < 8 := by rw [List.length_drop]; omega
      rw [decodeFrom_of_none (find?_of_short short)]
      simp [header]
    have inside' : offset + 8 ≤ bytes.length := by omega
    -- The header, and what follows it.
    have split : bytes.drop offset =
        ((bytes.drop offset).take 8).take 4 ++
          (((bytes.drop offset).take 8).drop 4 ++ bytes.drop (offset + 8)) := by
      rw [← List.append_assoc, List.take_append_drop, ← List.drop_drop, List.take_append_drop]
    have eight : ((bytes.drop offset).take 8).length = 8 := by
      rw [List.length_take, List.length_drop]
      omega
    have content : (bytes.drop (offset + 8)).length = bytes.length - (offset + 8) :=
      List.length_drop
    simp only [Option.bind_eq_bind, Option.bind_some, header, if_false, slice?_eq inside',
      Nat.psub_eq_sub inside']
    generalize (bytes.drop offset).take 8 = header at split eight ⊢
    have hl : (header.take 4).length = 4 := by rw [List.length_take]; omega
    have hc : (header.drop 4).length = 4 := by rw [List.length_drop]; omega
    have starts := find?_header hl hc (bytes.drop (offset + 8))
    rw [← split, content] at starts
    by_cases body : bytes.length - (offset + 8) < number (header.take 4)
    · rw [if_pos body] at starts
      rw [if_pos body, decodeFrom_of_none starts]
      rfl
    · rw [if_neg body] at starts
      rw [if_neg body, slice?_eq (by omega), decodeFrom_of_some starts]
      generalize number (header.take 4) = length at body ⊢
      have size : ((bytes.drop (offset + 8)).take length).length = length := by
        rw [List.length_take, content]
        omega
      simp only [Option.bind_some, size]
      have later := @ih (offset + 8 + length) (by omega) (by omega)
      rw [later, List.drop_drop]
      generalize (bytes.drop (offset + 8)).take length = body
      generalize bytes.drop (offset + 8 + length) = rest
      -- What follows a body has no part in reading it.
      have same : Found.entry { checksum := number (header.drop 4), body, rest := [] } offset =
        Found.entry { checksum := number (header.drop 4), body, rest } offset := rfl
      rw [same]
      cases Found.entry { checksum := number (header.drop 4), body, rest } offset <;> rfl

/-! ## Whole frames of cut bytes -/

theorem Boundary.le_length (h : Boundary bytes k n) : n ≤ bytes.length := by
  induction h with
  | start => exact Nat.zero_le _
  | next split hl hc _ _ ih =>
    rw [split]
    simp only [List.length_append, hl, hc]
    omega

/-- The frame between two boundaries is found at the first. -/
theorem Boundary.find?_drop {n' : ℕ} (starts : Boundary bytes k n)
    (ends : Boundary bytes (k + 1) n') :
    ∃ found, find? (bytes.drop n) = some found ∧ n' = n + 8 + found.body.length := by
  induction k generalizing bytes n n' with
  | zero =>
    obtain rfl := starts.zero
    obtain ⟨found, m, here, later, rfl⟩ := ends.succ
    obtain rfl := later.zero
    exact ⟨found, here, by omega⟩
  | succ k ih =>
    obtain ⟨first, m, here, later, rfl⟩ := starts.succ
    obtain ⟨first', m', here', later', rfl⟩ := ends.succ
    rw [here, Option.some.injEq] at here'
    subst here'
    obtain ⟨found, last, rfl⟩ := ih later later'
    have behind : bytes.drop (8 + first.body.length + m) = first.rest.drop m := by
      rw [← List.drop_drop, drop_of_find? here]
    rw [behind]
    exact ⟨found, last, by omega⟩

/-- Bytes that are cut at a boundary are the whole frames before it. -/
theorem Boundary.wholeFrom_take (h : Boundary bytes k n)
    (read : decodeFrom offset bytes = .ok (es, stop)) :
    WholeFrom offset (bytes.take n) (es.take k) := by
  obtain ⟨k', w, boundary, before, last, cut⟩ := decodeFrom_take read n
  obtain rfl : w = n := Nat.le_antisymm before (last k n h le_rfl)
  rw [WholeFrom, cut, boundary.unique h, List.length_take, Nat.min_eq_left h.le_length]

/-- The whole frames that are read are all that is read of them alone. -/
theorem wholeFrom_take (read : decodeFrom 0 bytes = .ok (es, stop)) :
    stop ≤ bytes.length ∧ WholeFrom 0 (bytes.take stop) es := by
  obtain ⟨n, boundary, rfl⟩ := exists_boundary_of_decodeFrom read
  have whole := boundary.wholeFrom_take read
  rw [List.take_of_length_le le_rfl] at whole
  rw [Nat.zero_add]
  exact ⟨boundary.le_length, whole⟩

theorem decodeAll_eq_ok_iff : decodeAll bytes = .ok (es, stop) ↔
    decodeFrom 0 bytes = .ok (es, stop) := by
  rw [decodeAll]
  cases decodeFrom 0 bytes <;> simp [Except.mapError]

/-- What follows whole frames and is no frame itself is not read. -/
theorem decodeAll_append_of_none (whole : WholeFrom 0 bytes es) {rest : List UInt8}
    (torn : find? rest = none) : decodeAll (bytes ++ rest) = .ok (es, bytes.length) := by
  rw [decodeAll_eq_ok_iff, decodeFrom_append whole, decodeFrom_of_none torn, Nat.zero_add]
  simp [Except.map]

/-- A frame of an entry that breaks off is none. -/
theorem find?_of_torn {e : Entry} {frame part : List UInt8} (encoded : encode e = .ok frame)
    (start : part <+: frame) (proper : part ≠ frame) : find? part = none := by
  obtain ⟨body, -, small, rfl⟩ := encode_eq_ok_iff.1 encoded
  have shorter : part.length < (wrap body).length :=
    Nat.lt_of_le_of_ne start.length_le fun same => proper (start.eq_of_length same)
  rw [List.prefix_iff_eq_take.1 start]
  exact find?_torn small shorter

end AtomicCommit.Frame

namespace AtomicCommit.Log.File

open Frame

/-- **A file that is cut keeps its whole frames.** Of bytes that can be read, cut anywhere, there
are read the entries before the last boundary that is neither behind the cut nor behind the whole
frames; a file that was repaired is opened as it is; and a frame that breaks off behind the whole
frames changes nothing. Reading by offsets, with each range checked, comes to an end on any bytes,
after no more turns than they have room for frames. -/
theorem cut_keeps_whole_frames {bytes : List UInt8} {es : List Entry} {stop : ℕ}
    (read : decodeAll bytes = .ok (es, stop)) :
    (∀ n ≤ bytes.length, ∃ k w, Boundary bytes k w ∧
      IsGreatest {w | (∃ k, Boundary bytes k w) ∧ w ≤ min n stop} w ∧
      decodeAll (bytes.take n) = .ok (es.take k, w)) ∧
    decodeAll (bytes.take stop) = .ok (es, stop) ∧
    ofBytes (bytes.take stop) = ofBytes bytes ∧
    (∀ e frame part, encode e = .ok frame → part <+: frame → part ≠ frame →
      decodeAll (bytes.take stop ++ part) = .ok (es, stop)) ∧
    ∀ any : List UInt8, readAt any (any.length / 8 + 1) 0 = some (decodeFrom 0 any) := by
  have read := decodeAll_eq_ok_iff.1 read
  obtain ⟨inside, whole⟩ := wholeFrom_take read
  have length : (bytes.take stop).length = stop := by rw [List.length_take, Nat.min_eq_left inside]
  have again : decodeAll (bytes.take stop) = .ok (es, stop) := by
    have repaired := decodeAll_append_of_none whole find?_nil
    rwa [List.append_nil, length] at repaired
  refine ⟨?_, again, ?_, ?_, ?_⟩
  · intro n _
    obtain ⟨k, w, boundary, before, last, cut⟩ := decodeFrom_take read n
    have within := boundary.le_stop read
    refine ⟨k, w, boundary, ⟨⟨⟨k, boundary⟩, by omega⟩, ?_⟩, ?_⟩
    · rintro w' ⟨⟨k', boundary'⟩, before'⟩
      exact last k' w' boundary' (by omega)
    · rw [decodeAll_eq_ok_iff, cut, Nat.zero_add]
  · rw [ofBytes, ofBytes, again, decodeAll_eq_ok_iff.2 read]
    simp [bind, Except.bind, pure, Except.pure, List.take_take]
  · intro e frame part encoded start proper
    have torn := decodeAll_append_of_none whole (find?_of_torn encoded start proper)
    rwa [length] at torn
  · intro any
    have enough : any.length - 0 < 8 * (any.length / 8 + 1) := by omega
    have answered := readAt_eq (Nat.zero_le _) enough
    rwa [List.drop_zero] at answered

section Torn

/-- Two frames, and what is left of an append that broke off. -/
def tornFile : List UInt8 := twoFrames (bodyOf begun).length ++ [7, 0, 0]

/-- The log is repaired, and the next append breaks off behind the length of its frame. -/
theorem cut_keeps_whole_frames_tornFile :
    decodeAll tornFile = .ok ([begun, balloted], (twoFrames (bodyOf begun).length).length) ∧
    decodeAll (tornFile.take (twoFrames (bodyOf begun).length).length ++
        (wrap (bodyOf balloted)).take 4) =
      .ok ([begun, balloted], (twoFrames (bodyOf begun).length).length) := by
  have read : decodeAll tornFile =
      .ok ([begun, balloted], (twoFrames (bodyOf begun).length).length) :=
    decodeAll_append_of_none wholeFrom_twoFrames (find?_of_short (by decide))
  obtain ⟨-, -, -, torn, -⟩ := cut_keeps_whole_frames read
  refine ⟨read, torn balloted _ _ (encode_twoFrames balloted (by simp)) (List.take_prefix _ _) ?_⟩
  intro same
  have short := congrArg List.length same
  rw [List.length_take, length_wrap] at short
  omega

end Torn

end AtomicCommit.Log.File
