import AtomicCommit.Log.Frame
import Mathlib.Data.List.Basic

/-!
# Frames one after another

A frame says how long it is, so frames that stand one after another are told apart again, and a
frame that breaks off is told from a whole one.

## Main definitions

* `Frame.Frames`: bytes are the frames of entries, one after another.
* `Frame.Readable`: what is written of an entry is read back.

## Main results

* `Frame.find?_wrap`, `Frame.find?_torn`: a whole frame is found, one that breaks off is not.
* `Frame.decodeFrom_frames`: the entries are read back, and then what follows their frames.
-/

namespace AtomicCommit.Frame

/-! ## Words -/

@[simp] theorem length_word (n : Nat) : (word n).length = 4 := rfl

theorem number_word {n : Nat} (h : n < Nat.pow 2 32) : number (word n) = n := by
  simp only [word, number, UInt8.toNat_ofNat', Nat.pow_eq] at h ⊢
  omega

/-! ## One frame -/

@[simp] theorem find?_nil : find? [] = none := rfl

/-- Bytes that are too few for a length and a checksum hold no frame. -/
theorem find?_of_short {bytes : List UInt8} (h : bytes.length < 8) : find? bytes = none := by
  unfold find?
  split
  · simp only [List.length_cons] at h
    omega
  · rfl

/-- What is found after a length and a checksum is as long as it is said to be, if there is enough
of it. -/
theorem find?_header {length checksum : List UInt8} (hl : length.length = 4)
    (hc : checksum.length = 4) (content : List UInt8) :
    find? (length ++ (checksum ++ content)) =
      if content.length < number length then none
      else
        some
          { checksum := number checksum
            body := content.take (number length)
            rest := content.drop (number length) } := by
  obtain ⟨l₀, l₁, l₂, l₃, rfl⟩ := List.length_eq_four.1 hl
  obtain ⟨c₀, c₁, c₂, c₃, rfl⟩ := List.length_eq_four.1 hc
  rfl

/-- The frame that is found has its parts one after another. -/
theorem find?_eq_some_iff {bytes : List UInt8} {found : Found} : find? bytes = some found ↔
    ∃ length checksum : List UInt8, length.length = 4 ∧ checksum.length = 4 ∧
      found.body.length = number length ∧ found.checksum = number checksum ∧
        bytes = length ++ (checksum ++ (found.body ++ found.rest)) := by
  constructor
  · intro h
    have long : 8 ≤ bytes.length := by
      by_contra short
      rw [find?_of_short (by omega)] at h
      cases h
    obtain ⟨length, content, rfl, hl⟩ : ∃ length content, bytes = length ++ content ∧
        length.length = 4 :=
      ⟨_, _, (List.take_append_drop 4 bytes).symm, by rw [List.length_take]; omega⟩
    rw [List.length_append, hl] at long
    obtain ⟨checksum, content, rfl, hc⟩ : ∃ checksum content', content = checksum ++ content' ∧
        checksum.length = 4 :=
      ⟨_, _, (List.take_append_drop 4 content).symm, by rw [List.length_take]; omega⟩
    rw [find?_header hl hc] at h
    split at h
    · cases h
    · rename_i enough
      cases h
      refine ⟨length, checksum, hl, hc, ?_, rfl, by rw [List.take_append_drop]⟩
      rw [List.length_take]
      omega
  · rintro ⟨length, checksum, hl, hc, size, stated, rfl⟩
    obtain ⟨_, body, rest⟩ := found
    dsimp only at size stated
    subst stated
    rw [find?_header hl hc, if_neg (by simp [size]), ← size, List.take_left, List.drop_left]

theorem drop_of_find? {bytes : List UInt8} {found : Found} (h : find? bytes = some found) :
    bytes.drop (8 + found.body.length) = found.rest := by
  obtain ⟨length, checksum, hl, hc, -, -, rfl⟩ := find?_eq_some_iff.1 h
  simp only [← List.append_assoc]
  apply List.drop_left'
  simp only [List.length_append, hl, hc]

theorem checksum_lt (body : List UInt8) : (Checksum.ofBytes body).toNat < Nat.pow 2 32 :=
  (Checksum.ofBytes body).isLt

theorem length_wrap (body : List UInt8) : (wrap body).length = 8 + body.length := by
  simp only [wrap, List.length_append, length_word]
  omega

section Wrap

variable {body : List UInt8} (small : body.length < Nat.pow 2 32)
include small

/-- The frame that bytes start with is found, and what follows it. -/
theorem find?_wrap (rest : List UInt8) :
    find? (wrap body ++ rest) = some { checksum := (Checksum.ofBytes body).toNat, body, rest } := by
  rw [wrap, List.append_assoc, List.append_assoc, find?_header rfl rfl, number_word small,
    number_word (checksum_lt body), if_neg]
  · simp
  · simp

/-- A frame that breaks off is none. -/
theorem find?_torn {written : Nat} (torn : written < (wrap body).length) :
    find? ((wrap body).take written) = none := by
  rw [length_wrap] at torn
  -- Either the header breaks off, or it is whole and states more than what is left.
  by_cases header : written < 8
  · apply find?_of_short
    rw [List.length_take]
    omega
  · have cut : (wrap body).take written =
        word body.length ++ (word (Checksum.ofBytes body).toNat ++ body.take (written - 8)) := by
      rw [wrap, List.take_append, List.take_append, length_word, length_word,
        List.take_of_length_le (by rw [length_word]; omega),
        List.take_of_length_le (by rw [length_word]; omega), Nat.sub_sub]
    rw [cut, find?_header rfl rfl, number_word small, if_pos]
    rw [List.length_take]
    omega

end Wrap

/-! ## Frames of entries -/

/-- What is written of an entry is read back. -/
def Readable (e : Entry) : Prop :=
  ∀ body, Wire.entry.encode? e = some body → Wire.entry.decode? body = some e

instance (e : Entry) : Decidable (Readable e) :=
  match h : Wire.entry.encode? e with
  | none => isTrue fun body written => by rw [h] at written; cases written
  | some body =>
    decidable_of_iff (Wire.entry.decode? body = some e)
      ⟨fun read body' written => by rw [h] at written; cases written; exact read,
        fun readable => readable body h⟩

variable {e : Entry} {frame : List UInt8} {es : List Entry} {bytes : List UInt8}

/-- The frame of an entry is that around its written form. -/
theorem encode_eq_ok_iff : encode e = .ok frame ↔
    ∃ body, Wire.entry.encode? e = some body ∧ body.length < Nat.pow 2 32 ∧ frame = wrap body := by
  unfold encode
  cases written : Wire.entry.encode? e with
  | none => simp
  | some body =>
    by_cases small : body.length < Nat.pow 2 32
    · simp [small, eq_comm]
    · simp [small]

/-- The bytes are the frames of the entries, one after another. -/
inductive Frames : List Entry → List UInt8 → Prop where
  /-- There are none. -/
  | nil : Frames [] []
  /-- One frame more. -/
  | cons {e : Entry} {frame : List UInt8} {es : List Entry} {bytes : List UInt8}
      (encoded : encode e = .ok frame) (rest : Frames es bytes) : Frames (e :: es) (frame ++ bytes)

theorem Frames.snoc (h : Frames es bytes) (encoded : encode e = .ok frame) :
    Frames (es ++ [e]) (bytes ++ frame) := by
  induction h with
  | nil => simpa using Frames.cons encoded .nil
  | cons first _ ih =>
    rw [List.append_assoc]
    exact .cons first ih

/-! ## Reading frames -/

section Reading

variable {offset : Nat} {found : Found}

theorem decodeFrom_of_none (missing : find? bytes = none) (offset : Nat) :
    decodeFrom offset bytes = .ok ([], offset) := by
  rw [decodeFrom]
  split
  · rfl
  · rename_i here
    rw [missing] at here
    cases here

theorem decodeFrom_of_some (starts : find? bytes = some found) (offset : Nat) :
    decodeFrom offset bytes = (found.entry offset).bind fun e =>
      (decodeFrom (offset + 8 + found.body.length) found.rest).map fun r => (e :: r.1, r.2) := by
  rw [decodeFrom]
  split
  · rename_i here
    rw [starts] at here
    cases here
  · rename_i here
    rw [starts] at here
    cases here
    rfl

/-- What is read is nothing, or the entry of the first frame and then what follows. -/
theorem decodeFrom_cases {stop : ℕ}
    (read : decodeFrom offset bytes = .ok (es, stop)) :
    (find? bytes = none ∧ es = [] ∧ stop = offset) ∨ ∃ found e es', find? bytes = some found ∧
      found.entry offset = .ok e ∧
      decodeFrom (offset + 8 + found.body.length) found.rest = .ok (es', stop) ∧ es = e :: es' := by
  cases starts : find? bytes with
  | none =>
    rw [decodeFrom_of_none starts] at read
    cases read
    exact .inl ⟨rfl, rfl, rfl⟩
  | some found =>
    rw [decodeFrom_of_some starts] at read
    cases entry : found.entry offset with
    | error failure => simp [entry, Except.bind] at read
    | ok e =>
      cases more : decodeFrom (offset + 8 + found.body.length) found.rest with
      | error failure => simp [entry, more, Except.bind, Except.map] at read
      | ok r =>
        simp only [entry, more, Except.bind, Except.map, Except.ok.injEq, Prod.mk.injEq] at read
        obtain ⟨rfl, rfl⟩ := read
        exact .inr ⟨found, e, r.1, rfl, entry, more, rfl⟩

/-- The entry of a whole frame is read, and then what follows. -/
theorem decodeFrom_frame (readable : Readable e) (encoded : encode e = .ok frame) (offset : Nat)
    (rest : List UInt8) : decodeFrom offset (frame ++ rest) =
      (decodeFrom (offset + frame.length) rest).map fun r => (e :: r.1, r.2) := by
  obtain ⟨body, written, small, rfl⟩ := encode_eq_ok_iff.1 encoded
  rw [decodeFrom_of_some (find?_wrap small rest), length_wrap, ← Nat.add_assoc]
  simp only [Found.entry, ne_eq, not_true_eq_false, if_false, readable body written]
  rfl

/-- The entries of whole frames are read, and the reading ends at what is none. -/
theorem decodeFrom_frames (h : Frames es bytes) (readable : ∀ e ∈ es, Readable e)
    {rest : List UInt8} (torn : find? rest = none) (offset : Nat) :
    decodeFrom offset (bytes ++ rest) = .ok (es, offset + bytes.length) := by
  induction h generalizing offset with
  | nil => simpa using decodeFrom_of_none torn offset
  | @cons e frame es bytes encoded _ ih =>
    rw [List.append_assoc, decodeFrom_frame (readable e (.head _)) encoded,
      ih fun e he => readable e (.tail _ he), List.length_append, ← Nat.add_assoc]
    rfl

end Reading

end AtomicCommit.Frame
