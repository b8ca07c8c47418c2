import AtomicCommit.Error.Commit
import AtomicCommit.Log.Checksum
import AtomicCommit.Wire.Records

/-!
# Frames

A file keeps each entry in a frame: four bytes for the length of the body and four for its
checksum, both with the least significant byte first, and then the body, which is the JSON text of
the entry. What stands at the end of a file and is no whole frame is left over from an append that
was cut short; a whole frame that is damaged is an error.

## Main definitions

* `Frame.encode`: the frame of an entry.
* `Frame.decodeAll`: the entries of all whole frames, and the length of these frames.
-/

namespace AtomicCommit.Frame

/-- The four bytes of a number, the least significant first. -/
def word (n : Nat) : List UInt8 :=
  [UInt8.ofNat n, UInt8.ofNat (n / Nat.pow 2 8), UInt8.ofNat (n / Nat.pow 2 16),
    UInt8.ofNat (n / Nat.pow 2 24)]

/-- The number of bytes, the least significant first. -/
def number : List UInt8 → Nat
  | [] => 0
  | b :: rest => b.toNat + 256 * number rest

/-- The frame around a body. -/
def wrap (body : List UInt8) : List UInt8 :=
  word body.length ++ (word (Checksum.ofBytes body).toNat ++ body)

/-- The frame of an entry. There is none for an entry with a time before the epoch, nor for a body
whose length four bytes can not hold. -/
def encode (entry : Entry) : Except LogError (List UInt8) :=
  match Wire.entry.encode? entry with
  | none =>
    .error <| .unavailable <| .reported
      "unable to encode log entry: SystemTime must be later than UNIX_EPOCH"
  | some body =>
    if body.length < Nat.pow 2 32 then .ok (wrap body)
    else
      .error <| .unavailable <| .reported
        s!"log entry of {body.length} bytes exceeds the frame size limit"

/-- A frame found at the start of bytes. -/
structure Found where
  /-- The checksum that the frame states. -/
  checksum : Nat
  /-- Its body. -/
  body : List UInt8
  /-- What follows it. -/
  rest : List UInt8

/-- The whole frame that bytes start with, if they do. -/
def find? : List UInt8 → Option Found
  | l₀ :: l₁ :: l₂ :: l₃ :: c₀ :: c₁ :: c₂ :: c₃ :: content =>
    let length := number [l₀, l₁, l₂, l₃]
    if content.length < length then none
    else
      some
        { checksum := number [c₀, c₁, c₂, c₃]
          body := content.take length
          rest := content.drop length }
  | _ => none

/-- What follows a frame is shorter than the bytes. -/
theorem length_rest_lt {bytes : List UInt8} {found : Found} (h : find? bytes = some found) :
    found.rest.length < bytes.length := by
  unfold find? at h
  split at h
  · dsimp only at h
    split at h
    · contradiction
    · cases h
      simp only [List.length_drop, List.length_cons]
      omega
  · contradiction

/-- The entry of a frame at an offset. -/
def Found.entry (found : Found) (offset : Nat) : Except Corruption Entry :=
  if (Checksum.ofBytes found.body).toNat ≠ found.checksum then .error (.checksum offset)
  else
    match Wire.entry.decode? found.body with
    | none => .error (.undecodable offset)
    | some entry => .ok entry

/-- The entries of the whole frames that bytes start with, and the offset at which these end; the
bytes themselves start at the given offset. -/
def decodeFrom (offset : Nat) (bytes : List UInt8) : Except Corruption (List Entry × Nat) :=
  match _h : find? bytes with
  | none => .ok ([], offset)
  | some found => do
    let entry ← found.entry offset
    let (entries, length) ← decodeFrom (offset + 8 + found.body.length) found.rest
    return (entry :: entries, length)
termination_by bytes.length
decreasing_by exact length_rest_lt _h

/-- The entries of the whole frames of a file, and the length of these frames. -/
def decodeAll (bytes : List UInt8) : Except LogError (List Entry × Nat) :=
  (decodeFrom 0 bytes).mapError .corrupt

end AtomicCommit.Frame
