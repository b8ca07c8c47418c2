import AtomicCommit.Log.Frame

/-!
# Log files

A log kept in a file: the bytes of the file, and what the log has in memory of them. Opening reads
every frame and cuts off an unfinished one at the end. Appending writes a whole frame; if the write
fails the file is cut back to where the log believes it to end.
-/

namespace AtomicCommit.Log

/-- How the write of a frame ends. -/
inductive Write where
  /-- The frame is stored durably. -/
  | complete
  /-- The write fails after some bytes of the frame have reached the file. -/
  | failed (written : Nat) (cause : Fault)
deriving DecidableEq

/-- The write of a frame onto a file of a given size that may not grow beyond a limit. -/
def Write.within (limit : Option Nat) (size frame : Nat) : Write :=
  match limit with
  | none => .complete
  | some limit =>
    if size + frame ≤ limit then .complete
    else .failed (limit - size) (.system "File too large (os error 27)")

/-- An open log file. -/
structure File where
  /-- The bytes of the file. -/
  bytes : List UInt8
  /-- Where the log believes the file to end. -/
  length : Nat
  /-- The entries of the log. -/
  entries : List Entry
deriving DecidableEq, Inhabited

namespace File

/-- Bytes cut, or filled up with zeros, to a length. -/
def resize (length : Nat) (bytes : List UInt8) : List UInt8 :=
  bytes.take length ++ List.replicate (length - bytes.length) 0

/-- Opens a file of the given bytes. -/
def ofBytes (bytes : List UInt8) : Except LogError File := do
  let (entries, length) ← Frame.decodeAll bytes
  return { bytes := bytes.take length, length, entries }

/-- Appends an entry by a write that ends as `write` tells of its frame. An entry that has no frame
is refused before anything is written. -/
def append (file : File) (write : List UInt8 → Write) (entry : Entry) :
    Except LogError Unit × File :=
  match Frame.encode entry with
  | .error failure => (.error failure, file)
  | .ok frame =>
    match write frame with
    | .complete =>
      (.ok (),
        { bytes := file.bytes ++ frame
          length := file.length + frame.length
          entries := file.entries ++ [entry] })
    | .failed written cause =>
      (.error (.unavailable cause),
        { file with bytes := resize file.length (file.bytes ++ frame.take written) })

end File

end AtomicCommit.Log
