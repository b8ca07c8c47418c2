import AtomicCommit.Log.File
import AtomicCommit.Log.History
import AtomicCommit.Proofs.Log.Frame

/-!
# A log in a file is a log in memory

A log in a file answers as a list of entries would to which each entry is added whose append
succeeds. Appends may fail after any part of a frame has reached the file, and the process may stop
after any part of a frame: the file is whole frames again as soon as the log answers.

## Main definitions

* `File.Event`, `File.Reply`, `File.run`: a log file is asked one thing after another.
* `Mirrors`, `MirrorsAll`: a list of entries answers the same.
* `File.Holds`: a file is the frames of entries, and its log knows that.

## Main results

* `File.Holds.perform`: whatever is asked, the file holds what the list of entries becomes.
* `File.refines_memory`: so it does after any number of questions.
-/

namespace AtomicCommit.Log

namespace File

/-- What is asked of a log, or happens to its process. -/
inductive Event where
  /-- An entry is appended by a write that ends as told. -/
  | append (entry : Entry) (write : List UInt8 → Write)
  /-- The entries of a transaction are asked for. -/
  | load (transaction : TransactionId)
  /-- The entries of an actor's unfinished transactions are asked for. -/
  | scan (actor : ProcessId)
  /-- The log is closed and opened again. -/
  | reopen
  /-- The process stops when so many bytes of an entry's frame have been written, and the log is
  opened again. -/
  | stop (entry : Entry) (written : Nat)

/-- What the log answers. -/
inductive Reply where
  /-- Whether an entry is appended. -/
  | appended (result : Except LogError Unit)
  /-- The entries that were asked for. -/
  | found (entries : List Entry)
  /-- All entries of the log that is opened. -/
  | opened (entries : List Entry)

/-- What is written of the entry of an event is read back. -/
def Event.Readable : Event → Prop
  | append entry _ | stop entry _ => Frame.Readable entry
  | load _ | scan _ | reopen => True

instance (event : Event) : Decidable event.Readable := by
  cases event <;> unfold Event.Readable <;> infer_instance

/-- Opens the log in a file of the given bytes, as the answer to an event. -/
def openAnew (bytes : List UInt8) : Except LogError (Reply × File) := do
  let file ← ofBytes bytes
  return (.opened file.entries, file)

/-- What the log answers to an event, and the file after it; an error if it can not be opened
again. -/
def perform (file : File) : Event → Except LogError (Reply × File)
  | .append entry write =>
    let (result, file) := file.append write entry
    .ok (.appended result, file)
  | .load transaction => .ok (.found (Log.load file.entries transaction), file)
  | .scan actor => .ok (.found (scanIncomplete file.entries actor), file)
  | .reopen => openAnew file.bytes
  | .stop entry written =>
    match Frame.encode entry with
    | .error _ => openAnew file.bytes
    | .ok frame => openAnew (file.bytes ++ frame.take written)

/-- What the log answers to events, one after another, and the file after them. -/
def performAll (file : File) : List Event → Except LogError (List Reply × File)
  | [] => .ok ([], file)
  | event :: events => do
    let (reply, file) ← file.perform event
    let (replies, file) ← file.performAll events
    return (reply :: replies, file)

/-- What the log in a new file answers to events, and the file after them. -/
def run (events : List Event) : Except LogError (List Reply × File) := do
  let file ← ofBytes []
  file.performAll events

end File

/-! ## The log in memory -/

/-- What a list of entries answers to an event, and becomes: an entry is added if its append
succeeds, and if a stop comes only when its whole frame has been written. -/
inductive Mirrors : List Entry → File.Event → File.Reply → List Entry → Prop where
  /-- The whole frame is written durably. -/
  | stored {es : List Entry} {e : Entry} {write : List UInt8 → Write} {frame : List UInt8}
      (encoded : Frame.encode e = .ok frame) (complete : write frame = .complete) :
      Mirrors es (.append e write) (.appended (.ok ())) (es ++ [e])
  /-- There is no frame, or its write fails. -/
  | refused {es : List Entry} {e : Entry} {write : List UInt8 → Write} {failure : LogError}
      (incomplete : ∀ frame, Frame.encode e = .ok frame → write frame ≠ .complete) :
      Mirrors es (.append e write) (.appended (.error failure)) es
  /-- The entries of a transaction are told. -/
  | load {es : List Entry} (tx : TransactionId) :
      Mirrors es (.load tx) (.found (Log.load es tx)) es
  /-- The entries of an actor's unfinished transactions are told. -/
  | scan {es : List Entry} (actor : ProcessId) :
      Mirrors es (.scan actor) (.found (scanIncomplete es actor)) es
  /-- A log that is opened again has its entries. -/
  | reopen {es : List Entry} : Mirrors es .reopen (.opened es) es
  /-- A frame that is not written to its end is none. -/
  | torn {es : List Entry} {e : Entry} {written : Nat}
      (part : ∀ frame, Frame.encode e = .ok frame → written < frame.length) :
      Mirrors es (.stop e written) (.opened es) es
  /-- A frame that is written to its end stays. -/
  | whole {es : List Entry} {e : Entry} {written : Nat} {frame : List UInt8}
      (encoded : Frame.encode e = .ok frame) (all : frame.length ≤ written) :
      Mirrors es (.stop e written) (.opened (es ++ [e])) (es ++ [e])

/-- What a list of entries answers to events, one after another, and becomes. -/
inductive MirrorsAll : List Entry → List File.Event → List File.Reply → List Entry → Prop where
  /-- Nothing is asked. -/
  | nil {es : List Entry} : MirrorsAll es [] [] es
  /-- One event more. -/
  | cons {es es' es'' : List Entry} {event : File.Event} {events : List File.Event}
      {reply : File.Reply} {replies : List File.Reply} (first : Mirrors es event reply es')
      (rest : MirrorsAll es' events replies es'') :
      MirrorsAll es (event :: events) (reply :: replies) es''

namespace File

/-! ## The log in a file -/

/-- A file is the frames of the entries of its log, as long as the log believes. -/
structure Holds (file : File) (es : List Entry) : Prop where
  /-- Its bytes are their frames. -/
  frames : Frame.Frames es file.bytes
  /-- The log knows where they end. -/
  length : file.length = file.bytes.length
  /-- The log has the entries in memory. -/
  entries : file.entries = es
  /-- They can be read again. -/
  readable : ∀ e ∈ es, Frame.Readable e

variable {file : File} {es : List Entry} {bytes : List UInt8} {e : Entry}

/-- What follows the frames of entries and is none itself is cut off. -/
theorem ofBytes_frames (frames : Frame.Frames es bytes) (readable : ∀ e ∈ es, Frame.Readable e)
    {rest : List UInt8} (torn : Frame.find? rest = none) :
    ofBytes (bytes ++ rest) = .ok { bytes, length := bytes.length, entries := es } := by
  simp [ofBytes, Frame.decodeAll, Frame.decodeFrom_frames frames readable torn, Except.mapError,
    bind, Except.bind, pure, Except.pure]

theorem ofBytes_nil : ofBytes [] = .ok { bytes := [], length := 0, entries := [] } :=
  ofBytes_frames .nil (by simp) Frame.find?_nil

theorem openAnew_frames (frames : Frame.Frames es bytes) (readable : ∀ e ∈ es, Frame.Readable e)
    {rest : List UInt8} (torn : Frame.find? rest = none) :
    ∃ file, openAnew (bytes ++ rest) = .ok (.opened es, file) ∧ file.Holds es := by
  refine ⟨{ bytes, length := bytes.length, entries := es }, ?_, frames, rfl, rfl, readable⟩
  rw [openAnew, ofBytes_frames frames readable torn]
  rfl

theorem openAnew_of_frames (frames : Frame.Frames es bytes)
    (readable : ∀ e ∈ es, Frame.Readable e) :
    ∃ file, openAnew bytes = .ok (.opened es, file) ∧ file.Holds es := by
  simpa only [List.append_nil] using openAnew_frames frames readable Frame.find?_nil

/-- Cutting back to where a list ended undoes what was added to it. -/
@[simp] theorem resize_append (bytes rest : List UInt8) :
    resize bytes.length (bytes ++ rest) = bytes := by
  simp [resize]

theorem Holds.snoc (h : file.Holds es) {frame : List UInt8} (encoded : Frame.encode e = .ok frame)
    (readable : Frame.Readable e) :
    Holds
      { bytes := file.bytes ++ frame
        length := file.length + frame.length
        entries := file.entries ++ [e] } (es ++ [e]) where
  frames := h.frames.snoc encoded
  length := by simp [h.length]
  entries := by simp [h.entries]
  readable := by
    intro e' there
    rcases List.mem_append.1 there with old | new
    · exact h.readable e' old
    · rwa [List.mem_singleton.1 new]

/-- An append that fails leaves the file as it was. -/
theorem append_of_incomplete (h : file.Holds es) {write : List UInt8 → Write}
    (incomplete : ∀ frame, Frame.encode e = .ok frame → write frame ≠ .complete) :
    ∃ failure, file.append write e = (.error failure, file) := by
  unfold append
  split
  · exact ⟨_, rfl⟩
  · rename_i frame encoded
    split
    · rename_i complete
      exact absurd complete (incomplete frame encoded)
    · rename_i written cause failed
      exact ⟨_, by rw [h.length, resize_append, ← h.length]⟩

/-- An append adds its entry, or changes nothing. -/
theorem Holds.perform_append (h : file.Holds es) (readable : Frame.Readable e)
    (write : List UInt8 → Write) :
    ∃ reply file' es', file.perform (.append e write) = .ok (reply, file') ∧
      Mirrors es (.append e write) reply es' ∧ file'.Holds es' := by
  by_cases complete : ∃ frame, Frame.encode e = .ok frame ∧ write frame = .complete
  · obtain ⟨frame, encoded, complete⟩ := complete
    refine ⟨_, _, _, ?_, .stored encoded complete, h.snoc encoded readable⟩
    simp only [File.perform, append, encoded, complete]
  · have incomplete : ∀ frame, Frame.encode e = .ok frame → write frame ≠ .complete :=
      fun frame encoded all => complete ⟨frame, encoded, all⟩
    obtain ⟨failure, failed⟩ := append_of_incomplete h incomplete
    exact ⟨_, _, _, by rw [File.perform, failed], .refused incomplete, h⟩

/-- After a stop the file is whole frames again, with the last just if all of it was written. -/
theorem Holds.perform_stop (h : file.Holds es) (readable : Frame.Readable e) (written : ℕ) :
    ∃ reply file' es', file.perform (.stop e written) = .ok (reply, file') ∧
      Mirrors es (.stop e written) reply es' ∧ file'.Holds es' := by
  cases encoded : Frame.encode e with
  | error failure =>
    obtain ⟨file', opened, holds⟩ := openAnew_of_frames h.frames h.readable
    refine ⟨_, file', es, ?_, .torn fun frame has => ?_, holds⟩
    · simpa only [File.perform, encoded] using opened
    · rw [encoded] at has
      cases has
  | ok frame =>
    -- A whole frame is an entry although its append has not returned.
    by_cases all : frame.length ≤ written
    · have longer := h.snoc encoded readable
      obtain ⟨file', opened, holds⟩ := openAnew_of_frames longer.frames longer.readable
      refine ⟨_, file', _, ?_, .whole encoded all, holds⟩
      simpa only [File.perform, encoded, List.take_of_length_le all] using opened
    · obtain ⟨body, -, small, rfl⟩ := Frame.encode_eq_ok_iff.1 encoded
      obtain ⟨file', opened, holds⟩ := openAnew_frames h.frames h.readable
        (Frame.find?_torn small (Nat.lt_of_not_le all))
      refine ⟨_, file', es, ?_, .torn fun frame has => ?_, holds⟩
      · simpa only [File.perform, encoded] using opened
      · rw [encoded] at has
        cases has
        exact Nat.lt_of_not_le all

/-- Whatever is asked, the file holds what the list of entries becomes. -/
theorem Holds.perform (h : file.Holds es) {event : Event} (readable : event.Readable) :
    ∃ reply file' es', file.perform event = .ok (reply, file') ∧
      Mirrors es event reply es' ∧ file'.Holds es' := by
  cases event with
  | append e write => exact h.perform_append readable write
  | load tx => exact ⟨_, _, _, rfl, h.entries ▸ .load tx, h⟩
  | scan actor => exact ⟨_, _, _, rfl, h.entries ▸ .scan actor, h⟩
  | reopen =>
    obtain ⟨file', opened, holds⟩ := openAnew_of_frames h.frames h.readable
    exact ⟨_, file', es, opened, .reopen, holds⟩
  | stop e written => exact h.perform_stop readable written

theorem Holds.performAll (h : file.Holds es) {events : List Event}
    (readable : ∀ event ∈ events, event.Readable) :
    ∃ replies file' es', file.performAll events = .ok (replies, file') ∧
      MirrorsAll es events replies es' ∧ file'.Holds es' := by
  induction events generalizing file es with
  | nil => exact ⟨[], file, es, rfl, .nil, h⟩
  | cons event events ih =>
    obtain ⟨reply, file₁, es₁, performed, first, holds₁⟩ := h.perform (readable event (.head _))
    obtain ⟨replies, file₂, es₂, all, rest, holds₂⟩ :=
      ih holds₁ fun event there => readable event (.tail _ there)
    refine ⟨reply :: replies, file₂, es₂, ?_, .cons first rest, holds₂⟩
    simp [File.performAll, performed, all, bind, Except.bind, pure, Except.pure]

/-- **A log in a file refines a log in memory.** Whatever is asked of the log in a new file, in
which order, whichever appends fail after whichever part of their frames, and after whichever part
of a frame the process stops, the log can be opened and answers as the list of the entries whose
appends succeeded or whose frames a stop let through. The file is the frames of just these, its log
knows its length, and has them in memory. -/
theorem refines_memory {events : List Event} (readable : ∀ event ∈ events, event.Readable) :
    ∃ replies file es, run events = .ok (replies, file) ∧ MirrorsAll [] events replies es ∧
      Frame.Frames es file.bytes ∧ file.length = file.bytes.length ∧ file.entries = es := by
  have holds : Holds { bytes := [], length := 0, entries := [] } [] :=
    ⟨.nil, rfl, rfl, by simp⟩
  obtain ⟨replies, file, es, performed, mirrors, held⟩ := holds.performAll readable
  refine ⟨replies, file, es, ?_, mirrors, held.frames, held.length, held.entries⟩
  rw [run, ofBytes_nil]
  exact performed

section Stops

/-- A coordinator begins a transaction. -/
abbrev begun : Entry where
  transaction := ⟨7#128⟩
  actor := ⟨"c"⟩
  previous := none
  state := .init
  payload :=
    .begin [⟨"p"⟩] (SortedMap.insert ∅ ⟨"p"⟩ [⟨"credit", "account/7", .null⟩]) { nanos := 9 }
  time := { nanos := 5 }

/-- A participant votes. -/
abbrev balloted : Entry where
  transaction := ⟨7#128⟩
  actor := ⟨"p"⟩
  previous := none
  state := .prepared
  payload := .prepared ⟨"c"⟩ ⟨[1, 2, 3]⟩
  time := { nanos := 6 }

/-- The append of a vote fails, is cut short by a stop, and is let through by another. -/
def stops : List Event :=
  [.append begun fun _ => .complete, .append balloted fun _ => .failed 5 (.reported "disk full"),
    .stop balloted 20, .load begun.transaction, .stop balloted 1000, .scan ⟨"p"⟩, .reopen]

theorem refines_memory_stops :
    (∀ event ∈ stops, event.Readable) ∧
    ∃ replies file es, run stops = .ok (replies, file) ∧ MirrorsAll [] stops replies es ∧
      Frame.Frames es file.bytes ∧ file.length = file.bytes.length ∧ file.entries = es := by
  have readable : ∀ event ∈ stops, event.Readable := by decide +kernel
  exact ⟨readable, refines_memory readable⟩

end Stops

end File

end AtomicCommit.Log
