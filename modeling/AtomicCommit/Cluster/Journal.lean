import AtomicCommit.Log.File
import AtomicCommit.Log.History

/-!
# Logs of a cluster

A journal is a log with faults ordered in advance: each append, load and scan takes one fault from
its queue. The log is kept in memory or in a file; a file that could not be opened is closed, and
everything asked of it fails.
-/

namespace AtomicCommit.Cluster

/-- What happens to an append. -/
inductive AppendFault where
  /-- Nothing. -/
  | none
  /-- The entry is not stored, and the append fails. -/
  | fail
  /-- The entry is not stored, and the log is found to be damaged. -/
  | corrupt
  /-- The entry is stored, and the append fails. -/
  | ghost
  /-- The entry is not stored, and the append succeeds. -/
  | lose
deriving DecidableEq, Inhabited

/-- Where a log is kept. -/
inductive Medium where
  /-- In memory. -/
  | memory
  /-- In a file that holds the bytes. -/
  | file (bytes : List UInt8)
  /-- In a directory, which is no file. -/
  | directory
  /-- In a file of a directory that does not exist. -/
  | missing
deriving DecidableEq, Inhabited

/-- The state of a log. -/
inductive Store where
  /-- A log in memory. -/
  | memory (entries : List Entry)
  /-- An open file. -/
  | opened (file : Log.File)
  /-- A file that could not be opened. -/
  | closed (bytes : List UInt8)
  /-- No file at all. -/
  | nowhere (cause : Fault)
deriving DecidableEq, Inhabited

namespace Store

/-- The bytes of the file, if there is one. -/
def bytes : Store → List UInt8
  | opened file => file.bytes
  | closed bytes => bytes
  | memory _ | nowhere _ => []

/-- The store with other bytes in its file, which an open log does not notice. -/
def setBytes (bytes : List UInt8) : Store → Store
  | opened file => opened { file with bytes }
  | closed _ => closed bytes
  | store => store

/-- The store with its file opened anew: the length of the file, or why it can not be opened. -/
def reopen : Store → Except LogError Nat × Store
  | memory entries => (.ok entries.length, memory entries)
  | nowhere cause => (.error (.unavailable cause), nowhere cause)
  | store =>
    match Log.File.ofBytes store.bytes with
    | .ok file => (.ok file.length, opened file)
    | .error failure => (.error failure, closed store.bytes)

/-- A new store on a medium: the length of the file, or why it can not be opened. -/
def create : Medium → Except LogError Nat × Store
  | .memory => (.ok 0, memory [])
  | .file bytes => reopen (closed bytes)
  | .directory => reopen (nowhere (.system "Is a directory (os error 21)"))
  | .missing => reopen (nowhere (.system "No such file or directory (os error 2)"))

/-- The answer of a closed log. -/
def closedError : LogError := .unavailable (.reported "log is closed")

/-- The entries of the log. -/
def entries : Store → Except LogError (List Entry)
  | memory entries => .ok entries
  | opened file => .ok file.entries
  | closed _ | nowhere _ => .error closedError

/-- Appends an entry to the log; its file may not grow beyond a limit. -/
def append (limit : Option Nat) (entry : Entry) : Store → Except LogError Unit × Store
  | memory entries => (.ok (), memory (entries ++ [entry]))
  | opened file =>
    let (result, file) :=
      file.append (fun frame => Log.Write.within limit file.bytes.length frame.length) entry
    (result, opened file)
  | store => (.error closedError, store)

end Store

/-- A log with its faults. -/
structure Journal where
  /-- The name under which it was made. -/
  name : String
  /-- The log itself. -/
  store : Store
  /-- What happens to the next appends. -/
  appendFaults : List AppendFault := []
  /-- Whether the next loads fail. -/
  loadFaults : List Bool := []
  /-- Whether the next scans fail. -/
  scanFaults : List Bool := []
  /-- The length beyond which its file may not grow. -/
  limit : Option Nat := none
deriving DecidableEq, Inhabited

namespace Journal

/-- The answer of an append that fails by order. -/
def diskFull : LogError := .unavailable (.reported "disk full")

/-- The answer of a log that is found damaged by order. -/
def badBlock : LogError := .corrupt (.reported "bad block")

/-- The answer of a load that fails by order. -/
def diskGone : LogError := .unavailable (.reported "disk gone")

/-- The log with an entry appended as a fault lets it. -/
def appendTo (store : Store) (limit : Option Nat) (entry : Entry) :
    AppendFault → Except LogError Unit × Store
  | .none => store.append limit entry
  | .fail => (.error diskFull, store)
  | .corrupt => (.error badBlock, store)
  | .ghost => (.error diskFull, (store.append limit entry).2)
  | .lose => (.ok (), store)

/-- Appends an entry, and uses up one fault. -/
def append (journal : Journal) (entry : Entry) : Except LogError Unit × Journal :=
  let fault := journal.appendFaults.headD .none
  let journal := { journal with appendFaults := journal.appendFaults.tail }
  match journal.store.entries with
  | .error failure => (.error failure, journal)
  | .ok _ =>
    let (result, store) := appendTo journal.store journal.limit entry fault
    (result, { journal with store })

/-- Reads entries, unless they can not be read or the reading fails by order. -/
def read (journal : Journal) (fails : Bool) (failure : LogError)
    (select : List Entry → List Entry) : Except LogError (List Entry) := do
  let entries ← journal.store.entries
  if fails then throw failure
  return select entries

/-- Loads the entries of a transaction, and uses up one fault. -/
def load (journal : Journal) (transaction : TransactionId) :
    Except LogError (List Entry) × Journal :=
  (journal.read (journal.loadFaults.headD false) diskGone fun entries =>
      Log.load entries transaction,
    { journal with loadFaults := journal.loadFaults.tail })

/-- Scans for the entries of an actor's unfinished transactions, and uses up one fault. -/
def scan (journal : Journal) (actor : ProcessId) : Except LogError (List Entry) × Journal :=
  (journal.read (journal.scanFaults.headD false) badBlock fun entries =>
      Log.scanIncomplete entries actor,
    { journal with scanFaults := journal.scanFaults.tail })

end Journal

end AtomicCommit.Cluster
