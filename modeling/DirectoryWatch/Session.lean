import DirectoryWatch.Coalescer
import DirectoryWatch.Config
import DirectoryWatch.Native.Backend

/-!
# Watch of one root

A session takes the records of one handle, keeps the changes that belong to its root, and gathers
them in a batch. The first change of a batch opens a window; the batch is due a fixed time later,
whatever comes in between. A window that would end past the end of the clock never does, and its
batch waits until it is taken.
-/

namespace DirectoryWatch

open Native (Backend Handle Record ReadFault)

/-- Why an operation of a session ended early. -/
inductive Fault where
  | error (error : WatchError)
  | panic (panic : Panic)
  deriving DecidableEq, Repr

structure Session where
  root : Path
  recursive : Bool
  latency : Duration
  filter : Option Ignore.Filter
  handle : Handle
  batch : Coalescer
  /-- When the window of the batch was opened. -/
  opened : Option Moment
  /-- Records read and not yet absorbed; there are none between two operations. -/
  unabsorbed : List Record
  deriving Repr

namespace Session

/-! ## Attaching -/

/-- The canonical path of a root, which has to be a directory. -/
def resolveRoot (disk : Disk) (root : Path) : Except WatchError Path :=
  match disk.canonical root with
  | .error e => .error (.setup root (.unresolved e))
  | .ok path => if disk.isDir path then .ok path else .error (.setup root .notADirectory)

/-- What is settled before the backend is asked: the canonical root and its filter. -/
def prepare {State : Type} (backend : Backend State) (disk : Disk) (root : Path) (config : Config) :
    Except WatchError (Path × Option Ignore.Filter) := do
  let root ← resolveRoot disk root
  if config.recursive && !backend.recursion then
    throw (.unsupportedConfiguration backend.name)
  let filter ← (Ignore.Filter.build root config.ignore).mapError fun fault =>
    .invalidConfiguration (.badPatterns fault)
  return (root, filter)

/-- Attaches a watch to a root. -/
def attach {State : Type} (backend : Backend State) (disk : Disk) (root : Path) (config : Config)
    (state : State) : Except WatchError Session × State :=
  match prepare backend disk root config with
  | .error e => (.error e, state)
  | .ok (root, filter) =>
    match backend.attach disk root config.recursive state with
    | (.error e, state) => (.error (.setup root (.refused e)), state)
    | (.ok handle, state) =>
      (.ok ⟨root, config.recursive, config.latency, filter, handle, .empty, none, []⟩, state)

/-- The session with its handle as it is after an operation of the backend. -/
def follow {State : Type} (backend : Backend State) (state : State) (s : Session) : Session :=
  { s with handle := s.handle.follow backend state }

/-! ## What belongs to the root -/

/-- The path is watched: the root and what lies directly in it, or all that lies below it. -/
def inScope (s : Session) (path : Path) : Bool :=
  if s.recursive then path.startsWith s.root
  else decide (path.Same s.root) || path.isChildOf s.root

/-- The change takes the root itself away. It is told as an error, not as an event. -/
def losesRoot (s : Session) (path : Path) (kind : ChangeKind) : Bool :=
  decide (path.Same s.root) && kind.takesAway

/-- The change belongs into the batch. -/
def admits (s : Session) (disk : Disk) (path : Path) (kind : ChangeKind) : Except Panic Bool :=
  if s.inScope path && !s.losesRoot path kind then
    match s.filter with
    | none => .ok true
    | some filter => (filter.isIgnored disk path).map not
  else .ok false

/-- The changes that belong into the batch, up to the first that cannot be told. -/
def admitted (s : Session) (disk : Disk) :
    List (Path × ChangeKind) → List (Path × ChangeKind) × Option Panic
  | [] => ([], none)
  | (path, kind) :: rest =>
    match s.admits disk path kind with
    | .error p => ([], some p)
    | .ok true =>
      let (changes, panic) := admitted s disk rest
      ((path, kind) :: changes, panic)
    | .ok false => admitted s disk rest

/-- The changes that a record brings. When records were lost, anything under the root may have
changed, and that is one change of the root. -/
def recordChanges (s : Session) (disk : Disk) (r : Record) :
    List (Path × ChangeKind) × Option Panic :=
  if r.rescan then ([(s.root, .modified)], none) else s.admitted disk (r.changes disk)

/-- The changes that some records bring, up to the first that cannot be told. -/
def changes (s : Session) (disk : Disk) : List Record → List (Path × ChangeKind) × Option Panic
  | [] => ([], none)
  | r :: rest =>
    match s.recordChanges disk r with
    | (found, some p) => (found, some p)
    | (found, none) =>
      let (others, panic) := changes s disk rest
      (found ++ others, panic)

/-! ## Reading -/

/-- The event of a change that was seen at a moment. -/
def eventAt (observed : Moment) (change : Path × ChangeKind) : Event :=
  ⟨change.1, change.2, observed⟩

/-- What comes of a read whose records were absorbed. -/
def outcome (s : Session) (disk : Disk) (read : Except ReadFault Nat) (recorded : Nat) :
    Except Fault Nat :=
  match read with
  | .error (.native e) => .error (.error (.native s.root e))
  | .error .disconnected => .error (.error (.handleInvalidated s.root))
  | .ok _ =>
    if disk.isDir s.root then .ok recorded else .error (.error (.rootRemoved s.root))

/-- Takes the records that are pending into the batch, and counts the changes. Changes before a
fault stay in the batch. A panic loses the rest of the read, and leaves the window as it was. -/
def ingest (s : Session) (disk : Disk) (now observed : Moment) : Except Fault Nat × Session :=
  let (records, read, handle) := s.handle.readPending
  let (changes, panic) := s.changes disk (s.unabsorbed ++ records)
  let batch := s.batch.recordAll (changes.map (eventAt observed))
  let s := { s with handle, batch, unabsorbed := [] }
  match panic with
  | some p => (.error (.panic p), s)
  | none =>
    let opened := s.opened <|> (if batch.isUntouched then none else some now)
    (s.outcome disk read changes.length, { s with opened })

/-! ## Taking batches -/

/-- When the batch is due. -/
def flushDeadline (s : Session) : Option Moment := s.opened.bind fun opened => opened.add? s.latency

/-- Takes the batch, due or not, and closes the window. -/
def takeBatch (s : Session) : List Event × Session :=
  let (events, batch) := s.batch.drain
  (events, { s with batch, opened := none })

/-- Takes the batch if it is due. It may be empty, when its changes undid each other. -/
def takeDue (s : Session) (now : Moment) : Option (List Event) × Session :=
  match s.flushDeadline with
  | none => (none, s)
  | some deadline =>
    if deadline ≤ now then
      let (events, s) := s.takeBatch
      (some events, s)
    else (none, s)

/-! ## Closing -/

def close (s : Session) : Session := { s with handle := s.handle.close }

def isClosed (s : Session) : Bool := s.handle.closed

/-- Closes the session, and has the backend release its watch if it has not yet. -/
def detach {State : Type} (s : Session) (backend : Backend State) (state : State) :
    Session × State :=
  if s.isClosed then (s, state)
  else
    let state := backend.release s.handle state
    (s.close.follow backend state, state)

/-- Sends a message to the handle. -/
def deliver (s : Session) (m : Native.Message) : Session := { s with handle := s.handle.send m }

theorem takeDue_of_closed {s : Session} (h : s.opened = none) (now : Moment) :
    s.takeDue now = (none, s) := by
  simp [takeDue, flushDeadline, h]

end Session

end DirectoryWatch
