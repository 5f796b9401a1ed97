import DirectoryWatch.Native.Error
import DirectoryWatch.Native.Record

/-!
# Handles of native watches

A backend sends messages to a handle, records and errors in one order; the owner of the handle
reads them. `readPending` takes records up to the first error, and tells of a lost connection only
when nothing else is left to tell.
-/

namespace DirectoryWatch.Native

inductive Message where
  | record (record : Record)
  | error (error : Error)
  deriving DecidableEq, Repr

/-- Why a read ended early. -/
inductive ReadFault where
  | native (error : Error)
  | disconnected
  deriving DecidableEq, Repr

structure Handle where
  root : Path
  /-- The number under which the backend knows the handle. -/
  ticket : Nat
  /-- Messages sent and not yet read. -/
  pending : List Message
  /-- The sending side is still there. -/
  connected : Bool
  closed : Bool
  /-- Closing the handle takes the sending side away. -/
  ownsSender : Bool
  deriving DecidableEq, Repr

namespace Handle

def make (root : Path) (ticket : Nat) (ownsSender : Bool) : Handle :=
  ⟨root, ticket, [], true, false, ownsSender⟩

/-! ## The sending side -/

/-- Sends a message; without a sending side nothing is sent. -/
def send (h : Handle) (m : Message) : Handle :=
  if h.connected then { h with pending := h.pending ++ [m] } else h

def sendAll (h : Handle) (messages : List Message) : Handle := messages.foldl send h

/-- Takes the sending side away. What was sent stays. -/
def disconnect (h : Handle) : Handle := { h with connected := false }

/-! ## The reading side -/

/-- A reader would not have to wait. -/
def isReady (h : Handle) : Bool := !h.pending.isEmpty || !h.connected

/-- The records up to the first error, the error if there is one, and what comes after it. -/
def split : List Message → List Record × Option Error × List Message
  | [] => ([], none, [])
  | .error e :: rest => ([], some e, rest)
  | .record r :: rest =>
    let (records, error, left) := split rest
    (r :: records, error, left)

/-- Takes the records that are pending, up to the first error, without waiting. -/
def readPending (h : Handle) : List Record × Except ReadFault Nat × Handle :=
  let (records, error, left) := split h.pending
  let result :=
    match error with
    | some e => .error (.native e)
    | none =>
      if records.isEmpty ∧ h.connected = false then .error .disconnected
      else .ok records.length
  (records, result, { h with pending := left })

/-- Releases the native watch; closing twice is closing once. -/
def close (h : Handle) : Handle :=
  { h with closed := true, connected := h.connected && !h.ownsSender }

/-- As shown to a reader. -/
def text (h : Handle) : String :=
  "NativeHandle \x7b root: " ++ h.root.quoted ++ ", pending: " ++ Text.decimal h.pending.length
    ++ ", closed: " ++ (if h.closed then "true" else "false") ++ " \x7d"

@[simp] theorem pending_disconnect (h : Handle) : h.disconnect.pending = h.pending := rfl

theorem isReady_eq_false_iff (h : Handle) :
    h.isReady = false ↔ h.pending = [] ∧ h.connected = true := by
  simp [isReady]

end Handle

end DirectoryWatch.Native
