import DirectoryWatch.Native.Handle

/-!
# Backends

A backend attaches native watches to roots, and gives a handle for each. What it keeps between its
operations is a state of a type of its own. An operation may take the sending side of other handles
away, as when a root is attached anew; `holds` tells which handles still have theirs.
-/

namespace DirectoryWatch.Native

structure Backend (State : Type) where
  name : String
  /-- Directories below a root can be watched too. -/
  recursion : Bool
  /-- Attaches a watch to a root, with the directories below it or not. -/
  attach : Disk → Path → Bool → State → Except Error Handle × State
  /-- Releases the watch behind a handle. -/
  release : Handle → State → State
  /-- The sending side for a ticket is there. -/
  holds : State → Nat → Bool

/-- The handle as it is after an operation of its backend. -/
def Handle.follow {State : Type} (backend : Backend State) (state : State) (h : Handle) : Handle :=
  if backend.holds state h.ticket then h else h.disconnect

end DirectoryWatch.Native
