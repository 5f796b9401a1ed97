import DirectoryWatch.Native.Backend

/-!
# The backend inside the process

Whoever drives the process sends the messages. A root is known by its canonical path, or as it was
given when that cannot be found, and has at most one sending side: attaching it anew replaces the
one before, and releasing any of its handles takes the present one away.
-/

namespace DirectoryWatch.Native

structure Registry where
  recursion : Bool
  /-- For each root with a sending side, the ticket of the handle it sends to. -/
  live : List (Path × Nat)
  /-- Roots for which the next attempt fails. -/
  refused : List Path
  /-- Every root that was asked for, in order. -/
  opened : List Path
  /-- Tickets given out so far. -/
  tickets : Nat
  /-- What a handle of a root has pending from the start. -/
  greetings : List (Path × List Message)
  deriving DecidableEq, Repr

namespace Registry

def empty (recursion : Bool) : Registry := ⟨recursion, [], [], [], 0, []⟩

def key (disk : Disk) (root : Path) : Path :=
  match disk.canonical root with
  | .ok path => path
  | .error _ => root

/-- The entries of other roots. -/
def without (r : Registry) (key : Path) : List (Path × Nat) :=
  r.live.filter fun entry => !decide (entry.1.Same key)

/-- The ticket of the handle that a root's messages go to. -/
def holder? (r : Registry) (disk : Disk) (root : Path) : Option Nat :=
  (r.live.find? fun entry => decide (entry.1.Same (key disk root))).map (·.2)

def isOpen (r : Registry) (disk : Disk) (root : Path) : Bool := (r.holder? disk root).isSome

/-- Has the next attempt to attach a root fail. -/
def refuse (r : Registry) (disk : Disk) (root : Path) : Registry :=
  { r with refused := key disk root :: r.refused }

/-- Takes the sending side of a root away. -/
def sever (r : Registry) (disk : Disk) (root : Path) : Registry :=
  { r with live := r.without (key disk root) }

/-- Has every handle of a root start with messages. -/
def greet (r : Registry) (disk : Disk) (root : Path) (messages : List Message) : Registry :=
  { r with greetings := r.greetings ++ [(key disk root, messages)] }

def greeting (r : Registry) (key : Path) : List Message :=
  (r.greetings.filter fun entry => decide (entry.1.Same key)).flatMap (·.2)

def refusal (key : Path) : Error := ⟨.generic "watch refused", [key]⟩

def attach (disk : Disk) (root : Path) (_recursive : Bool) (r : Registry) :
    Except Error Handle × Registry :=
  let key := key disk root
  let r := { r with opened := r.opened ++ [key] }
  if r.refused.any fun path => decide (path.Same key) then
    (.error (refusal key),
      { r with refused := r.refused.filter fun path => !decide (path.Same key) })
  else
    (.ok ((Handle.make key r.tickets false).sendAll (r.greeting key)),
      { r with live := (key, r.tickets) :: r.without key, tickets := r.tickets + 1 })

def release (h : Handle) (r : Registry) : Registry := { r with live := r.without h.root }

def holds (r : Registry) (ticket : Nat) : Bool := r.live.any fun entry => entry.2 = ticket

def backend (recursion : Bool) : Backend Registry :=
  ⟨"manual", recursion, attach, release, holds⟩

end Registry

end DirectoryWatch.Native
