import DirectoryWatch.Event

/-!
# Coalescing

The changes of one batch, folded to at most one event for each path. The first change of a path
fixes its place in the batch, its spelling and its moment; later ones only change the kind. A path
whose changes undo each other leaves the batch, and its next change opens a new place at the end.
-/

namespace DirectoryWatch

structure Coalescer where
  /-- Places in the order they were opened; an empty one is a path that left the batch. -/
  slots : List (Option Event)
  /-- For each path in the batch, the place it holds. -/
  index : List (List Path.Component × Nat)
  deriving DecidableEq, Repr

namespace Coalescer

def empty : Coalescer := ⟨[], []⟩

/-- The event with a later change of its path folded in; none when the two undo each other. -/
def fold (pending later : Event) : Option Event :=
  (pending.kind.merge later.kind).map fun kind => { pending with kind }

def record (c : Coalescer) (e : Event) : Coalescer :=
  match c.index.lookup e.path.components with
  | none =>
    { slots := c.slots ++ [some e], index := (e.path.components, c.slots.length) :: c.index }
  | some slot =>
    match (c.slots[slot]?).join.bind (fold · e) with
    | some merged => { c with slots := c.slots.set slot (some merged) }
    | none =>
      { slots := c.slots.set slot none
        index := c.index.filter fun entry => decide (entry.1 ≠ e.path.components) }

def recordAll (c : Coalescer) (events : List Event) : Coalescer := events.foldl record c

/-- Nothing was recorded since the batch was last taken, not even changes that were undone. -/
def isUntouched (c : Coalescer) : Bool := c.slots.isEmpty

/-- The events of the batch. -/
def events (c : Coalescer) : List Event := c.slots.filterMap id

/-- Takes the batch and starts a new one. -/
def drain (c : Coalescer) : List Event × Coalescer := (c.events, empty)

end Coalescer

end DirectoryWatch
