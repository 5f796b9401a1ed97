import DirectoryWatch.Event

/-!
# The queue between worker and consumer

Events wait here in the order they were pushed. Each operation is one step under the lock of the
queue; waiting means to let other steps happen until one of them has pushed events, or the time is
up (`EventQueue.Timeline`).
-/

namespace DirectoryWatch

structure EventQueue where
  buffered : List Event
  deriving DecidableEq, Repr

namespace EventQueue

def empty : EventQueue := ⟨[]⟩

/-- Appends a batch whole. -/
def push (q : EventQueue) (batch : List Event) : EventQueue := ⟨q.buffered ++ batch⟩

/-- Takes everything. -/
def pop (q : EventQueue) : List Event × EventQueue := (q.buffered, empty)

def size (q : EventQueue) : Nat := q.buffered.length

def isEmpty (q : EventQueue) : Bool := q.buffered.isEmpty

@[simp] theorem buffered_push (q : EventQueue) (batch : List Event) :
    (q.push batch).buffered = q.buffered ++ batch := rfl

/-! ## Waiting -/

/-- A queue, a clock of milliseconds, and batches that others will push at set times. -/
structure Timeline where
  queue : EventQueue
  now : Nat
  later : List (Nat × List Event)
  deriving DecidableEq, Repr

namespace Timeline

def start : Timeline := ⟨.empty, 0, []⟩

/-- Has a batch pushed some milliseconds from now. -/
def pushLater (t : Timeline) (ms : Nat) (batch : List Event) : Timeline :=
  { t with later := t.later ++ [(t.now + ms, batch)] }

/-- The batch to come first of those due by a time, and the others. -/
def next? (later : List (Nat × List Event)) (limit : Nat) :
    Option ((Nat × List Event) × List (Nat × List Event)) :=
  match later.filter fun entry => entry.1 ≤ limit with
  | [] => none
  | entry :: due =>
    let first := due.foldl (fun best e => if e.1 < best.1 then e else best) entry
    some (first, later.erase first)

/-- Lets batches come in until the queue holds events or none is due by the time. -/
def awaitWithin (t : Timeline) (limit : Nat) : Nat → Timeline
  | 0 => t
  | steps + 1 =>
    if t.queue.isEmpty then
      match next? t.later limit with
      | none => { t with now := max t.now limit }
      | some ((due, batch), rest) =>
        awaitWithin ⟨t.queue.push batch, max t.now due, rest⟩ limit steps
    else t

/-- Waits until the queue holds events, no longer than some milliseconds. -/
def await (t : Timeline) (ms : Nat) : Timeline := t.awaitWithin (t.now + ms) (t.later.length + 1)

end Timeline

end EventQueue

end DirectoryWatch
