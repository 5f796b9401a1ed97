import DirectoryWatch.Native.WaitSet.Timeline
import DirectoryWatch.Session

/-!
# Waiting for a batch

A session waits in turns. In each the wait has an outcome, pending records are read if the handle is
ready, and the batch is taken if it is due by then. A batch that came to nothing is passed over. A
stop, a fault or a batch ends the wait; what is not yet due stays in place.
-/

namespace DirectoryWatch.Session

open Native (WaitSet)

/-- What the surroundings bring in one turn. -/
structure Turn where
  outcome : WaitSet.Outcome
  disk : Disk
  /-- The clocks when the read begins. -/
  now : Moment
  observed : Moment
  /-- The clock when the read is over. -/
  later : Moment

/-- What ends a wait: a batch, a stop, or a fault. -/
inductive Arrival where
  | batch (events : List Event)
  | stopped
  | fault (fault : Fault)
  deriving DecidableEq, Repr

/-- Takes the batch if it is due and has come to something. -/
def takeFull (s : Session) (now : Moment) : Option Arrival × Session :=
  match s.takeDue now with
  | (some (e :: events), s) => (some (.batch (e :: events)), s)
  | (_, s) => (none, s)

def turn (s : Session) (t : Turn) : Option Arrival × Session :=
  match t.outcome with
  | .stopped => (some .stopped, s)
  | .timedOut => s.takeFull t.later
  | .ready _ =>
    match s.ingest t.disk t.now t.observed with
    | (.error fault, s) => (some (.fault fault), s)
    | (.ok _, s) => s.takeFull t.later

/-- Waits for the next batch; nothing has arrived when the turns are over first. -/
def nextBatch (s : Session) : List Turn → Option Arrival × Session
  | [] => (none, s)
  | t :: rest =>
    match s.turn t with
    | (some arrival, s) => (some arrival, s)
    | (none, s) => nextBatch s rest

/-! ## On a timeline -/

/-- Waits for the next batch on a timeline, with nothing sent meanwhile. -/
def awaitWithin (disk : Disk) :
    Nat → Session → WaitSet.Timeline → Option Arrival × Session × WaitSet.Timeline
  | 0, s, t => (none, s, t)
  | turns + 1, s, t =>
    match t.wait [s.handle] s.flushDeadline with
    | (none, t) => (none, s, t)
    | (some outcome, t) =>
      match s.turn ⟨outcome, disk, t.now, t.now, t.now⟩ with
      | (some arrival, s) => (some arrival, s, t)
      | (none, s) => awaitWithin disk turns s t

/-- Each turn reads a message or closes a window, and a read opens one window at most. -/
def await (s : Session) (disk : Disk) (t : WaitSet.Timeline) :
    Option Arrival × Session × WaitSet.Timeline :=
  awaitWithin disk (2 * s.handle.pending.length + 4) s t

end DirectoryWatch.Session
