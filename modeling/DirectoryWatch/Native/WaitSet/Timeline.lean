import DirectoryWatch.Native.WaitSet

/-!
# Waits on a timeline

A wait set on a clock that moves only while something waits, with stops that are to be sent at set
moments. Time jumps to the next moment at which something can come up.
-/

namespace DirectoryWatch.Native.WaitSet

structure Timeline where
  waits : WaitSet
  now : Moment
  /-- When stop will be sent, each time through a signal kept for it. -/
  stops : List Moment
  deriving DecidableEq, Repr

namespace Timeline

def start (now : Moment) : Timeline := ⟨.start, now, []⟩

/-- Has stop sent some time from now. -/
def stopLater (t : Timeline) (delay : Duration) : Timeline :=
  match t.now.add? delay with
  | some moment =>
    if t.waits.signals = 0 then t
    else { t with waits := t.waits.cloneSignal, stops := moment :: t.stops }
  | none => t

/-- Gives up the stops to come. -/
def cancelStops (t : Timeline) : Timeline :=
  { t with waits := t.stops.foldl (fun w _ => w.dropSignal) t.waits, stops := [] }

/-- Lets the clock reach a moment. -/
def reach (t : Timeline) (moment : Moment) : Timeline :=
  { t with now := if t.now ≤ moment then moment else t.now }

/-- Sends the stop of a moment. -/
def fire (t : Timeline) (moment : Moment) : Timeline :=
  let t := t.reach moment
  { t with waits := t.waits.stop.dropSignal, stops := t.stops.erase moment }

/-- Waits, a number of times being allowed at which time jumps. -/
def waitWithin (handles : List Handle) (deadline : Option Moment) :
    Nat → Timeline → Option Outcome × Timeline
  | 0, t => (none, t)
  | jumps + 1, t =>
    match t.waits.report? handles deadline t.now with
    | some report =>
      let (outcome, waits) := t.waits.heed report
      (outcome, { t with waits })
    | none =>
      match Moment.earliest? t.stops, deadline with
      | some stop, some d =>
        if stop ≤ d then waitWithin handles deadline jumps (t.fire stop)
        else waitWithin handles deadline jumps (t.reach d)
      | some stop, none => waitWithin handles deadline jumps (t.fire stop)
      | none, some d => waitWithin handles deadline jumps (t.reach d)
      | none, none => (none, t)

/-- Waits until something comes up; without an outcome nothing ever does. -/
def wait (t : Timeline) (handles : List Handle) (deadline : Option Moment) :
    Option Outcome × Timeline :=
  waitWithin handles deadline (t.stops.length + 2) t

end Timeline

end DirectoryWatch.Native.WaitSet
