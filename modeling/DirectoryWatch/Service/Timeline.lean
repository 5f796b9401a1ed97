import DirectoryWatch.Service

/-!
# A service on a timeline

A service with its backend on a clock that moves only while somebody waits. The worker takes its
steps when somebody waits for it, and time jumps to the next deadline when it cannot take any. The
clock that dates events goes at the same pace, and may be ahead.
-/

namespace DirectoryWatch.Service

open Native (Backend Message WaitSet)

structure Timeline (State : Type) where
  service : Service
  backend : State
  now : Moment
  /-- How far the clock that dates events is ahead. -/
  ahead : Duration

namespace Timeline

variable {State : Type}

/-- What the clock that dates events shows. -/
def observed (t : Timeline State) : Moment := (t.now.add? t.ahead).getD t.now

/-! ## Steps -/

/-- One step of the worker, with the report that it may ask for. -/
def work (t : Timeline State) (backend : Backend State) (disk : Disk) (report : WaitSet.Report) :
    Timeline State :=
  let (service, closed) := t.service.work ⟨disk, t.now, t.observed, report⟩
  match closed with
  | none => { t with service }
  | some h =>
    let state := backend.release h t.backend
    { t with service := service.follow backend state, backend := state }

def settleWithin (backend : Backend State) (disk : Disk) : Nat → Timeline State → Timeline State
  | 0, t => t
  | steps + 1, t =>
    match t.service.worker.bind fun w => w.report? t.now with
    | none => t
    | some report => settleWithin backend disk steps (t.work backend disk report)

/-- As many steps as a worker can take before it has to wait: a round through all its phases for
every message, one for every window, and those of its end. -/
def mostSteps (w : Worker) : Nat :=
  let messages := w.handles.foldl (fun n h => n + h.pending.length) 0
  (messages + w.sessions.length + 4) * (2 * w.sessions.length + 8)

/-- Lets the worker go on until it has to wait. -/
def settle (t : Timeline State) (backend : Backend State) (disk : Disk) : Timeline State :=
  settleWithin backend disk ((t.service.worker.map mostSteps).getD 0) t

/-- Lets the clock reach a moment. -/
def reach (t : Timeline State) (moment : Moment) : Timeline State :=
  { t with now := if t.now ≤ moment then moment else t.now }

/-- The moment up to which nothing happens by itself. -/
def deadline (t : Timeline State) : Option Moment := t.service.worker.bind Worker.deadline

/-- As many deadlines as there are windows, and one more look. -/
def mostJumps (t : Timeline State) : Nat :=
  (t.service.worker.map fun w => w.sessions.length).getD 0 + 2

/-! ## Operations -/

def start (t : Timeline State) (backend : Backend State) (disk : Disk) : Ending × Timeline State :=
  let (result, service, state) := t.service.start backend disk t.backend
  (result, { t with service, backend := state })

def requestStop (t : Timeline State) : Timeline State :=
  { t with service := t.service.requestStop }

/-- Asks the worker to stop, waits for it, and gives its failure. -/
def stop (t : Timeline State) (backend : Backend State) (disk : Disk) : Ending × Timeline State :=
  let t := t.requestStop.settle backend disk
  (t.service.rethrow, { t with service := t.service.joined })

def pop (t : Timeline State) : List Event × Timeline State :=
  let (events, service) := t.service.pop
  (events, { t with service })

def deliver (t : Timeline State) (ticket : Nat) (messages : List Message) : Timeline State :=
  { t with service := messages.foldl (fun s m => s.deliver ticket m) t.service }

/-- Changes what the backend keeps. -/
def onBackend (t : Timeline State) (backend : Backend State) (state : State) : Timeline State :=
  { t with service := t.service.follow backend state, backend := state }

/-! ## Waiting -/

def awaitExitWithin (backend : Backend State) (disk : Disk) : Nat → Timeline State → Timeline State
  | 0, t => t
  | jumps + 1, t =>
    let t := t.settle backend disk
    if t.service.isRunning then
      match t.deadline with
      | none => t
      | some d => awaitExitWithin backend disk jumps (t.reach d)
    else t

/-- Waits until the worker has ended, or nothing can happen any more. -/
def awaitExit (t : Timeline State) (backend : Backend State) (disk : Disk) : Timeline State :=
  awaitExitWithin backend disk t.mostJumps t

def awaitEventsWithin (backend : Backend State) (disk : Disk) (count : Nat) :
    Nat → List Event → Timeline State → List Event × Timeline State
  | 0, found, t => (found, t)
  | jumps + 1, found, t =>
    let (events, t) := (t.settle backend disk).pop
    let found := found ++ events
    if count ≤ found.length then (found, t)
    else
      match t.deadline with
      | none => (found, t)
      | some d => awaitEventsWithin backend disk count jumps found (t.reach d)

/-- Takes events until a number of them has come, or nothing can happen any more. -/
def awaitEvents (t : Timeline State) (backend : Backend State) (disk : Disk) (count : Nat) :
    List Event × Timeline State :=
  awaitEventsWithin backend disk count t.mostJumps [] t

def awaitUntil (backend : Backend State) (disk : Disk) (limit : Option Moment) :
    Nat → Timeline State → Timeline State
  | 0, t => t
  | jumps + 1, t =>
    let t := t.settle backend disk
    if t.service.queue.isEmpty then
      match t.deadline, limit with
      | some d, some l =>
        if d ≤ l then awaitUntil backend disk limit jumps (t.reach d) else t.reach l
      | some d, none => awaitUntil backend disk limit jumps (t.reach d)
      | none, some l => t.reach l
      | none, none => t
    else t

/-- Waits for events in the queue, no longer than some time. -/
def await (t : Timeline State) (backend : Backend State) (disk : Disk) (timeout : Duration) :
    Timeline State :=
  awaitUntil backend disk (t.now.add? timeout) t.mostJumps t

end Timeline

end DirectoryWatch.Service
