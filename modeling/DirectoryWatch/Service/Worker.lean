import DirectoryWatch.Native.WaitSet
import DirectoryWatch.Session

/-!
# The worker of a service

The worker watches every session and the stop signal at once. It is a machine of small steps, so
that whatever others do can come between any two of them:

* it waits for a ready handle, a stop or the earliest deadline;
* a ready session is read, and then every session whose batch is due gives it up;
* after a stop every session is read once more;
* after that, or after a fault, every session gives up what it has and is closed, and last of all
  the worker says how it ended.

A fault ends the reading at once. A panic is a fault like any other, told by its message.
-/

namespace DirectoryWatch

open Native (Handle WaitSet)

/-- How a worker ends. -/
abbrev Ending := Except WatchError Unit

/-- What the worker does next. -/
inductive Worker.Phase where
  | waiting
  | reading (position : Nat)
  /-- Looks at the clock, for the batches that are due by then. -/
  | timing
  | sweeping (now : Moment) (position : Nat)
  | draining (position : Nat)
  | delivering (ending : Ending) (position : Nat)
  | exited
  deriving Repr

structure Worker where
  sessions : List Session
  waits : WaitSet
  phase : Worker.Phase
  deriving Repr

/-- What the surroundings answer to a step that asks them. -/
structure Surroundings where
  disk : Disk
  now : Moment
  observed : Moment
  report : WaitSet.Report

/-- The failure that a fault is to the service. -/
def Fault.failure : Fault → WatchError
  | .error e => e
  | .panic p => .workerPanicked p.message

namespace Worker

/-- What a step does to others. -/
structure Effect where
  /-- A batch for the queue. -/
  pushed : List Event
  closed : Option Handle
  ended : Option Ending
  deriving Repr

def noEffect : Effect := ⟨[], none, none⟩

def pushes (events : List Event) : Effect := ⟨events, none, none⟩

def closes (events : List Event) (h : Handle) : Effect := ⟨events, some h, none⟩

def ends (ending : Ending) : Effect := ⟨[], none, some ending⟩

def start (sessions : List Session) : Worker := ⟨sessions, .start, .waiting⟩

def handles (w : Worker) : List Handle := w.sessions.map Session.handle

/-- The earliest deadline of all windows. -/
def deadline (w : Worker) : Option Moment :=
  Moment.earliest? (w.sessions.filterMap Session.flushDeadline)

def isExited (w : Worker) : Bool :=
  match w.phase with
  | .exited => true
  | _ => false

/-- The worker with another session at a position. -/
def replace (w : Worker) (position : Nat) (s : Session) : Worker :=
  { w with sessions := w.sessions.set position s }

/-- Gives up reading. -/
def fail (w : Worker) (e : WatchError) : Worker := { w with phase := .delivering (.error e) 0 }

/-- The phase after a wait. -/
def afterWait : Option WaitSet.Outcome → Phase
  | none => .waiting
  | some .stopped => .draining 0
  | some (.ready position) => .reading position
  | some .timedOut => .timing

/-- Reads a session, and goes on with a phase if that goes well. -/
def read (w : Worker) (s : Session) (position : Nat) (around : Surroundings) (next : Phase) : Worker :=
  match s.ingest around.disk around.now around.observed with
  | (.ok _, s) => { w.replace position s with phase := next }
  | (.error fault, s) => (w.replace position s).fail fault.failure

def step (w : Worker) (around : Surroundings) : Worker × Effect :=
  match w.phase with
  | .waiting =>
    let (outcome, waits) := w.waits.heed around.report
    ({ w with waits, phase := afterWait outcome }, noEffect)
  | .reading position =>
    match w.sessions[position]? with
    | some s => (w.read s position around .timing, noEffect)
    | none =>
      (w.fail (Fault.panic (.indexOutOfBounds w.sessions.length position)).failure, noEffect)
  | .timing => ({ w with phase := .sweeping around.now 0 }, noEffect)
  | .sweeping now position =>
    match w.sessions[position]? with
    | some s =>
      let (events, s) := s.takeDue now
      ({ w.replace position s with phase := .sweeping now (position + 1) }, pushes (events.getD []))
    | none => ({ w with phase := .waiting }, noEffect)
  | .draining position =>
    match w.sessions[position]? with
    | some s => (w.read s position around (.draining (position + 1)), noEffect)
    | none => ({ w with phase := .delivering (.ok ()) 0 }, noEffect)
  | .delivering ending position =>
    match w.sessions[position]? with
    | some s =>
      let (events, s) := s.takeBatch
      ({ w.replace position s.close with phase := .delivering ending (position + 1) },
        closes events s.handle)
    | none => ({ w with phase := .exited }, ends ending)
  | .exited => (w, noEffect)

/-- The report with which the worker takes its next step; none while it waits in vain, and after
its end. Only a wait asks for the report. -/
def report? (w : Worker) (now : Moment) : Option WaitSet.Report :=
  match w.phase with
  | .waiting => w.waits.report? w.handles w.deadline now
  | .exited => none
  | _ => some .stop

/-- The worker reads and hands out batches, and what panics there is caught. -/
def isLooping (w : Worker) : Bool :=
  match w.phase with
  | .waiting | .reading _ | .timing | .sweeping _ _ | .draining _ => true
  | .delivering _ _ | .exited => false

/-- A panic that the worker catches may leave it with some sessions: it is in its loop, and every
session still has its handle. -/
def MayLeave (w : Worker) (left : List Session) : Prop :=
  w.isLooping = true ∧
    (left.map fun s => s.handle.ticket) = w.sessions.map fun s => s.handle.ticket

instance (w : Worker) (left : List Session) : Decidable (w.MayLeave left) :=
  inferInstanceAs (Decidable (_ ∧ _))

/-- The worker after a panic that it has caught, with its sessions as the panic left them. -/
def panicked (w : Worker) (left : List Session) (text : String) : Worker :=
  if w.MayLeave left then { w with sessions := left }.fail (.workerPanicked text) else w

/-! ## From outside -/

/-- Changes the handle of a ticket. -/
def onHandle (w : Worker) (ticket : Nat) (f : Handle → Handle) : Worker :=
  { w with
    sessions := w.sessions.map fun s =>
      if s.handle.ticket = ticket then { s with handle := f s.handle } else s }

def stop (w : Worker) : Worker := { w with waits := w.waits.stop }

theorem step_exited {w : Worker} (h : w.phase = .exited) (around : Surroundings) :
    w.step around = (w, noEffect) := by
  simp [step, h]

end Worker

end DirectoryWatch
