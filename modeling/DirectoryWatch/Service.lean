import DirectoryWatch.EventQueue
import DirectoryWatch.Service.Worker

/-!
# The watch service

A service runs one worker at most once in its life:

    idle --start--> running --request--> stop requested --> stopped
                       |                        |
                       +-------> failed <-------+

The state and the failure change together. The first failure is the one that is kept, and it is
never cleared. A start that goes wrong leaves the service idle, and nothing attached.
-/

namespace DirectoryWatch

open Native (Backend Handle)

inductive ServiceState where
  | idle
  | running
  /-- Stop was asked for, and the worker has not ended. -/
  | stopRequested
  | stopped
  | failed
  deriving DecidableEq, Repr

def ServiceState.name : ServiceState → String
  | idle => "Idle"
  | running => "Running"
  | stopRequested => "StopRequested"
  | stopped => "Stopped"
  | failed => "Failed"

structure Status where
  state : ServiceState
  failure : Option WatchError
  deriving DecidableEq, Repr

/-- The status once the worker has ended. -/
def Status.finish (s : Status) : Ending → Status
  | .ok () => { s with state := .stopped }
  | .error e => ⟨.failed, s.failure <|> some e⟩

structure Service where
  paths : List Path
  config : Config
  status : Status
  queue : EventQueue
  /-- The worker, from the start until it has been waited for. -/
  worker : Option Worker
  deriving Repr

namespace Service

def make (paths : List Path) (config : Config) : Service :=
  ⟨paths, config, ⟨.idle, none⟩, .empty, none⟩

/-! ## Looking -/

def state (s : Service) : ServiceState := s.status.state

/-- The worker has not ended. -/
def isRunning (s : Service) : Bool := s.state = .running || s.state = .stopRequested

/-- The failure of the worker, if it failed. -/
def rethrow (s : Service) : Ending :=
  match s.status.failure with
  | some e => .error e
  | none => .ok ()

/-- As shown to a reader. -/
def text (s : Service) (backend : String) : String :=
  "Service \x7b paths: " ++ Text.bracketed (s.paths.map Path.quoted)
    ++ ", config: " ++ s.config.text
    ++ ", backend: " ++ Text.quoted backend
    ++ ", state: " ++ s.state.name
    ++ ", buffered: " ++ Text.decimal s.queue.size ++ " \x7d"

/-! ## Starting -/

/-- Releases the watches of sessions. -/
def releaseAll {State : Type} (backend : Backend State) (sessions : List Session) (state : State) :
    State :=
  sessions.foldl (fun state s => backend.release s.handle state) state

/-- Attaches a watch to each path, with the sessions attached before. The first path that cannot be
watched ends it, and what was attached is released again. -/
def attachAll {State : Type} (backend : Backend State) (disk : Disk) (config : Config) :
    List Path → List Session → State → Except WatchError (List Session) × State
  | [], sessions, state => (.ok sessions, state)
  | path :: rest, sessions, state =>
    match Session.attach backend disk path config state with
    | (.error e, state) => (.error e, releaseAll backend sessions state)
    | (.ok session, state) =>
      attachAll backend disk config rest
        (sessions.map (Session.follow backend state) ++ [session]) state

/-- Attaches every path and starts the worker. -/
def start {State : Type} (s : Service) (backend : Backend State) (disk : Disk) (state : State) :
    Ending × Service × State :=
  if s.state ≠ .idle then (.error .alreadyStarted, s, state)
  else match s.config.validate with
    | .error e => (.error e, s, state)
    | .ok () =>
      match attachAll backend disk s.config s.paths [] state with
      | (.error e, state) => (.error e, s, state)
      | (.ok sessions, state) =>
        (.ok (),
          { s with
            status := { s.status with state := .running }
            worker := some (.start sessions) },
          state)

/-- A start for which the system may have no thread. Without one no worker begins, and what was
attached for it is released again. -/
def startOn {State : Type} (s : Service) (thread : Except SystemError Unit) (backend : Backend State)
    (disk : Disk) (state : State) : Ending × Service × State :=
  match s.start backend disk state, thread with
  | (.ok (), started, state), .error e =>
    (.error (.spawn e), s, releaseAll backend (started.worker.elim [] Worker.sessions) state)
  | answer, _ => answer

/-! ## Stopping -/

/-- Asks the worker to stop, and does not wait for it. Only a running worker is asked. -/
def requestStop (s : Service) : Service :=
  if s.state = .running then
    { s with
      status := { s.status with state := .stopRequested }
      worker := s.worker.map Worker.stop }
  else s

/-- The worker can be waited for without delay. -/
def isJoinable (s : Service) : Bool := s.worker.all Worker.isExited

/-- The service after its worker was waited for. -/
def joined (s : Service) : Service := { s with worker := none }

/-- The service after its worker was waited for and its thread turned out to have panicked. A worker
tells of its own panics itself; this is for those it could not catch. -/
def brokenOff (s : Service) (text : String) : Service :=
  { s with worker := none, status := s.status.finish (.error (.workerPanicked text)) }

/-! ## Events -/

/-- Takes the events that wait in the queue. -/
def pop (s : Service) : List Event × Service :=
  let (events, queue) := s.queue.pop
  (events, { s with queue })

/-! ## The worker -/

/-- What an effect of the worker does to the service. -/
def heed (s : Service) (e : Worker.Effect) : Service :=
  { s with
    queue := s.queue.push e.pushed
    status := e.ended.elim s.status s.status.finish }

/-- One step of the worker; the handle that it closes comes with it. -/
def work (s : Service) (around : Surroundings) : Service × Option Handle :=
  match s.worker with
  | none => (s, none)
  | some w =>
    let (w, effect) := w.step around
    ({ s with worker := some w }.heed effect, effect.closed)

/-- Something that the worker calls panics, wherever the worker is in its loop. -/
def panicked (s : Service) (sessions : List Session) (text : String) : Service :=
  { s with worker := s.worker.map fun w => w.panicked sessions text }

/-! ## Messages -/

/-- Sends a message to the handle of a ticket. -/
def deliver (s : Service) (ticket : Nat) (m : Native.Message) : Service :=
  { s with worker := s.worker.map fun w => w.onHandle ticket fun h => h.send m }

/-- The paths about which the next reads will ask the disk: the roots, and what records tell of. -/
def askedPaths (s : Service) : List Path :=
  match s.worker with
  | none => []
  | some w =>
    w.sessions.flatMap fun session =>
      session.root :: session.handle.pending.flatMap fun
        | .record r => r.paths
        | .error _ => []

/-- The service after an operation of its backend. -/
def follow {State : Type} (s : Service) (backend : Backend State) (state : State) : Service :=
  { s with
    worker := s.worker.map fun w =>
      { w with sessions := w.sessions.map (Session.follow backend state) } }

theorem requestStop_of_not_running {s : Service} (h : s.state ≠ .running) : s.requestStop = s := by
  simp [requestStop, h]

theorem start_of_not_idle {State : Type} {s : Service} (h : s.state ≠ .idle)
    (backend : Backend State) (disk : Disk) (state : State) :
    s.start backend disk state = (.error .alreadyStarted, s, state) := by
  simp [start, h]

end Service

end DirectoryWatch
