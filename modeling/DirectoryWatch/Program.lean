import DirectoryWatch.CommandLine.Help
import DirectoryWatch.CommandLine.Parser
import DirectoryWatch.Report
import DirectoryWatch.Service

/-!
# The program

From the arguments to the exit code. A run polls the service and writes what it finds, until the
worker has ended or the time is up; then it stops the service, waits for the worker, and writes what
the worker left. Only after that it tells of a failure.
-/

namespace DirectoryWatch

/-- How a program ends. -/
structure Outcome where
  exitCode : Nat
  output : List String
  /-- What is told apart from the output. -/
  complaint : Option String
  deriving DecidableEq, Repr

namespace Outcome

def shown (lines : List String) : Outcome := ⟨0, lines, none⟩

def misused (usage : CommandLine.Usage) : Outcome := ⟨2, [], some usage.message⟩

def failed (output : List String) (f : Failure) : Outcome := ⟨1, output, some f.report⟩

def panicked (p : Panic) : Outcome := ⟨101, [], some p.message⟩

end Outcome

/-- What the arguments ask for. -/
inductive Invocation where
  /-- An answer without a run. -/
  | answered (outcome : Outcome)
  | watching (line : CommandLine) (config : Config)
  deriving DecidableEq, Repr

namespace Invocation

def ofArguments (disk : Disk) (args : List CommandLine.Argument) : Invocation :=
  match CommandLine.parse args with
  | .error .help => .answered (.shown CommandLine.helpLines)
  | .error .version => .answered (.shown CommandLine.versionLines)
  | .error usage => .answered (.misused usage)
  | .ok line =>
    match line.watchConfig disk with
    | .error f => .answered (.failed [] f)
    | .ok config => .watching line config

end Invocation

/-! ## Runs -/

/-- What a run does next. -/
inductive Run.Phase where
  /-- Looks whether the worker has ended. -/
  | checking
  /-- Looks at the clock. -/
  | timing
  /-- Waits for events, for a while, and writes what is there. -/
  | polling
  | stopping
  /-- Waits for the worker. -/
  | joining
  /-- Writes what the worker left. -/
  | emptying (ending : Ending)
  | done (ending : Ending)
  deriving Repr

structure Run where
  format : Report.Format
  /-- When the time is up. -/
  deadline : Option Moment
  phase : Run.Phase
  written : List String
  deriving Repr

namespace Run

/-- A run that begins at a moment. A time that is up after the end of the clock is a panic. -/
def start (line : CommandLine) (now : Moment) : Except Panic Run :=
  let format : Report.Format := if line.json then .json else .human
  match line.duration with
  | none => .ok ⟨format, none, .checking, []⟩
  | some seconds =>
    match now.add? (.ofSeconds seconds) with
    | none => .error .momentOverflow
    | some deadline => .ok ⟨format, some deadline, .checking, []⟩

/-- Writes events. -/
def write (r : Run) (events : List Event) : Run :=
  { r with written := r.written ++ Report.lines r.format events }

/-- Writes what is in the queue, and goes on with a phase. -/
def empty (r : Run) (s : Service) (next : Phase) : Run × Service :=
  let (events, s) := s.pop
  ({ r.write events with phase := next }, s)

/-- The time is up. -/
def isOver (r : Run) (now : Moment) : Bool := r.deadline.any fun d => d ≤ now

/-- One step of a run. A poll takes its step once events are there or its time is over, and the wait
for the worker once the worker has ended. -/
def step (r : Run) (s : Service) (now : Moment) : Run × Service :=
  match r.phase with
  | .checking => ({ r with phase := if s.isRunning then .timing else .stopping }, s)
  | .timing => ({ r with phase := if r.isOver now then .stopping else .polling }, s)
  | .polling => r.empty s .checking
  | .stopping => ({ r with phase := .joining }, s.requestStop)
  | .joining =>
    if s.isJoinable then ({ r with phase := .emptying s.rethrow }, s.joined) else (r, s)
  | .emptying ending => r.empty s (.done ending)
  | .done _ => (r, s)

/-- How the program ends, once the run is done. -/
def outcome? (r : Run) : Option Outcome :=
  match r.phase with
  | .done (.ok ()) => some (.shown r.written)
  | .done (.error e) => some (.failed r.written (.watching e))
  | _ => none

end Run

end DirectoryWatch
