import DirectoryWatch.Config.File
import DirectoryWatch.Failure

/-!
# The command line

What can be asked for on the command line, and the configuration that comes of it: the values of
the file first, the flags on top.
-/

namespace DirectoryWatch

structure CommandLine where
  paths : List Path
  latencyMs : Option UInt64
  recursive : Bool
  ignore : List String
  config : Option Path
  json : Bool
  /-- Seconds after which the run ends. -/
  duration : Option UInt64
  /-- How often more log output was asked for, 255 times at most. -/
  verbose : Nat
  quiet : Bool
  deriving DecidableEq, Repr

inductive LogLevel where
  | error
  | warn
  | debug
  | trace
  deriving DecidableEq, Repr

def LogLevel.name : LogLevel → String
  | error => "ERROR"
  | warn => "WARN"
  | debug => "DEBUG"
  | trace => "TRACE"

namespace CommandLine

/-- Nothing is asked for. -/
def blank : CommandLine := ⟨[], none, false, [], none, false, none, 0, false⟩

def logLevel (c : CommandLine) : LogLevel :=
  if c.quiet then .error
  else match c.verbose with
    | 0 => .warn
    | 1 => .debug
    | _ => .trace

/-- The configuration of the file, or the default where no file is named. -/
def base (c : CommandLine) (disk : Disk) : Except Failure Config :=
  match c.config with
  | none => .ok .default
  | some path => (Config.load disk path).mapError (.loading path)

/-- A configuration with the flags on top. -/
def applyTo (c : CommandLine) (base : Config) : Config :=
  ⟨(c.latencyMs.map Duration.ofMillis).getD base.latency, c.recursive || base.recursive,
    base.ignore ++ c.ignore⟩

/-- The configuration to watch with. -/
def watchConfig (c : CommandLine) (disk : Disk) : Except Failure Config := do
  let config := c.applyTo (← c.base disk)
  config.validate.mapError .configuring
  return config

end CommandLine

end DirectoryWatch
