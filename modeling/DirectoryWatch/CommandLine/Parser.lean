import DirectoryWatch.CommandLine

/-!
# Reading the command line

Arguments are read from left to right. `--name`, `--name=value`, `-f`, clusters of short flags and
a short option with its value behind it are known by their first byte; after `--` everything is a
path. A value is looked at only when the next thing begins, so an argument that is not known is
told before a wrong value in front of it.
-/

namespace DirectoryWatch.CommandLine

abbrev Argument := List UInt8

/-- Why a command line is refused, or answered without a run. -/
inductive Usage where
  | help
  | version
  | unknownArgument
  /-- A value is missing, or empty where it must not be. -/
  | emptyValue
  | badNumber
  | notText
  /-- A value was given to a flag. -/
  | unexpectedValue
  /-- Two arguments that exclude each other, or one that may be given only once. -/
  | conflict
  | missingPaths
  deriving DecidableEq, Repr

def Usage.message : Usage → String
  | help => "help was asked for"
  | version => "the version was asked for"
  | unknownArgument => "error: unknown argument"
  | emptyValue => "error: a value is missing"
  | badNumber => "error: a value is not a number of 64 bits"
  | notText => "error: a value is not text"
  | unexpectedValue => "error: a flag takes no value"
  | conflict => "error: arguments that cannot be used together"
  | missingPaths => "error: a directory to watch is missing"

/-! ## Names -/

/-- An option with a value. -/
inductive Valued where
  | latencyMs
  | ignore
  | config
  | duration
  deriving DecidableEq, Repr

inductive Flag where
  | recursive
  | json
  | verbose
  | quiet
  | help
  | version
  deriving DecidableEq, Repr

inductive Named where
  | valued (option : Valued)
  | flag (flag : Flag)
  deriving DecidableEq, Repr

def longNames : List (String × Named) :=
  [("latency-ms", .valued .latencyMs), ("recursive", .flag .recursive), ("ignore", .valued .ignore),
    ("config", .valued .config), ("json", .flag .json), ("duration", .valued .duration),
    ("verbose", .flag .verbose), ("quiet", .flag .quiet), ("help", .flag .help),
    ("version", .flag .version)]

def shortNames : List (Char × Named) :=
  [('r', .flag .recursive), ('c', .valued .config), ('v', .flag .verbose), ('q', .flag .quiet),
    ('h', .flag .help), ('V', .flag .version)]

/-! ## Values -/

def textValue (value : Argument) : Except Usage String :=
  match Text.Utf8.decode? value with
  | some text => .ok text
  | none => .error .notText

def numberValue (value : Argument) : Except Usage UInt64 := do
  match Text.word? (← textValue value) with
  | some n => return n.toUInt64
  | none => throw .badNumber

def pathValue (value : Argument) : Except Usage Path :=
  if value = [] then .error .emptyValue else .ok ⟨value⟩

/-- Refuses a second value where there may be only one. -/
def once (isGiven : Bool) : Except Usage Unit := if isGiven then .error .conflict else .ok ()

def setValued (c : CommandLine) (value : Argument) : Valued → Except Usage CommandLine
  | .latencyMs => do
    once c.latencyMs.isSome
    return { c with latencyMs := some (← numberValue value) }
  | .ignore => return { c with ignore := c.ignore ++ [← textValue value] }
  | .config => do
    once c.config.isSome
    return { c with config := some (← pathValue value) }
  | .duration => do
    once c.duration.isSome
    return { c with duration := some (← numberValue value) }

def mostVerbose : Nat := 255

def setFlag (c : CommandLine) : Flag → Except Usage CommandLine
  | .recursive => (once c.recursive).map fun _ => { c with recursive := true }
  | .json => (once c.json).map fun _ => { c with json := true }
  | .quiet => (once c.quiet).map fun _ => { c with quiet := true }
  | .verbose => .ok { c with verbose := min mostVerbose (c.verbose + 1) }
  | .help => .error .help
  | .version => .error .version

def addPaths (c : CommandLine) (values : List Argument) : Except Usage CommandLine := do
  return { c with paths := c.paths ++ (← values.mapM pathValue) }

/-! ## Arguments -/

/-- What was read last and not yet looked at. -/
inductive Pending where
  | nothing
  | valued (option : Valued) (value : Option Argument)
  | paths (values : List Argument)
  deriving DecidableEq, Repr

structure Reading where
  line : CommandLine
  pending : Pending
  /-- Everything from here on is a path. -/
  onlyPaths : Bool
  deriving DecidableEq, Repr

namespace Reading

def start : Reading := ⟨.blank, .nothing, false⟩

/-- Looks at what was read last. -/
def settle (r : Reading) : Except Usage Reading :=
  let done := fun line : CommandLine => { r with line, pending := .nothing }
  match r.pending with
  | .nothing => .ok r
  | .valued _ none => .error .emptyValue
  | .valued option (some value) => (setValued r.line value option).map done
  | .paths values => (addPaths r.line values).map done

def flag (r : Reading) (flag : Flag) : Except Usage Reading := do
  let r ← r.settle
  return { r with line := ← setFlag r.line flag }

/-- An option whose value is behind it, or is the argument to come. -/
def valued (r : Reading) (option : Valued) (value : Option Argument) : Except Usage Reading := do
  let r ← r.settle
  match value with
  | some v => return { r with line := ← setValued r.line v option }
  | none => return { r with pending := .valued option none }

def path (r : Reading) (value : Argument) : Except Usage Reading :=
  match r.pending with
  | .paths values => .ok { r with pending := .paths (values ++ [value]) }
  | _ => do return { ← r.settle with pending := .paths [value] }

/-- An argument that is no option: the value an option waits for, or a path. -/
def plain (r : Reading) (value : Argument) : Except Usage Reading :=
  match r.pending with
  | .valued option none => .ok { r with pending := .valued option (some value) }
  | _ => r.path value

def equalsSign : UInt8 := 0x3D

def hyphen : UInt8 := 0x2D

/-- `name` or `name=value`, without the hyphens. -/
def long (r : Reading) (text : Argument) : Except Usage Reading :=
  let name := text.takeWhile (· ≠ equalsSign)
  let value := (text.dropWhile (· ≠ equalsSign)).tail?
  match (Text.Utf8.decode? name).bind (List.lookup · longNames) with
  | none => .error .unknownArgument
  | some (.valued option) => r.valued option value
  | some (.flag flag) => if value.isSome then .error .unexpectedValue else r.flag flag

/-- The value behind a short option, an equals sign before it left out. -/
def attached? (behind : Argument) : Option Argument :=
  match behind with
  | [] => none
  | b :: rest => some (if b = equalsSign then rest else b :: rest)

/-- Short flags one behind the other; the first option takes what is behind it. -/
def cluster (r : Reading) : List Text.Utf8.Piece → Except Usage Reading
  | [] => .ok r
  | .stray _ :: _ => .error .unknownArgument
  | .char c :: rest =>
    match shortNames.lookup c with
    | none => .error .unknownArgument
    | some (.valued option) => r.valued option (attached? (rest.flatMap Text.Utf8.Piece.bytes))
    | some (.flag flag) => do cluster (← r.flag flag) rest

def argument (r : Reading) (arg : Argument) : Except Usage Reading :=
  if r.onlyPaths then r.path arg
  else match arg with
    | b :: c :: rest =>
      if b ≠ hyphen then r.plain arg
      else if c ≠ hyphen then r.cluster (Text.Utf8.pieces (c :: rest))
      else if rest = [] then .ok { r with onlyPaths := true }
      else r.long rest
    | _ => r.plain arg

/-- What only all arguments together can tell. -/
def finish (r : Reading) : Except Usage CommandLine := do
  let line := (← r.settle).line
  if 0 < line.verbose ∧ line.quiet = true then throw .conflict
  if line.paths = [] then throw .missingPaths
  return line

end Reading

def parse (args : List Argument) : Except Usage CommandLine := do
  (← args.foldlM Reading.argument .start).finish

end DirectoryWatch.CommandLine
