import DirectoryWatch.Program
import DirectoryWatch.Service.Scene
import Std.Time.DateTime.Timestamp

/-!
# The command line program

Asks the disk and the clocks, hands the answers to a run, and writes what comes of it. Watches look
at their directories again and again.
-/

namespace DirectoryWatch.Main

open Native (Watch Watches Snapshot Stamp)
open Service (Timeline)

/-! ## Asking the disk -/

/-- The number of an error of the system. -/
def systemError : IO.Error → SystemError
  | .alreadyExists _ code _ | .resourceBusy code _ | .resourceVanished code _
  | .unsupportedOperation code _ | .hardwareFault code _ | .unsatisfiedConstraints code _
  | .illegalOperation code _ | .protocolError code _ | .timeExpired code _
  | .interrupted _ code _ | .noFileOrDirectory _ code _ | .invalidArgument _ code _
  | .permissionDenied _ code _ | .resourceExhausted _ code _ | .inappropriateType _ code _
  | .noSuchThing _ code _ | .otherError code _ => .code code.toNat
  | .unexpectedEof => .other "unexpected end of file"
  | .userError text => .other text

def attempt {α : Type} (action : IO α) : IO (Except SystemError α) := do
  try return .ok (← action)
  catch e => return .error (systemError e)

/-- The entry that a path names; an empty name leaves the path as it is. -/
def entry (path : Path) : IO.FS.DirEntry := ⟨path.display, ""⟩

def isDirectory (path : Path) : IO Bool := do
  match ← (entry path).root.metadata.toBaseIO with
  | .ok data => return (data.type matches .dir)
  | .error _ => return false

def ask (path : Path) : IO Disk.Answer := do
  let canonical ← attempt (IO.FS.realPath (entry path).root)
  let bytes ← attempt (IO.FS.readBinFile (entry path).root)
  return {
    canonical := canonical.map fun found => .ofString (toString found)
    isDir := ← isDirectory path
    isPresent := (← (entry path).root.metadata.toBaseIO) matches .ok _
    read := bytes.map ByteArray.toList }

def diskOf (paths : List Path) : IO Disk := do
  return .ofAnswers (← paths.mapM fun path => return (path, ← ask path))

/-! ## Snapshots -/

def stamp (data : IO.FS.Metadata) : Stamp :=
  match data.type with
  | .dir => .directory
  | .symlink => .link
  | _ =>
    let written := Moment.ofParts? data.modified.sec data.modified.nsec.toNat
    .file data.byteSize.toNat (written.getD .origin)

partial def listing (directory : Path) (recursive : Bool) : IO (List (Path × Stamp)) := do
  let mut entries := #[]
  for found in (← (entry directory).root.readDir).qsort (·.fileName < ·.fileName) do
    let path := directory.child (Text.Utf8.encode found.fileName)
    match ← found.path.symlinkMetadata.toBaseIO with
    | .error _ => pure ()
    | .ok data =>
      entries := entries.push (path, stamp data)
      if recursive && data.type matches .dir then
        entries := entries ++ (← listing path true).toArray
  return entries.toList

def snapshot (watch : Watch) : IO Snapshot := do
  if ← isDirectory watch.root then
    match ← (listing watch.root watch.recursive).toBaseIO with
    | .ok entries => return .listed entries
    | .error _ => return .removed
  else return .removed

/-- Has every watch look. -/
def look (t : Timeline Watches) : IO (Timeline Watches) := do
  let seen ← t.backend.watches.mapM fun watch => return (watch.ticket, ← snapshot watch)
  return t.look fun watch => (seen.lookup watch.ticket).getD .removed

/-! ## Clocks -/

def momentOf (nanos : Int) : Moment :=
  (Moment.ofParts? (nanos / nanosPerSecond) (nanos % nanosPerSecond).toNat).getD .origin

/-- The clock, and how far the time of day is ahead of it. -/
def clocks : IO (Moment × Duration) := do
  let now := Int.ofNat (← IO.monoNanosNow)
  let day := (← Std.Time.Timestamp.now).toNanosecondsSinceUnixEpoch.toInt
  return (momentOf now, ((momentOf (day - now)).sinceOrigin?).getD .zero)

/-! ## The run -/

/-- How long nothing is done between two looks. -/
def pause : UInt32 := 10

def output : IO (Report.Writer IO) := do
  let stream ← IO.getStdout
  return ⟨fun bytes => stream.write ⟨bytes.toArray⟩, stream.flush⟩

def complain (outcome : Outcome) : IO Unit :=
  outcome.complaint.forM IO.eprintln

/-- Goes on with a run that has written some of its lines. -/
partial def goOn (r : Run) (t : Timeline Watches) : IO UInt32 := do
  let (now, ahead) ← clocks
  let t ← look { t.reach now with ahead }
  let t := t.settle Watches.backend (← diskOf t.service.askedPaths)
  let isIdle := r.phase matches .polling && t.service.queue.isEmpty && t.service.isRunning
  let (next, service) := r.step t.service now
  (← output).writeLines (next.written.drop r.written.length)
  match next.outcome? with
  | some outcome =>
    complain outcome
    return outcome.exitCode.toUInt32
  | none =>
    if isIdle then IO.sleep pause
    goOn next { t with service }

def watch (line : CommandLine) (config : Config) : IO UInt32 := do
  let (now, ahead) ← clocks
  let given ← diskOf line.paths
  let roots := line.paths.filterMap fun path => (given.canonical path).toOption
  let disk ← diskOf (line.paths ++ roots)
  let t : Timeline Watches := ⟨.make line.paths config, .empty, now, ahead⟩
  let (ending, t) := t.start Watches.backend disk
  match ending, Run.start line now with
  | .error e, _ =>
    let outcome := Outcome.failed [] (.starting e)
    complain outcome
    return outcome.exitCode.toUInt32
  | .ok (), .error p =>
    let outcome := Outcome.panicked p
    complain outcome
    return outcome.exitCode.toUInt32
  | .ok (), .ok r => goOn r t

end DirectoryWatch.Main

open DirectoryWatch in
def main (args : List String) : IO UInt32 := do
  let arguments := args.map Text.Utf8.encode
  let files := (CommandLine.parse arguments).toOption.bind CommandLine.config
  match Invocation.ofArguments (← Main.diskOf files.toList) arguments with
  | .answered outcome =>
    for line in outcome.output do
      IO.println line
    Main.complain outcome
    return outcome.exitCode.toUInt32
  | .watching line config => Main.watch line config
