import DirectoryWatch.Event
import DirectoryWatch.Json.Reader
import DirectoryWatch.Json.Writer

/-!
# Events as JSON

An event is an object of its path, the tag of its kind, and the seconds and nanoseconds since the
origin of the clock. Reading also takes the three values as an array, the two numbers as an array,
and the kind as an object of its tag and null; it passes over members it does not know.
-/

namespace DirectoryWatch.Event

/-- Why an event has no JSON form. -/
inductive JsonFault where
  | pathNotText
  | beforeOrigin
  deriving DecidableEq, Repr

def JsonFault.message : JsonFault → String
  | pathNotText => "path contains invalid UTF-8 characters"
  | beforeOrigin => "SystemTime must be later than UNIX_EPOCH"

def secondsName : String := "secs_since_epoch"

def nanosName : String := "nanos_since_epoch"

/-- The JSON form of an event; a path that is not text is refused first. -/
def toJson (e : Event) : Except JsonFault String :=
  match e.path.text? with
  | none => .error .pathNotText
  | some path =>
    match e.time.sinceOrigin? with
    | none => .error .beforeOrigin
    | some elapsed =>
      .ok <| Json.writeObject
        [("path", Json.writeString path),
          ("kind", Json.writeString e.kind.tag),
          ("timestamp", Json.writeObject
            [(secondsName, Json.writeNatural elapsed.seconds.toNat),
              (nanosName, Json.writeNatural elapsed.nanos)])]

/-! ## Reading -/

def kindOf? : Json → Option ChangeKind
  | .string (some tag) => ChangeKind.ofName? tag
  | .object [(some tag, .null)] => ChangeKind.ofName? tag
  | _ => none

/-- A moment from its two numbers, of 64 and of 32 bits; nanoseconds above one second carry. -/
def momentOf? (seconds nanos : Json) : Option Moment := do
  let s ← seconds.natural?
  let n ← nanos.natural?
  if s < UInt64.size ∧ n < UInt32.size then Moment.ofParts? s n else none

def timeOf? : Json → Option Moment
  | .array [seconds, nanos] => momentOf? seconds nanos
  | .object members => do
    let seconds ← Json.member? secondsName members
    let nanos ← Json.member? nanosName members
    if members.length = 2 then momentOf? seconds nanos else none
  | _ => none

def ofParts? (path kind time : Json) : Option Event := do
  let path ← path.text?
  let kind ← kindOf? kind
  let time ← timeOf? time
  some ⟨.ofString path, kind, time⟩

def ofJson? : Json → Option Event
  | .array [path, kind, time] => ofParts? path kind time
  | .object members => do
    let path ← Json.member? "path" members
    let kind ← Json.member? "kind" members
    let time ← Json.member? "timestamp" members
    if members.all fun m => m.1.isSome then ofParts? path kind time else none
  | _ => none

/-- The event a text writes. -/
def read? (text : String) : Option Event := (Json.read? text).bind ofJson?

end DirectoryWatch.Event
