import DirectoryWatch.Config
import DirectoryWatch.Json.Writer
import DirectoryWatch.Toml.Document

/-!
# Configuration files

A configuration is a TOML table of three keys, each of which may be missing: `latency_ms` in whole
milliseconds, `recursive` and `ignore`. Written, a part of a millisecond counts as one.
-/

namespace DirectoryWatch.Config

def latencyKey : String := "latency_ms"

def recursiveKey : String := "recursive"

def ignoreKey : String := "ignore"

def fileKeys : List String := [latencyKey, recursiveKey, ignoreKey]

/-! ## Reading -/

/-- The value under a key as `read` takes it, or the default where the key is missing. -/
def field? {α : Type} (members : List (String × Toml)) (key : String) (missing : α)
    (read : Toml → Option α) : Option α :=
  match members.lookup key with
  | none => some missing
  | some value => read value

/-- The configuration of a table that has no other keys. -/
def ofTable? (members : List (String × Toml)) : Option Config :=
  if members.all fun m => fileKeys.contains m.1 then do
    let latency ← field? members latencyKey defaultLatency fun v =>
      v.natural?.map fun ms => Duration.ofMillis ms.toUInt64
    let recursive ← field? members recursiveKey false Toml.bool?
    let ignore ← field? members ignoreKey [] Toml.texts?
    some ⟨latency, recursive, ignore⟩
  else none

/-- The configuration that a text writes, if it is a valid one. -/
def ofText (text : String) : Except WatchError Config :=
  match Toml.read? text with
  | none => .error (.configParse "not a TOML document")
  | some members =>
    match ofTable? members with
    | none => .error (.configParse "not a table of latency_ms, recursive and ignore")
    | some config => config.validate.map fun _ => config

/-- The configuration in a file. -/
def load (disk : Disk) (path : Path) : Except WatchError Config :=
  match disk.read path with
  | .error e => .error (.configRead path e)
  | .ok bytes =>
    match Text.Utf8.decode? bytes with
    | none => .error (.configRead path .notText)
    | some text => ofText text

/-! ## Writing -/

/-- The latency in whole milliseconds of 64 bits. -/
def latencyMillis (c : Config) : Nat := min c.latency.millisCeil Text.maxWord

/-- The configuration as a TOML text; none if the latency is past the greatest integer. -/
def toToml? (c : Config) : Option String :=
  if Toml.isInteger c.latencyMillis then
    some <|
      latencyKey ++ " = " ++ Text.decimal c.latencyMillis ++ "\n"
      ++ recursiveKey ++ " = " ++ (if c.recursive then "true" else "false") ++ "\n"
      ++ ignoreKey ++ " = " ++ Text.bracketed (c.ignore.map Toml.writeString) ++ "\n"
  else none

def toJson (c : Config) : String :=
  Json.writeObject
    [(latencyKey, Json.writeNatural c.latencyMillis),
      (recursiveKey, Json.writeBool c.recursive),
      (ignoreKey, Json.writeArray (c.ignore.map Json.writeString))]

end DirectoryWatch.Config
