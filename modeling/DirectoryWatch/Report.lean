import DirectoryWatch.Event
import DirectoryWatch.Json.Writer

/-!
# Reported events

One line for each event, for a reader or for a program. `written` is what a list of events puts on
the output, and `print` puts it there.
-/

namespace DirectoryWatch.Report

inductive Format where
  | human
  | json
  deriving DecidableEq, Repr

/-! ## For a reader -/

def escape : Char := '\x1b'

/-- The number of the terminal colour of a kind of change. -/
def color : ChangeKind → Nat
  | .created => 32
  | .modified => 33
  | .removed => 31
  | .renamedOld | .renamedNew => 36

/-- The number that takes the colour back. -/
def plainColor : Nat := 39

/-- Switches the terminal to a colour. -/
def colored (color : Nat) : String :=
  String.ofList [escape, '['] ++ Text.decimal color ++ "m"

def kindWidth : Nat := 12

/-- The kind in its colour, then the path. -/
def humanLine (e : Event) : String :=
  colored (color e.kind) ++ Text.padRight kindWidth e.kind.name ++ colored plainColor ++ " "
    ++ e.path.display

/-! ## For a program -/

/-- Whole milliseconds from the epoch to a moment, none before it and of 64 bits at most. -/
def timestamp (time : Moment) : Nat :=
  match time.sinceOrigin? with
  | some d => min d.millis Text.maxWord
  | none => 0

def jsonLine (e : Event) : String :=
  Json.writeObject
    [("kind", Json.writeString e.kind.tag),
      ("path", Json.writeString e.path.display),
      ("timestamp_ms", Json.writeNatural (timestamp e.time))]

/-! ## Lines -/

def line : Format → Event → String
  | .human => humanLine
  | .json => jsonLine

def lines (format : Format) (events : List Event) : List String := events.map (line format)

/-- All lines, each of them ended. -/
def written (format : Format) (events : List Event) : String :=
  String.join ((lines format events).map fun text => text ++ "\n")

/-! ## Printing -/

/-- What takes bytes, and may keep them back until it is flushed. -/
structure Writer (m : Type → Type) where
  write : Text.Utf8.Bytes → m Unit
  flush : m Unit

def newline : UInt8 := 0x0A

section

variable {m : Type → Type} [Monad m]

def Writer.writeLine (out : Writer m) (text : String) : m Unit := do
  out.write (Text.Utf8.encode text)
  out.write [newline]

def Writer.writeLines (out : Writer m) (texts : List String) : m Unit := do
  texts.forM out.writeLine
  out.flush

/-- Writes the line of each event, and tells how many they are. -/
def print (out : Writer m) (format : Format) (events : List Event) : m Nat := do
  out.writeLines (lines format events)
  return events.length

end

theorem lines_append (format : Format) (first second : List Event) :
    lines format (first ++ second) = lines format first ++ lines format second := by
  simp [lines]

end DirectoryWatch.Report
