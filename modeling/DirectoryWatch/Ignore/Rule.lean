import DirectoryWatch.Glob.Matching
import DirectoryWatch.Text.Blank

/-!
# Ignore rules

One line in the syntax of ignore files makes at most one rule: a glob, whether it takes paths back
in, and whether it is about directories only.
-/

namespace DirectoryWatch.Ignore

structure Rule where
  /-- The rule keeps what it matches. -/
  keeps : Bool
  /-- The rule is about directories only. -/
  onlyDirs : Bool
  strategy : Glob.Strategy
  deriving Repr

/-- A line that makes no rule: the line, and what is wrong with its glob. -/
structure Fault where
  line : String
  reason : Glob.Fault
  deriving DecidableEq, Repr

def Fault.message (f : Fault) : String :=
  "error parsing glob '" ++ f.line ++ "': " ++ f.reason.message

namespace Rule

/-- The line without the white space at its end, unless a backslash holds a blank there. -/
def trimmed (line : List Char) : List Char :=
  if [' ', '\\'].isPrefixOf line.reverse then line else Text.trimEnd line

/-- A line in parts. -/
structure Parts where
  keeps : Bool
  onlyDirs : Bool
  /-- The glob starts at the root. -/
  rooted : Bool
  glob : List Char
  deriving DecidableEq, Repr

/-- Takes off the marks at the front of a line. -/
def front : List Char → Parts
  | '\\' :: '!' :: rest => ⟨false, false, false, '!' :: rest⟩
  | '\\' :: '#' :: rest => ⟨false, false, false, '#' :: rest⟩
  | line =>
    let (keeps, line) := match line with
      | '!' :: rest => (true, rest)
      | line => (false, line)
    match line with
    | '/' :: rest => ⟨keeps, false, true, rest⟩
    | line => ⟨keeps, false, false, line⟩

/-- Takes off the slash at the end of a line, and the backslash before it. -/
def back (parts : Parts) : Parts :=
  match parts.glob.reverse with
  | '/' :: '\\' :: rest => { parts with onlyDirs := true, glob := rest.reverse }
  | '/' :: rest => { parts with onlyDirs := true, glob := rest.reverse }
  | _ => parts

def doubleStarSlash : List Char := ['*', '*', '/']

/-- A glob without a slash matches at any depth. -/
def floated (parts : Parts) : List Char :=
  if parts.rooted ∨ '/' ∈ parts.glob ∨ parts.glob = ['*', '*'] then parts.glob
  else doubleStarSlash ++ parts.glob

/-- A glob for everything in a directory does not match the directory. -/
def deepened (glob : List Char) : List Char :=
  if ['*', '*', '/'].isPrefixOf glob.reverse then glob ++ ['/', '*'] else glob

/-- The rule of a line, if it makes one. -/
def ofLine? (line : String) : Except Fault (Option Rule) :=
  let chars := line.toList
  if chars.head? = some '#' then .ok none
  else
    let chars := trimmed chars
    if chars = [] then .ok none
    else
      let parts := back (front chars)
      match Glob.parse (deepened (floated parts)) with
      | .error reason => .error ⟨String.ofList chars, reason⟩
      | .ok tokens => .ok (some ⟨parts.keeps, parts.onlyDirs, .ofTokens tokens⟩)

/-- The rule says something about a path, of which it is known whether it is a directory. -/
def applies (r : Rule) (path : Path) (isDir : Bool) : Bool :=
  (isDir || !r.onlyDirs) && r.strategy.matches path.bytes

end Rule

end DirectoryWatch.Ignore
