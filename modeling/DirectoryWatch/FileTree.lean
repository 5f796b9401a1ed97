import DirectoryWatch.Disk
import DirectoryWatch.Text.Utf8

/-!
# File trees

A tree of directories, files and symbolic links, kept as the entries below the root with the names
that lead to each. A path is resolved name by name; a link on the way is replaced by its target, and
no more than forty are followed. `FileTree.disk` is what the tree answers, `FileTree.apply` what a
change makes of it.
-/

namespace DirectoryWatch

abbrev Name := List UInt8

inductive Entry where
  | directory
  | file (data : List UInt8)
  | link (target : Path)
  deriving DecidableEq, Repr

structure FileTree where
  entries : List (List Name × Entry)
  /-- Where relative paths start. -/
  workingDir : List Name
  deriving DecidableEq, Repr

namespace FileTree

def empty : FileTree := ⟨[], []⟩

def lookup (t : FileTree) (names : List Name) : Option Entry :=
  if names = [] then some .directory else t.entries.lookup names

def isDirectory (t : FileTree) (names : List Name) : Bool := t.lookup names = some .directory

/-! ## Resolving paths -/

/-- One step of a path. -/
inductive Step where
  | stay
  | up
  | down (name : Name)
  deriving DecidableEq, Repr

def stepOf (segment : List UInt8) : Step :=
  if segment = [] ∨ segment = [Path.dot] then .stay
  else if segment = [Path.dot, Path.dot] then .up
  else .down segment

def stepsOf (p : Path) : List Step := (Path.segments p.bytes).map stepOf

def longestName : Nat := 255

def longestPath : Nat := 4095

def mostLinks : Nat := 40

/-- What a path leads to when its last name is missing. -/
abbrev Missing := List Name → Except SystemError (List Name)

/-- Where the steps lead from a place, `follow` being taken at a link. -/
def walkWith (t : FileTree) (missing : Missing)
    (follow : List Step → List Name → Except SystemError (List Name)) :
    List Step → List Name → Except SystemError (List Name)
  | [], place => .ok place
  | step :: rest, place =>
    if t.isDirectory place = false then .error .notADirectory
    else match step with
      | .stay => walkWith t missing follow rest place
      | .up => walkWith t missing follow rest place.dropLast
      | .down name =>
        if longestName < name.length then .error .nameTooLong
        else match t.lookup (place ++ [name]) with
          | none => if rest = [] then missing (place ++ [name]) else .error .noEntry
          | some (.link target) =>
            if target.bytes = [] then .error .noEntry
            else follow (stepsOf target ++ rest) (if target.isAbsolute then [] else place)
          | some _ => walkWith t missing follow rest (place ++ [name])

/-- Where the steps lead, a number of links being followed at most. -/
def walk (t : FileTree) (missing : Missing) :
    Nat → List Step → List Name → Except SystemError (List Name)
  | 0 => walkWith t missing fun _ _ => .error .tooManyLinks
  | links + 1 => walkWith t missing (walk t missing links)

/-- Where a path leads, however long it is. -/
def reach (t : FileTree) (missing : Missing) (p : Path) : Except SystemError (List Name) :=
  if 0 ∈ p.bytes then .error .zeroByteInName
  else if p.bytes = [] then .error .noEntry
  else walk t missing mostLinks (stepsOf p) (if p.isAbsolute then [] else t.workingDir)

def refuseLong {α : Type} (p : Path) (found : Except SystemError α) : Except SystemError α :=
  if longestPath < p.bytes.length ∧ 0 ∉ p.bytes then .error .nameTooLong else found

/-- The names that lead to what a path names. -/
def resolve (t : FileTree) (p : Path) : Except SystemError (List Name) :=
  refuseLong p (t.reach (fun _ => .error .noEntry) p)

/-- The names that lead to the file that a write to a path replaces or makes. A link whose target is
missing leads to that target. -/
def resolveWritten (t : FileTree) (p : Path) : Except SystemError (List Name) :=
  refuseLong p (t.reach .ok p)

/-- The canonical path, which has to be short; the given one is taken name by name and need not
be. -/
def canonical (t : FileTree) (p : Path) : Except SystemError Path := do
  let path := Path.ofNames (← t.reach (fun _ => .error .noEntry) p)
  refuseLong path (.ok path)

def isDir (t : FileTree) (p : Path) : Bool :=
  match t.resolve p with
  | .ok names => t.isDirectory names
  | .error _ => false

def isPresent (t : FileTree) (p : Path) : Bool := (t.resolve p).isOk

def read (t : FileTree) (p : Path) : Except SystemError (List UInt8) := do
  match t.lookup (← t.resolve p) with
  | some (.file data) => return data
  | some _ => throw .isADirectory
  | none => throw .noEntry

/-- What the tree answers. -/
def disk (t : FileTree) : Disk := ⟨t.canonical, t.isDir, t.isPresent, t.read⟩

/-! ## Changes -/

/-- A change of the tree. -/
inductive Action where
  /-- Makes a directory and those it lies in. -/
  | makeDir (path : Path)
  /-- Writes a file, and makes the directories it lies in. -/
  | write (path : Path) (data : List UInt8)
  | link (path target : Path)
  | remove (path : Path)
  /-- Removes a directory and all that lies in it. -/
  | removeTree (path : Path)
  | move (path target : Path)
  /-- Sets access rights; they keep nobody here from anything. -/
  | setMode (path : Path) (mode : Nat)
  deriving DecidableEq, Repr

def insert (t : FileTree) (names : List Name) (e : Entry) : FileTree :=
  { t with entries := t.entries.filter (fun entry => entry.1 ≠ names) ++ [(names, e)] }

/-- Removes an entry and all below it. -/
def erase (t : FileTree) (names : List Name) : FileTree :=
  { t with entries := t.entries.filter fun entry => !names.isPrefixOf entry.1 }

/-- The names of the place where the path's last name is or would be. -/
def place? (t : FileTree) (p : Path) : Option (List Name) :=
  match p.components.getLast?, p.parent? with
  | some (.name name), some parent => do
    let names ← if parent.bytes = [] then some t.workingDir else (t.resolve parent).toOption
    if t.isDirectory names ∧ name.length ≤ longestName then some (names ++ [name]) else none
  | _, _ => none

/-- Makes the directories that are missing on the way, and gives the place the steps lead to. -/
def makeDirs (t : FileTree) : List Step → List Name → Option (FileTree × List Name)
  | [], place => some (t, place)
  | .stay :: rest, place => makeDirs t rest place
  | .up :: rest, place => makeDirs t rest place.dropLast
  | .down name :: rest, place =>
    let next := place ++ [name]
    match t.lookup next with
    | some .directory => makeDirs t rest next
    | some (.file _) => none
    | some (.link _) =>
      match t.resolve (Path.ofNames next) with
      | .ok names => if t.isDirectory names then makeDirs t rest names else none
      | .error _ => none
    | none => makeDirs (t.insert next .directory) rest next

def makeDir (t : FileTree) (p : Path) : Option FileTree :=
  (t.makeDirs (stepsOf p) (if p.isAbsolute then [] else t.workingDir)).map (·.1)

/-- Moves what is at one place, with all below it, to another. -/
def relocate (t : FileTree) (source target : List Name) : FileTree :=
  let moved := t.entries.filter fun entry => source.isPrefixOf entry.1
  let kept := (t.erase source).erase target
  { kept with
    entries := kept.entries ++ moved.map fun entry => (target ++ entry.1.drop source.length, entry.2) }

/-- The tree after a change; none when the change fails. -/
def applied? (t : FileTree) : Action → Option FileTree
  | .makeDir p => t.makeDir p
  | .write p data => do
    let t ← match p.parent? with
      | some parent => if parent.bytes = [] then some t else t.makeDir parent
      | none => some t
    let names ← (t.resolveWritten p).toOption
    if t.isDirectory names then none else some (t.insert names (.file data))
  | .link p target => do
    let names ← t.place? p
    if (t.lookup names).isSome then none else some (t.insert names (.link target))
  | .remove p => do
    let names ← t.place? p
    match t.lookup names with
    | none | some .directory => none
    | some _ => some (t.erase names)
  | .removeTree p => do
    let names ← t.place? p
    if (t.lookup names).isSome then some (t.erase names) else none
  | .move p target => do
    let source ← t.place? p
    let target ← t.place? target
    if (t.lookup source).isSome ∧ source ≠ target then some (t.relocate source target) else none
  | .setMode _ _ => some t

/-- The tree after a change; a change that fails leaves it as it is. -/
def apply (t : FileTree) (a : Action) : FileTree := (t.applied? a).getD t

def applyAll (t : FileTree) (actions : List Action) : FileTree := actions.foldl apply t

end FileTree

end DirectoryWatch
