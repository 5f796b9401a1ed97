import DirectoryWatch.Change
import DirectoryWatch.Disk

/-!
# Native records

A record tells of something that happened to some paths. `Record.changes` says which changes it
stands for: reading and opening are none, a rename is one change of the old path and one of the new
one, and a rename that does not say which way it went is told by whether the path is there now.
-/

namespace DirectoryWatch.Native

/-- Which end of a rename the paths of a record are. -/
inductive RenameSide where
  | source
  | target
  /-- The first path is the old one, the others are new ones. -/
  | both
  | unknown
  deriving DecidableEq, Repr

inductive RecordKind where
  /-- Read, opened or closed. -/
  | access
  | create
  | remove
  | rename (side : RenameSide)
  /-- Any other modification, and whatever is told no more about. -/
  | modify
  deriving DecidableEq, Repr

structure Record where
  kind : RecordKind
  paths : List Path
  /-- Records were lost before this one. -/
  rescan : Bool
  deriving DecidableEq, Repr

/-- The changes a record stands for. -/
def Record.changes (disk : Disk) (r : Record) : List (Path × ChangeKind) :=
  let uniform := fun kind : ChangeKind => r.paths.map fun p => (p, kind)
  match r.kind with
  | .access => []
  | .create => uniform .created
  | .remove => uniform .removed
  | .rename .source => uniform .renamedOld
  | .rename .target => uniform .renamedNew
  | .rename .both =>
    match r.paths with
    | [] => []
    | source :: targets => (source, .renamedOld) :: targets.map fun p => (p, .renamedNew)
  | .rename .unknown =>
    r.paths.map fun p => (p, if disk.isPresent p then .renamedNew else .renamedOld)
  | .modify => uniform .modified

end DirectoryWatch.Native
