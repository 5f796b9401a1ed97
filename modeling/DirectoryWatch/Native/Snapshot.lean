import DirectoryWatch.Clock
import DirectoryWatch.Native.Record

/-!
# Snapshots of a watched root

What lies under a root at one time. Two snapshots taken one after the other differ by the records of
what happened between them.
-/

namespace DirectoryWatch.Native

/-- What is kept of one entry to tell whether it changed. -/
inductive Stamp where
  | directory
  | link
  | file (size : Nat) (written : Moment)
  deriving DecidableEq, Repr

inductive Snapshot where
  /-- The entries in scope, a directory before what lies in it. -/
  | listed (entries : List (Path × Stamp))
  /-- The root was renamed away. -/
  | moved
  /-- The root is gone. -/
  | removed
  deriving DecidableEq, Repr

namespace Snapshot

def recordOf (kind : RecordKind) (path : Path) : Record := ⟨kind, [path], false⟩

/-- The records of entries that are gone, those lying deeper first. -/
def removals (before after : List (Path × Stamp)) : List Record :=
  (before.filter fun entry => (after.lookup entry.1).isNone).reverse.map fun entry =>
    recordOf .remove entry.1

/-- The record of an entry, if it is new or changed. -/
def record? (before : List (Path × Stamp)) (entry : Path × Stamp) : Option Record :=
  match before.lookup entry.1 with
  | none => some (recordOf .create entry.1)
  | some stamp => if stamp = entry.2 then none else some (recordOf .modify entry.1)

/-- The records of what happened between two snapshots of a root. A root that is gone has no more
to tell. -/
def records (root : Path) : Snapshot → Snapshot → List Record
  | .listed before, .listed after => removals before after ++ after.filterMap (record? before)
  | .listed _, .moved => [recordOf (.rename .source) root]
  | .listed before, .removed => removals before [] ++ [recordOf .remove root]
  | .moved, _ | .removed, _ => []

end Snapshot

end DirectoryWatch.Native
