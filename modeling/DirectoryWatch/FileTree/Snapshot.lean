import DirectoryWatch.FileTree
import DirectoryWatch.Native.Watches

/-!
# Snapshots of a file tree

What a watch sees of a file tree after a change.
-/

namespace DirectoryWatch.FileTree

open Native (Stamp Snapshot Watch)

def Entry.stamp : Entry → Stamp
  | .directory => .directory
  | .link _ => .link
  | .file data => .file data.length .origin

/-- The entry is one that a watch on a root sees. -/
def inScope (root names : List Name) (recursive : Bool) : Bool :=
  root.isPrefixOf names &&
    (names.length = root.length + 1 || recursive && decide (root.length < names.length))

/-- The entries that a watch on a root sees. -/
def listing (t : FileTree) (root : List Name) (recursive : Bool) : List (Path × Stamp) :=
  (t.entries.filter fun entry => inScope root entry.1 recursive).map fun entry =>
    (Path.ofNames entry.1, Entry.stamp entry.2)

/-- What a watch sees of the tree. -/
def seen (t : FileTree) (watch : Watch) : Snapshot :=
  match t.resolve watch.root with
  | .ok names =>
    if t.isDirectory names then .listed (t.listing names watch.recursive) else .removed
  | .error _ => .removed

/-- The change renames what the path names. -/
def movesAway (t : FileTree) (root : Path) : Action → Bool
  | .move source _ => t.place? source = (t.resolve root).toOption
  | _ => false

/-- What a watch sees after a change of the tree. -/
def seenAfter (t : FileTree) (change : Action) (watch : Watch) : Snapshot :=
  match (t.apply change).seen watch with
  | .listed entries => .listed entries
  | _ => if t.movesAway watch.root change then .moved else .removed

end DirectoryWatch.FileTree
