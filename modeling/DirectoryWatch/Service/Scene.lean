import DirectoryWatch.FileTree.Snapshot
import DirectoryWatch.Service.Timeline

/-!
# A service on a file tree

A service with the backend of the system and the tree that it watches. Each change of the tree is
seen by every watch, and sent to its handle.
-/

namespace DirectoryWatch.Service

open Native (Watch Watches Snapshot)

/-- Has every watch look, and sends what it tells. -/
def Timeline.look (t : Timeline Watches) (snapshot : Watch → Snapshot) : Timeline Watches :=
  let (messages, watches) := t.backend.look snapshot
  messages.foldl (fun t (ticket, sent) => t.deliver ticket sent) { t with backend := watches }

structure Scene where
  tree : FileTree
  timeline : Timeline Watches

namespace Scene

/-- A service that is idle, and a tree. -/
def set (tree : FileTree) (service : Service) (now : Moment) : Scene :=
  ⟨tree, ⟨service, .empty, now, .zero⟩⟩

def start (s : Scene) : Ending × Scene :=
  let (ending, timeline) := s.timeline.start Watches.backend s.tree.disk
  (ending, { s with timeline := timeline.look s.tree.seen })

/-- The scene after a change of the tree. -/
def change (s : Scene) (a : FileTree.Action) : Scene :=
  ⟨s.tree.apply a, s.timeline.look (s.tree.seenAfter a)⟩

def changeAll (s : Scene) (changes : List FileTree.Action) : Scene := changes.foldl change s

/-- Lets the worker go on until it has to wait. -/
def settle (s : Scene) : Scene :=
  { s with timeline := s.timeline.settle Watches.backend s.tree.disk }

end Scene

end DirectoryWatch.Service
