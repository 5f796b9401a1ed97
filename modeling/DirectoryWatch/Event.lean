import DirectoryWatch.Change
import DirectoryWatch.Clock
import DirectoryWatch.Path

/-!
# Events

A change of one path at one moment. The path keeps its spelling; two events are the same when
kind and moment are equal and the paths are the same by components.
-/

namespace DirectoryWatch

structure Event where
  path : Path
  kind : ChangeKind
  time : Moment
  deriving DecidableEq, Repr

namespace Event

/-- What makes up an event apart from the spelling of its path. -/
def key (e : Event) : List Path.Component × ChangeKind × Moment := (e.path.components, e.kind, e.time)

def Same (e f : Event) : Prop := e.key = f.key

instance (e f : Event) : Decidable (Same e f) := inferInstanceAs (Decidable (_ = _))

/-- One line for a reader: the kind, a blank, the path. -/
def display (e : Event) : String := e.kind.name ++ " " ++ e.path.display

end Event

end DirectoryWatch
