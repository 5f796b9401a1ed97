/-!
# Kinds of change

What happened to a path, and how two things that happened to it one after the other read as one.
-/

namespace DirectoryWatch

inductive ChangeKind where
  | created
  | modified
  | removed
  /-- The path was renamed away. -/
  | renamedOld
  /-- Something was renamed to the path. -/
  | renamedNew
  deriving DecidableEq, Repr, Hashable

namespace ChangeKind

def all : List ChangeKind := [created, modified, removed, renamedOld, renamedNew]

def name : ChangeKind → String
  | created => "created"
  | modified => "modified"
  | removed => "removed"
  | renamedOld => "renamed-old"
  | renamedNew => "renamed-new"

/-- The words of a kind, each with a capital, as one. -/
def identifier : ChangeKind → String
  | created => "Created"
  | modified => "Modified"
  | removed => "Removed"
  | renamedOld => "RenamedOld"
  | renamedNew => "RenamedNew"

/-- Small letters, with a dash before each capital but the first character. -/
def dashed (identifier : String) : String :=
  String.ofList <| identifier.toList.zipIdx.flatMap fun (c, place) =>
    if 0 < place ∧ c.isUpper then ['-', c.toLower] else [c.toLower]

/-- The kind as it is written for programs, and read. -/
def tag (kind : ChangeKind) : String := dashed kind.identifier

def ofName? (tag : String) : Option ChangeKind := all.find? fun kind => kind.tag = tag

theorem tag_eq_name (kind : ChangeKind) : kind.tag = kind.name := by
  cases kind <;> decide

theorem ofName?_name (kind : ChangeKind) : ofName? kind.name = some kind := by
  unfold ofName?
  simp only [tag_eq_name]
  cases kind <;> decide

/-- The path is no longer there after the change. -/
def takesAway : ChangeKind → Bool
  | removed | renamedOld => true
  | created | modified | renamedNew => false

/-- Two changes of one path as one; none when the second undoes the first. -/
def merge : ChangeKind → ChangeKind → Option ChangeKind
  | created, later => if later.takesAway then none else some created
  | removed, later => some (if later.takesAway then later else modified)
  | renamedOld, later => some (if later.takesAway then later else modified)
  | renamedNew, later => some (if later = modified then renamedNew else later)
  | modified, later => some later

theorem merge_eq_none_iff (earlier later : ChangeKind) :
    earlier.merge later = none ↔ earlier = created ∧ later.takesAway = true := by
  cases earlier <;> cases later <;> decide

theorem merge_takesAway {earlier later merged : ChangeKind} (h : earlier.merge later = some merged)
    (stays : earlier.takesAway = false) (remains : later.takesAway = false) :
    merged.takesAway = false := by
  cases earlier <;> cases later <;> cases h <;> simp_all [takesAway]

end ChangeKind

end DirectoryWatch
