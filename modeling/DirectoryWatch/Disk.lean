import DirectoryWatch.Path
import DirectoryWatch.SystemError

/-!
# What is asked of the disk

The answers that the disk gives at one time. Each step that looks at the disk is given the answers
of that time, so what holds of a step holds whatever the disk looks like, also when a directory is
gone or came back since the step before. `Disk.ofAnswers` is a disk that was asked beforehand about
the paths that a step will look at.
-/

namespace DirectoryWatch

structure Disk where
  /-- The absolute path without links that a path names. -/
  canonical : Path → Except SystemError Path
  /-- The path names a directory. -/
  isDir : Path → Bool
  /-- The path names anything. -/
  isPresent : Path → Bool
  /-- The bytes of the file that the path names. -/
  read : Path → Except SystemError (List UInt8)

/-- The answers about one path. -/
structure Disk.Answer where
  canonical : Except SystemError Path
  isDir : Bool
  isPresent : Bool
  read : Except SystemError (List UInt8)

/-- What is answered about a path that is not there. -/
def Disk.absent : Disk.Answer := ⟨.error .noEntry, false, false, .error .noEntry⟩

def Disk.ofAnswers (answers : List (Path × Disk.Answer)) : Disk :=
  let about := fun path => (answers.lookup path).getD absent
  ⟨fun path => (about path).canonical, fun path => (about path).isDir,
    fun path => (about path).isPresent, fun path => (about path).read⟩

end DirectoryWatch
