import DirectoryWatch.Path
import DirectoryWatch.SystemError

/-!
# Errors of a native watch

What the layer that watches the disk reports instead of a record, and the paths it is about.
-/

namespace DirectoryWatch.Native

inductive Cause where
  | generic (text : String)
  | system (error : SystemError)
  | pathNotFound
  | watchNotFound
  | tooManyWatches
  deriving DecidableEq, Repr

def Cause.message : Cause → String
  | generic text => text
  | system error => error.message
  | pathNotFound => "No path was found."
  | watchNotFound => "No watch was found."
  | tooManyWatches => "OS file watch limit reached."

structure Error where
  cause : Cause
  paths : List Path
  deriving DecidableEq, Repr

/-- The cause, and the paths if there are any. -/
def Error.message (e : Error) : String :=
  if e.paths.isEmpty then e.cause.message
  else e.cause.message ++ " about " ++ Text.bracketed (e.paths.map Path.quoted)

end DirectoryWatch.Native
