import DirectoryWatch.WatchError

/-!
# Failures of a run

What the program tells when a run fails: what it was about to do, then the error, then what the
error passes on.
-/

namespace DirectoryWatch

inductive Failure where
  | loading (path : Path) (error : WatchError)
  | configuring (error : WatchError)
  | starting (error : WatchError)
  | watching (error : WatchError)
  deriving DecidableEq, Repr

namespace Failure

def error : Failure → WatchError
  | loading _ e | configuring e | starting e | watching e => e

/-- What went wrong as the program sees it. -/
def context : Failure → String
  | loading path _ => "Failed to load config from " ++ path.display
  | configuring _ => "Invalid watcher configuration"
  | starting _ => "Failed to start watching"
  | watching _ => "Watching failed"

/-- The error and what it passes on. -/
def causes (f : Failure) : List String := f.error.message :: f.error.source?.toList

def chain (f : Failure) : List String := f.context :: f.causes

/-! ## The report -/

/-- A text behind a label, with the lines after the first set in as far as the label is wide. -/
def labelled (label text : String) : String :=
  let margin := List.replicate label.length ' '
  label ++ String.ofList (text.toList.flatMap fun c => if c = '\n' then c :: margin else [c])

def labelWidth : Nat := 5

/-- The label of one of several causes. -/
def label (position : Nat) : String :=
  Text.padLeft ' ' labelWidth (Text.decimal position) ++ ": "

/-- The label of an only cause. -/
def onlyLabel : String := "    "

def causeLines : List String → List String
  | [cause] => [labelled onlyLabel cause]
  | causes => causes.zipIdx.map fun (cause, position) => labelled (label position) cause

def report (f : Failure) : String :=
  "Error: " ++ f.context ++ "\n\nCaused by:\n" ++ String.intercalate "\n" (causeLines f.causes)

end Failure

end DirectoryWatch
