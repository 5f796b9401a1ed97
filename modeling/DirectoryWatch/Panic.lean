import DirectoryWatch.Text.Decimal

/-!
# Panics

A state that no step foresees ends the thread that meets it. A panic of the worker is caught there
and becomes the failure of the service; one of the program ends the program.
-/

namespace DirectoryWatch

inductive Panic where
  /-- A path lies under the root by components but not as it is spelt. -/
  | pathNotUnderRoot
  /-- A position past the end of a list. -/
  | indexOutOfBounds (length index : Nat)
  /-- A moment later than the clock can count to. -/
  | momentOverflow
  deriving DecidableEq, Repr

def Panic.message : Panic → String
  | pathNotUnderRoot => "path is expected to be under the root"
  | indexOutOfBounds length index =>
    "index out of bounds: the len is " ++ Text.decimal length ++ " but the index is "
      ++ Text.decimal index
  | momentOverflow => "overflow when adding duration to instant"

end DirectoryWatch
