/-!
# TOML values

Numbers with a fraction, dates and times are kept as they are written: nothing here counts with
them.
-/

namespace DirectoryWatch

inductive Toml where
  | string (text : String)
  | integer (value : Int)
  | float (text : String)
  | boolean (value : Bool)
  | time (text : String)
  | array (items : List Toml)
  | table (members : List (String × Toml))
  deriving Repr

namespace Toml

/-- Integers have 64 bits. -/
def greatestInteger : Int := Int64.maxValue.toInt

def leastInteger : Int := Int64.minValue.toInt

def isInteger (n : Int) : Bool := leastInteger ≤ n && n ≤ greatestInteger

def bool? : Toml → Option Bool
  | boolean b => some b
  | _ => none

/-- An integer that is not negative. -/
def natural? : Toml → Option Nat
  | integer (.ofNat n) => some n
  | _ => none

def text? : Toml → Option String
  | string s => some s
  | _ => none

/-- The texts of an array of strings. -/
def texts? : Toml → Option (List String)
  | array items => items.mapM text?
  | _ => none

end Toml

end DirectoryWatch
