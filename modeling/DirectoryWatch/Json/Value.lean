/-!
# JSON values

Values as far as events and settings need them. A string whose escapes name half of a pair of
surrogates is well formed and has no text; a number is kept only if it is written as plain digits.
-/

namespace DirectoryWatch

inductive Json where
  | null
  | bool (value : Bool)
  | number (natural? : Option Nat)
  | string (text? : Option String)
  | array (items : List Json)
  | object (members : List (Option String × Json))
  deriving Repr

namespace Json

/-- The number, if it is natural and in plain digits. -/
def natural? : Json → Option Nat
  | number n => n
  | _ => none

def text? : Json → Option String
  | string s => s
  | _ => none

/-- The value of the one member with a name; none when it is missing or given twice. -/
def member? (name : String) (members : List (Option String × Json)) : Option Json :=
  match members.filter fun m => m.1 = some name with
  | [m] => some m.2
  | _ => none

end Json

end DirectoryWatch
