import DirectoryWatch.Text.Decimal

/-!
# Writing JSON

The compact form: no blanks, members in the order given. A string escapes the quote, the backslash
and the control characters below the blank, and nothing else.
-/

namespace DirectoryWatch.Json

/-- One character inside a string. -/
def escape (c : Char) : List Char :=
  if c = '"' then ['\\', '"']
  else if c = '\\' then ['\\', '\\']
  else if c = '\x08' then ['\\', 'b']
  else if c = '\x0c' then ['\\', 'f']
  else if c = '\n' then ['\\', 'n']
  else if c = '\r' then ['\\', 'r']
  else if c = '\t' then ['\\', 't']
  else if c.toNat < 0x20 then
    ['\\', 'u', '0', '0', Nat.digitChar (c.toNat / 16), Nat.digitChar (c.toNat % 16)]
  else [c]

def writeString (text : String) : String :=
  "\"" ++ String.ofList (text.toList.flatMap escape) ++ "\""

def writeNatural (n : Nat) : String := Text.decimal n

def writeBool (b : Bool) : String := if b then "true" else "false"

/-- An array of values that are already written. -/
def writeArray (items : List String) : String := "[" ++ String.intercalate "," items ++ "]"

/-- An object of values that are already written. -/
def writeObject (members : List (String × String)) : String :=
  "\x7b" ++ String.intercalate "," (members.map fun (name, value) => writeString name ++ ":" ++ value)
    ++ "\x7d"

end DirectoryWatch.Json
