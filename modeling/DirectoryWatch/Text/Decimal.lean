/-!
# Numbers as text

Digits of natural numbers, padded or not, and the reading of whole numbers of 64 bits.
-/

namespace DirectoryWatch.Text

def decimal (n : Nat) : String := String.ofList (Nat.toDigits 10 n)

def signedDecimal : Int → String
  | .ofNat n => decimal n
  | .negSucc n => "-" ++ decimal (n + 1)

def hex (n : Nat) : String := String.ofList (Nat.toDigits 16 n)

def upperHex (n : Nat) : String := String.ofList ((Nat.toDigits 16 n).map Char.toUpper)

/-- The text with `fill` put in front up to a width. -/
def padLeft (fill : Char) (width : Nat) (text : String) : String :=
  String.ofList (List.replicate (width - text.length) fill) ++ text

/-- The text with blanks put behind up to a width. -/
def padRight (width : Nat) (text : String) : String :=
  text ++ String.ofList (List.replicate (width - text.length) ' ')

/-- The value of a digit in a base up to sixteen, in either case. -/
def digit? (base : Nat) (c : Char) : Option Nat :=
  let value :=
    if '0' ≤ c ∧ c ≤ '9' then some (c.toNat - 48)
    else if 'a' ≤ c ∧ c ≤ 'f' then some (c.toNat - 87)
    else if 'A' ≤ c ∧ c ≤ 'F' then some (c.toNat - 55)
    else none
  value.filter (· < base)

/-- The number that one or more digits write. -/
def number? (base : Nat) : List Char → Option Nat
  | [] => none
  | chars => (chars.mapM (digit? base)).map (·.foldl (fun n d => n * base + d) 0)

/-- The greatest whole number of 64 bits. -/
def maxWord : Nat := UInt64.size - 1

/-- A whole number of 64 bits in decimal: digits, a plus sign before them allowed. -/
def word? (text : String) : Option Nat :=
  let chars := match text.toList with
    | '+' :: rest => rest
    | chars => chars
  (number? 10 chars).filter (· ≤ maxWord)

end DirectoryWatch.Text
