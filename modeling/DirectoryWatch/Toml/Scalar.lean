import DirectoryWatch.Text.Decimal
import DirectoryWatch.Toml.Value

/-!
# TOML scalars

What one word of TOML stands for: a truth value, an integer in one of four bases, a number with a
fraction, a date or a time.
-/

namespace DirectoryWatch.Toml

/-- The digits with the underscores between two of them taken out; none where an underscore does
not stand between two digits. -/
def joinDigits? (isDigit : Char → Bool) : List Char → Option (List Char)
  | [] => none
  | [c] => if isDigit c then some [c] else none
  | c :: '_' :: rest => if isDigit c then (joinDigits? isDigit rest).map (c :: ·) else none
  | c :: rest => if isDigit c then (joinDigits? isDigit rest).map (c :: ·) else none

def isBaseDigit (base : Nat) (c : Char) : Bool := (Text.digit? base c).isSome

def natural (base : Nat) (chars : List Char) : Option Nat :=
  (joinDigits? (isBaseDigit base) chars).bind (Text.number? base)

/-- A decimal number without a zero before another digit. -/
def plainDecimal? : List Char → Option Nat
  | ['0'] => some 0
  | '0' :: _ => none
  | chars => natural 10 chars

def signed? : List Char → Option Int
  | '+' :: rest => (plainDecimal? rest).map Int.ofNat
  | '-' :: rest => (plainDecimal? rest).map fun n => -(n : Int)
  | chars => (plainDecimal? chars).map Int.ofNat

def integer? (chars : List Char) : Option Int :=
  let value := match chars with
    | '0' :: 'x' :: rest => (natural 16 rest).map Int.ofNat
    | '0' :: 'o' :: rest => (natural 8 rest).map Int.ofNat
    | '0' :: 'b' :: rest => (natural 2 rest).map Int.ofNat
    | chars => signed? chars
  value.filter isInteger

/-! ## Numbers with a fraction -/

def dropSign : List Char → List Char
  | '+' :: rest => rest
  | '-' :: rest => rest
  | chars => chars

def isDigits (chars : List Char) : Bool := (natural 10 chars).isSome

/-- The exponent behind its letter. -/
def isExponent (chars : List Char) : Bool := isDigits (dropSign chars)

/-- The digits behind the point, with an exponent or without one. -/
def isFraction (chars : List Char) : Bool :=
  match chars.span fun c => c ≠ 'e' ∧ c ≠ 'E' with
  | (digits, []) => isDigits digits
  | (digits, _ :: power) => isDigits digits && isExponent power

def isFloat (chars : List Char) : Bool :=
  let chars := dropSign chars
  if chars = "inf".toList ∨ chars = "nan".toList then true
  else match chars.span fun c => c ≠ '.' ∧ c ≠ 'e' ∧ c ≠ 'E' with
    | (_, []) => false
    | (whole, '.' :: fraction) => (plainDecimal? whole).isSome && isFraction fraction
    | (whole, _ :: power) => (plainDecimal? whole).isSome && isExponent power

/-! ## Dates and times -/

/-- A number of that many digits between two bounds. -/
def isField (width low high : Nat) (chars : List Char) : Bool :=
  chars.length = width && chars.all Char.isDigit &&
    ((Text.number? 10 chars).any fun n => low ≤ n && n ≤ high)

def isLeapYear (y : Nat) : Bool := y % 4 = 0 && (y % 100 ≠ 0 || y % 400 = 0)

def daysIn (year month : Nat) : Nat :=
  if month = 2 then if isLeapYear year then 29 else 28
  else if month = 4 ∨ month = 6 ∨ month = 9 ∨ month = 11 then 30
  else 31

def isDate : List Char → Bool
  | [y1, y2, y3, y4, '-', m1, m2, '-', d1, d2] =>
    isField 4 0 9999 [y1, y2, y3, y4] && isField 2 1 12 [m1, m2] &&
      match Text.number? 10 [y1, y2, y3, y4], Text.number? 10 [m1, m2] with
      | some year, some month => isField 2 1 (daysIn year month) [d1, d2]
      | _, _ => false
  | _ => false

def isClock : List Char → Bool
  | h1 :: h2 :: ':' :: m1 :: m2 :: ':' :: s1 :: s2 :: rest =>
    isField 2 0 23 [h1, h2] && isField 2 0 59 [m1, m2] && isField 2 0 60 [s1, s2] &&
      match rest with
      | [] => true
      | '.' :: fraction => !fraction.isEmpty && fraction.all Char.isDigit
      | _ => false
  | _ => false

def isZone : List Char → Bool
  | [sign, h1, h2, ':', m1, m2] =>
    (sign = '+' || sign = '-') && isField 2 0 23 [h1, h2] && isField 2 0 59 [m1, m2]
  | _ => false

/-- A time of day, with a zone behind it or without one. -/
def isZonedClock (chars : List Char) : Bool :=
  isClock chars ||
    match chars.reverse with
    | 'Z' :: rest => isClock rest.reverse
    | 'z' :: rest => isClock rest.reverse
    | _ => isZone (chars.drop (chars.length - 6)) && isClock (chars.take (chars.length - 6))

/-- A date, a time of day, or both with a `T` or a blank between them. -/
def isTime (chars : List Char) : Bool :=
  isDate chars || isClock chars ||
    match chars.drop 10 with
    | c :: clock =>
      (c = 'T' || c = 't' || c = ' ') && isDate (chars.take 10) && isZonedClock clock
    | [] => false

/-- What a word stands for. -/
def scalar? (chars : List Char) : Option Toml :=
  if chars = "true".toList then some (.boolean true)
  else if chars = "false".toList then some (.boolean false)
  else match integer? chars with
    | some n => some (.integer n)
    | none =>
      if isFloat chars then some (.float (String.ofList chars))
      else if isTime chars then some (.time (String.ofList chars))
      else none

end DirectoryWatch.Toml
