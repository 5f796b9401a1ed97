import DirectoryWatch.Json.Value
import DirectoryWatch.Text.Decimal

/-!
# Reading JSON

`read?` accepts exactly one value with blanks around it. Every step takes the characters that are
left and gives back those it leaves; the depth a value may have is bounded by the length of the
text only.
-/

namespace DirectoryWatch.Json

def isBlank (c : Char) : Bool := c = ' ' || c = '\n' || c = '\t' || c = '\r'

def skipBlanks (chars : List Char) : List Char := chars.dropWhile isBlank

/-! ## Strings -/

/-- What a string is written of: characters, and units of 16 bits named by an escape. -/
inductive Element where
  | char (c : Char)
  | unit (value : Nat)
  deriving DecidableEq, Repr

/-- The four digits of a unit. -/
def hexUnit? (a b c d : Char) : Option Nat := Text.number? 16 [a, b, c, d]

/-- The elements up to the closing quote, and what follows it. -/
def elements? : List Char → Option (List Element × List Char)
  | [] => none
  | '"' :: rest => some ([], rest)
  | '\\' :: 'u' :: a :: b :: c :: d :: rest => do
    let value ← hexUnit? a b c d
    let (others, rest) ← elements? rest
    some (.unit value :: others, rest)
  | '\\' :: e :: rest => do
    let c ← match e with
      | '"' => some '"'
      | '\\' => some '\\'
      | '/' => some '/'
      | 'b' => some '\x08'
      | 'f' => some '\x0c'
      | 'n' => some '\n'
      | 'r' => some '\r'
      | 't' => some '\t'
      | _ => none
    let (others, rest) ← elements? rest
    some (.char c :: others, rest)
  | c :: rest =>
    if c.toNat < 0x20 ∨ c = '\\' then none
    else do
      let (others, rest) ← elements? rest
      some (.char c :: others, rest)

def isHigh (unit : Nat) : Bool := 0xD800 ≤ unit && unit ≤ 0xDBFF

def isLow (unit : Nat) : Bool := 0xDC00 ≤ unit && unit ≤ 0xDFFF

/-- The characters of the elements: a high unit needs a low one right after it, and a low one
stands nowhere else. -/
def join? : List Element → Option (List Char)
  | [] => some []
  | .char c :: rest => (join? rest).map (c :: ·)
  | .unit high :: .unit low :: rest =>
    if isHigh high then
      if isLow low then
        (join? rest).map (Char.ofNat (0x10000 + (high - 0xD800) * 0x400 + (low - 0xDC00)) :: ·)
      else none
    else if isLow high then none
    else (join? (.unit low :: rest)).map (Char.ofNat high :: ·)
  | .unit value :: rest =>
    if isHigh value || isLow value then none else (join? rest).map (Char.ofNat value :: ·)

/-- A string after its opening quote. -/
def string? (chars : List Char) : Option (Option String × List Char) := do
  let (found, rest) ← elements? chars
  some ((join? found).map String.ofList, rest)

/-! ## Numbers -/

/-- One or more digits, and what follows them. -/
def digits? (chars : List Char) : Option (List Char × List Char) :=
  match chars.span Char.isDigit with
  | ([], _) => none
  | found => some found

/-- The digits before the point: no zero before another digit. -/
def whole? (chars : List Char) : Option (List Char × List Char) :=
  match digits? chars with
  | some ('0' :: _ :: _, _) => none
  | found => found

/-- The digits after a point, if there is one: whether there was, and what follows. -/
def fraction? : List Char → Option (Bool × List Char)
  | '.' :: rest => (digits? rest).map fun found => (true, found.2)
  | chars => some (false, chars)

/-- The power of ten, if one is given. -/
def exponent? : List Char → Option (Bool × List Char)
  | e :: rest =>
    if e = 'e' ∨ e = 'E' then
      let rest := match rest with
        | '+' :: r => r
        | '-' :: r => r
        | r => r
      (digits? rest).map fun found => (true, found.2)
    else some (false, e :: rest)
  | [] => some (false, [])

/-- A number: its value if it is written as digits only. -/
def number? (chars : List Char) : Option (Option Nat × List Char) := do
  let (negative, chars) := match chars with
    | '-' :: rest => (true, rest)
    | chars => (false, chars)
  let (whole, chars) ← whole? chars
  let (fraction, chars) ← fraction? chars
  let (exponent, chars) ← exponent? chars
  some (if negative || fraction || exponent then none else Text.number? 10 whole, chars)

/-! ## Values -/

/-- What follows a word, if the characters start with it. -/
def after? (word chars : List Char) : Option (List Char) :=
  if word.isPrefixOf chars then some (chars.drop word.length) else none

mutual

/-- A value, blanks before it allowed. -/
def value? : Nat → List Char → Option (Json × List Char)
  | 0, _ => none
  | depth + 1, chars =>
    match skipBlanks chars with
    | '\x7b' :: rest =>
      match skipBlanks rest with
      | '\x7d' :: rest => some (.object [], rest)
      | rest => (members? depth rest).map fun found => (.object found.1, found.2)
    | '[' :: rest =>
      match skipBlanks rest with
      | ']' :: rest => some (.array [], rest)
      | rest => (items? depth rest).map fun found => (.array found.1, found.2)
    | '"' :: rest => (string? rest).map fun found => (.string found.1, found.2)
    | 'n' :: rest => (after? "ull".toList rest).map fun rest => (.null, rest)
    | 't' :: rest => (after? "rue".toList rest).map fun rest => (.bool true, rest)
    | 'f' :: rest => (after? "alse".toList rest).map fun rest => (.bool false, rest)
    | rest => (number? rest).map fun found => (.number found.1, found.2)

/-- One or more values and the bracket that closes them. -/
def items? : Nat → List Char → Option (List Json × List Char)
  | 0, _ => none
  | depth + 1, chars => do
    let (item, rest) ← value? depth chars
    match skipBlanks rest with
    | ',' :: rest =>
      let (others, rest) ← items? depth rest
      some (item :: others, rest)
    | ']' :: rest => some ([item], rest)
    | _ => none

/-- One or more members and the brace that closes them. -/
def members? : Nat → List Char → Option (List (Option String × Json) × List Char)
  | 0, _ => none
  | depth + 1, chars =>
    match skipBlanks chars with
    | '"' :: rest => do
      let (name, rest) ← string? rest
      match skipBlanks rest with
      | ':' :: rest =>
        let (value, rest) ← value? depth rest
        match skipBlanks rest with
        | ',' :: rest =>
          let (others, rest) ← members? depth rest
          some ((name, value) :: others, rest)
        | '\x7d' :: rest => some ([(name, value)], rest)
        | _ => none
      | _ => none
    | _ => none

end

/-- The value a text writes. -/
def read? (text : String) : Option Json :=
  match value? (text.toList.length + 1) text.toList with
  | some (value, rest) => if skipBlanks rest = [] then some value else none
  | none => none

end DirectoryWatch.Json
