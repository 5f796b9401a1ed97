import DirectoryWatch.Toml.Quotation
import DirectoryWatch.Toml.Scalar

/-!
# Reading TOML

A text is read into statements: headers of tables, headers of elements of arrays of tables, and
keys with values. Every step gives back the characters it leaves.
-/

namespace DirectoryWatch.Toml

def isSpace (c : Char) : Bool := c = ' ' || c = '\t'

def skipSpaces (chars : List Char) : List Char := chars.dropWhile isSpace

/-- Past a comment, if one starts here: no control character but the tab stands in it. -/
def skipComment? : List Char → Option (List Char)
  | '#' :: rest =>
    let after := rest.dropWhile fun c => !isForbidden c && c ≠ '\n'
    match after with
    | [] => some []
    | '\n' :: _ => some after
    | '\r' :: '\n' :: _ => some after
    | _ => none
  | chars => some chars

/-- Past the end of a line, if one is here. -/
def newline? : List Char → Option (List Char)
  | '\n' :: rest => some rest
  | '\r' :: '\n' :: rest => some rest
  | _ => none

/-- Past spaces, comments and ends of lines. -/
def skipLines? : Nat → List Char → Option (List Char)
  | 0, _ => none
  | steps + 1, chars => do
    let rest ← skipComment? (skipSpaces chars)
    match newline? rest with
    | some rest => skipLines? steps rest
    | none => some rest

/-- Past the rest of a line that holds nothing more. -/
def endLine? (chars : List Char) : Option (List Char) := do
  let rest ← skipComment? (skipSpaces chars)
  match rest with
  | [] => some []
  | rest => newline? rest

/-! ## Keys -/

def isBareChar (c : Char) : Bool := c.isAlphanum || c = '_' || c = '-'

/-- One key, quoted or bare. -/
def simpleKey? (chars : List Char) : Option (String × List Char) :=
  match chars with
  | '"' :: _ => (shortQuotation? chars).map fun (key, rest) => (String.ofList key, rest)
  | '\'' :: _ => (shortQuotation? chars).map fun (key, rest) => (String.ofList key, rest)
  | _ =>
    match chars.span isBareChar with
    | ([], _) => none
    | (key, rest) => some (String.ofList key, rest)

/-- Keys with dots between them. -/
def keys? : Nat → List Char → Option (List String × List Char)
  | 0, _ => none
  | steps + 1, chars => do
    let (key, rest) ← simpleKey? (skipSpaces chars)
    match skipSpaces rest with
    | '.' :: rest => do
      let (others, rest) ← keys? steps rest
      some (key :: others, rest)
    | rest => some ([key], rest)

/-! ## Values -/

def isWordChar (c : Char) : Bool :=
  c.isAlphanum || c = '_' || c = '+' || c = '-' || c = '.' || c = ':'

/-- A word, with the time of day behind a date and one blank. -/
def word (chars : List Char) : List Char × List Char :=
  match chars.span isWordChar with
  | (date, ' ' :: rest) =>
    let (clock, after) := rest.span isWordChar
    if isDate date ∧ isZonedClock clock then (date ++ ' ' :: clock, after) else (date, ' ' :: rest)
  | found => found

/-- The members with a value put in under keys, tables being made on the way. -/
def put? (value : Toml) : List String → List (String × Toml) → Option (List (String × Toml))
  | [], _ => none
  | [key], members =>
    if (members.lookup key).isSome then none else some (members ++ [(key, value)])
  | key :: keys, members =>
    match members.lookup key with
    | none => (put? value keys []).map fun inner => members ++ [(key, .table inner)]
    | some (.table inner) =>
      (put? value keys inner).map fun inner =>
        members.map fun m => if m.1 = key then (key, .table inner) else m
    | some _ => none

mutual

def value? : Nat → List Char → Option (Toml × List Char)
  | 0, _ => none
  | depth + 1, chars =>
    match chars with
    | '"' :: _ => (quotation? chars).map fun (text, rest) => (.string (String.ofList text), rest)
    | '\'' :: _ => (quotation? chars).map fun (text, rest) => (.string (String.ofList text), rest)
    | '[' :: rest => (items? depth rest).map fun (items, rest) => (.array items, rest)
    | '\x7b' :: rest =>
      match skipSpaces rest with
      | '\x7d' :: rest => some (.table [], rest)
      | rest => (members? depth [] rest).map fun (members, rest) => (.table members, rest)
    | _ => do
      let (found, rest) := word chars
      some (← scalar? found, rest)

/-- The items of an array and its closing bracket; a comma may stand behind the last item. -/
def items? : Nat → List Char → Option (List Toml × List Char)
  | 0, _ => none
  | depth + 1, chars => do
    match ← skipLines? (chars.length + 1) chars with
    | ']' :: rest => some ([], rest)
    | rest => do
      let (item, rest) ← value? depth rest
      match ← skipLines? (rest.length + 1) rest with
      | ',' :: rest => do
        let (others, rest) ← items? depth rest
        some (item :: others, rest)
      | ']' :: rest => some ([item], rest)
      | _ => none

/-- One or more members of a table in braces, on one line, and its closing brace. -/
def members? : Nat → List (String × Toml) → List Char → Option (List (String × Toml) × List Char)
  | 0, _, _ => none
  | depth + 1, before, chars => do
    let (keys, rest) ← keys? (chars.length + 1) chars
    match rest with
    | '=' :: rest => do
      let (value, rest) ← value? depth (skipSpaces rest)
      let members ← put? value keys before
      match skipSpaces rest with
      | ',' :: rest => members? depth members rest
      | '\x7d' :: rest => some (members, rest)
      | _ => none
    | _ => none

end

/-! ## Statements -/

inductive Statement where
  /-- What follows belongs to the table under the keys. -/
  | header (keys : List String)
  /-- What follows belongs to a new element of the array under the keys. -/
  | element (keys : List String)
  | assign (keys : List String) (value : Toml)
  deriving Repr

def statement? (chars : List Char) : Option (Statement × List Char) :=
  match chars with
  | '[' :: '[' :: rest => do
    match ← keys? (rest.length + 1) rest with
    | (keys, ']' :: ']' :: rest) => some (.element keys, rest)
    | _ => none
  | '[' :: rest => do
    match ← keys? (rest.length + 1) rest with
    | (keys, ']' :: rest) => some (.header keys, rest)
    | _ => none
  | _ => do
    match ← keys? (chars.length + 1) chars with
    | (keys, '=' :: rest) => do
      let (value, rest) ← value? (rest.length + 1) (skipSpaces rest)
      some (.assign keys value, rest)
    | _ => none

def statements? : Nat → List Char → Option (List Statement)
  | 0, _ => none
  | steps + 1, chars => do
    match ← skipLines? (chars.length + 1) chars with
    | [] => some []
    | rest => do
      let (found, rest) ← statement? rest
      let others ← statements? steps (← endLine? rest)
      some (found :: others)

/-- The mark that tells the order of bytes in a text, and tells nothing here. -/
def dropMark : List Char → List Char
  | '\uFEFF' :: rest => rest
  | chars => chars

def readStatements? (text : String) : Option (List Statement) :=
  let chars := dropMark text.toList
  statements? (chars.length + 1) chars

end DirectoryWatch.Toml
