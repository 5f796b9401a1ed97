import DirectoryWatch.Text.Decimal

/-!
# TOML strings

A string stands between double quotes, where a backslash starts an escape, or between single ones,
where nothing does; three quotes instead of one let it run over several lines. Each reader starts
behind the opening quotes and gives back what follows the closing ones. `writeString` takes the
first of these forms that holds the text as it is, and escapes only if none does.
-/

namespace DirectoryWatch.Toml

/-- A control character that no string holds as it is. -/
def isForbidden (c : Char) : Bool := (c.toNat < 0x20 && c ≠ '\t' && c ≠ '\n') || c.toNat = 0x7F

/-! ## Reading -/

/-- The character of a code, unless it is a surrogate or past the last character. -/
def charOfCode? (n : Nat) : Option Char :=
  if n < 0xD800 ∨ (0xE000 ≤ n ∧ n < 0x110000) then some (Char.ofNat n) else none

def charOfHex? (digits : List Char) : Option Char := (Text.number? 16 digits).bind charOfCode?

/-- The character that a letter behind a backslash stands for. -/
def escaped? : Char → Option Char
  | 'b' => some '\x08'
  | 't' => some '\t'
  | 'n' => some '\n'
  | 'f' => some '\x0c'
  | 'r' => some '\r'
  | '"' => some '"'
  | '\\' => some '\\'
  | _ => none

abbrev Found := Option (List Char × List Char)

def prepend (c : Char) (found : Found) : Found := found.map fun (text, rest) => (c :: text, rest)

/-- Between double quotes. -/
def basic? : List Char → Found
  | [] => none
  | '"' :: rest => some ([], rest)
  | '\\' :: 'u' :: a :: b :: c :: d :: rest => do
    prepend (← charOfHex? [a, b, c, d]) (basic? rest)
  | '\\' :: 'U' :: a :: b :: c :: d :: e :: f :: g :: h :: rest => do
    prepend (← charOfHex? [a, b, c, d, e, f, g, h]) (basic? rest)
  | '\\' :: e :: rest => do prepend (← escaped? e) (basic? rest)
  | c :: rest =>
    if isForbidden c ∨ c = '\n' ∨ c = '\\' then none else prepend c (basic? rest)

/-- Between single quotes. -/
def literal? : List Char → Found
  | [] => none
  | '\'' :: rest => some ([], rest)
  | c :: rest => if isForbidden c ∨ c = '\n' then none else prepend c (literal? rest)

/-- The rest of the line is blank. -/
def endsLine (chars : List Char) : Bool :=
  match chars.dropWhile fun c => c = ' ' ∨ c = '\t' with
  | '\n' :: _ => true
  | '\r' :: '\n' :: _ => true
  | _ => false

/-- Between three double quotes. While `skipping`, blanks and ends of lines are passed over, as they
are behind a backslash at the end of a line. Up to two quotes may stand before the closing three. -/
def longBasic? (skipping : Bool) : List Char → Found
  | [] => none
  | '"' :: '"' :: '"' :: '"' :: '"' :: rest => some (['"', '"'], rest)
  | '"' :: '"' :: '"' :: '"' :: rest => some (['"'], rest)
  | '"' :: '"' :: '"' :: rest => some ([], rest)
  | '\r' :: '\n' :: rest =>
    if skipping then longBasic? true rest else prepend '\n' (longBasic? false rest)
  | '\\' :: 'u' :: a :: b :: c :: d :: rest => do
    prepend (← charOfHex? [a, b, c, d]) (longBasic? false rest)
  | '\\' :: 'U' :: a :: b :: c :: d :: e :: f :: g :: h :: rest => do
    prepend (← charOfHex? [a, b, c, d, e, f, g, h]) (longBasic? false rest)
  | '\\' :: e :: rest =>
    match escaped? e with
    | some c => prepend c (longBasic? false rest)
    | none => if endsLine (e :: rest) then longBasic? true (e :: rest) else none
  | c :: rest =>
    if skipping ∧ (c = ' ' ∨ c = '\t' ∨ c = '\n') then longBasic? true rest
    else if isForbidden c ∨ c = '\\' then none
    else prepend c (longBasic? false rest)

/-- Between three single quotes. -/
def longLiteral? : List Char → Found
  | [] => none
  | '\'' :: '\'' :: '\'' :: '\'' :: '\'' :: rest => some (['\'', '\''], rest)
  | '\'' :: '\'' :: '\'' :: '\'' :: rest => some (['\''], rest)
  | '\'' :: '\'' :: '\'' :: rest => some ([], rest)
  | '\r' :: '\n' :: rest => prepend '\n' (longLiteral? rest)
  | c :: rest => if isForbidden c then none else prepend c (longLiteral? rest)

/-- A line that ends right behind the opening quotes is no part of the text. -/
def dropFirstLine : List Char → List Char
  | '\n' :: rest => rest
  | '\r' :: '\n' :: rest => rest
  | chars => chars

/-- A string in any form, quotes included. -/
def quotation? : List Char → Found
  | '"' :: '"' :: '"' :: rest => longBasic? false (dropFirstLine rest)
  | '"' :: rest => basic? rest
  | '\'' :: '\'' :: '\'' :: rest => longLiteral? (dropFirstLine rest)
  | '\'' :: rest => literal? rest
  | _ => none

/-- A string in a form that stays on its line. -/
def shortQuotation? : List Char → Found
  | '"' :: rest => basic? rest
  | '\'' :: rest => literal? rest
  | _ => none

/-! ## Writing -/

/-- The length of the longest run of a character, `run` of it being read already. -/
def longestRun (c : Char) : List Char → Nat → Nat
  | [], run => run
  | d :: rest, run => if d = c then longestRun c rest (run + 1) else max run (longestRun c rest 0)

/-- One character between double quotes, the double quote left out. -/
def escapeChar (long : Bool) (c : Char) : List Char :=
  if c = '\x08' then ['\\', 'b']
  else if c = '\t' then ['\\', 't']
  else if c = '\n' then if long then ['\n'] else ['\\', 'n']
  else if c = '\x0c' then ['\\', 'f']
  else if c = '\r' then ['\\', 'r']
  else if c = '\\' then ['\\', '\\']
  else if isForbidden c then
    ['\\', 'u'] ++ (Text.padLeft '0' 4 (Text.upperHex c.toNat)).toList
  else [c]

/-- The text between double quotes. Of the quotes in a row, `run` of them being written already,
those past the second are escaped if the string is long, and all if it is not. An escape ends a
run. -/
def escapeText (long : Bool) : List Char → Nat → List Char
  | [], _ => []
  | c :: rest, run =>
    if c = '"' then
      if run < (if long then 2 else 0) then c :: escapeText long rest (run + 1)
      else ['\\', '"'] ++ escapeText long rest 0
    else escapeChar long c ++ escapeText long rest 0

/-- The line end that a long string starts with if it holds one. -/
def firstLine (chars : List Char) : List Char := if '\n' ∈ chars then ['\n'] else []

def longDouble : List Char := ['"', '"', '"']

def longSingle : List Char := ['\'', '\'', '\'']

def writeChars (chars : List Char) : List Char :=
  let plain := !chars.any isForbidden
  let oneLine := '\n' ∉ chars
  let noEscape := '\\' ∉ chars
  let doubles := longestRun '"' chars 0
  let singles := longestRun '\'' chars 0
  if plain ∧ noEscape ∧ doubles = 0 ∧ oneLine then ['"'] ++ escapeText false chars 0 ++ ['"']
  else if plain ∧ singles = 0 ∧ oneLine then ['\''] ++ chars ++ ['\'']
  else if plain ∧ noEscape ∧ doubles ≤ 2 then
    longDouble ++ firstLine chars ++ escapeText true chars 0 ++ longDouble
  else if plain ∧ singles ≤ 2 then longSingle ++ firstLine chars ++ chars ++ longSingle
  else if oneLine then ['"'] ++ escapeText false chars 0 ++ ['"']
  else longDouble ++ firstLine chars ++ escapeText true chars 0 ++ longDouble

def writeString (text : String) : String := String.ofList (writeChars text.toList)

end DirectoryWatch.Toml
