import DirectoryWatch.Text.Decimal
import DirectoryWatch.Text.Shown
import DirectoryWatch.Text.Utf8

/-!
# Quoted text

Text between double quotes as messages show it: a quote, a backslash and every character that would
not show are escaped, and a byte that belongs to no character stands as two hexadecimal digits.
-/

namespace DirectoryWatch.Text

/-- One character inside double quotes. -/
def escapeChar (c : Char) : List Char :=
  if c = '\x00' then ['\\', '0']
  else if c = '\t' then ['\\', 't']
  else if c = '\r' then ['\\', 'r']
  else if c = '\n' then ['\\', 'n']
  else if c = '"' then ['\\', '"']
  else if c = '\\' then ['\\', '\\']
  else if isShown c then [c]
  else ['\\', 'u', '\x7b'] ++ (hex c.toNat).toList ++ ['\x7d']

/-- One byte that belongs to no character. -/
def escapeByte (b : UInt8) : List Char :=
  ['\\', 'x'] ++ (padLeft '0' 2 (upperHex b.toNat)).toList

def escapePiece : Utf8.Piece → List Char
  | .char c => escapeChar c
  | .stray bytes => bytes.flatMap escapeByte

def quoted (text : String) : String :=
  "\"" ++ String.ofList (text.toList.flatMap escapeChar) ++ "\""

def quotedBytes (bytes : Utf8.Bytes) : String :=
  "\"" ++ String.ofList ((Utf8.pieces bytes).flatMap escapePiece) ++ "\""

/-- Items between brackets, a comma and a blank between two of them. -/
def bracketed (items : List String) : String := "[" ++ String.intercalate ", " items ++ "]"

end DirectoryWatch.Text
