/-!
# UTF-8 text in bytes

`pieces` cuts any bytes into characters and stray parts, a stray part being as
long as the start of a character can be. Everything else reads off the pieces:
`decode?` refuses stray parts, `lossy` writes one replacement mark for each.
-/

namespace DirectoryWatch.Text.Utf8

abbrev Bytes := List UInt8

def encode (text : String) : Bytes := text.toList.flatMap String.utf8EncodeChar

/-- What one stretch of bytes stands for. -/
inductive Piece where
  | char (c : Char)
  /-- Bytes that start no character, or start one that is then broken off. -/
  | stray (bytes : Bytes)
  deriving DecidableEq, Repr

def Piece.char? : Piece → Option Char
  | .char c => some c
  | .stray _ => none

/-- The bytes that the piece was cut from. -/
def Piece.bytes : Piece → Bytes
  | .char c => String.utf8EncodeChar c
  | .stray bytes => bytes

/-- The character itself, or the replacement mark. -/
def Piece.shown : Piece → Char
  | .char c => c
  | .stray _ => '\uFFFD'

/-- A character of which the first bytes are read. -/
structure Unfinished where
  read : Bytes
  value : Nat
  /-- Bytes still owed. -/
  owed : Nat
  /-- The least and the greatest byte that may come next. -/
  low : UInt8
  high : UInt8
  deriving DecidableEq, Repr

/-- What the first byte of a longer character promises. Overlong forms, surrogates and values past
the last character are ruled out by the range of the second byte. -/
def lead? (b : UInt8) : Option Unfinished :=
  if 0xC2 ≤ b ∧ b ≤ 0xDF then some ⟨[b], b.toNat % 32, 1, 0x80, 0xBF⟩
  else if b = 0xE0 then some ⟨[b], 0, 2, 0xA0, 0xBF⟩
  else if b = 0xED then some ⟨[b], 13, 2, 0x80, 0x9F⟩
  else if 0xE1 ≤ b ∧ b ≤ 0xEF then some ⟨[b], b.toNat % 16, 2, 0x80, 0xBF⟩
  else if b = 0xF0 then some ⟨[b], 0, 3, 0x90, 0xBF⟩
  else if b = 0xF4 then some ⟨[b], 4, 3, 0x80, 0x8F⟩
  else if 0xF1 ≤ b ∧ b ≤ 0xF3 then some ⟨[b], b.toNat % 8, 3, 0x80, 0xBF⟩
  else none

/-- A byte read between characters. -/
def start (b : UInt8) : List Piece × Option Unfinished :=
  if b < 0x80 then ([.char (Char.ofNat b.toNat)], none)
  else match lead? b with
    | some u => ([], some u)
    | none => ([.stray [b]], none)

/-- A byte read inside a character: it continues it, or breaks it off and starts anew. -/
def Unfinished.step (u : Unfinished) (b : UInt8) : List Piece × Option Unfinished :=
  if u.low ≤ b ∧ b ≤ u.high then
    let value := u.value * 64 + b.toNat % 64
    if u.owed ≤ 1 then ([.char (Char.ofNat value)], none)
    else ([], some ⟨u.read ++ [b], value, u.owed - 1, 0x80, 0xBF⟩)
  else
    let (pieces, next) := start b
    (.stray u.read :: pieces, next)

def step (state : Option Unfinished) (b : UInt8) : List Piece × Option Unfinished :=
  match state with
  | none => start b
  | some u => u.step b

def piecesFrom : Option Unfinished → Bytes → List Piece
  | none, [] => []
  | some u, [] => [.stray u.read]
  | state, b :: rest =>
    let (found, next) := step state b
    found ++ piecesFrom next rest

def pieces (bytes : Bytes) : List Piece := piecesFrom none bytes

/-- The text, if the bytes hold characters only. -/
def decode? (bytes : Bytes) : Option String :=
  ((pieces bytes).mapM Piece.char?).map String.ofList

/-- The text, each stray part shown as one replacement mark. -/
def lossy (bytes : Bytes) : String :=
  String.ofList ((pieces bytes).map Piece.shown)

end DirectoryWatch.Text.Utf8
