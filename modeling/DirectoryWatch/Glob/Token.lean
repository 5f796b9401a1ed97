import DirectoryWatch.Path

/-!
# What a glob is made of

A glob is a list of tokens. `Token.rests` gives, for some bytes, what a token may leave of them;
`Token.matchesAll` asks whether a list of tokens can leave nothing. Bytes, not characters, are
matched, and only `?` and the stars stop at a slash.
-/

namespace DirectoryWatch.Glob

abbrev Bytes := List UInt8

inductive Token where
  | literal (c : Char)
  /-- One byte but a slash. -/
  | any
  /-- Bytes without a slash. -/
  | star
  /-- Nothing, a slash, or anything up to a slash. -/
  | leading
  /-- A slash, or two with anything between. -/
  | between
  /-- A slash and anything. -/
  | trailing
  /-- One byte in one of the ranges, or in none of them. -/
  | oneOf (negated : Bool) (ranges : List (Char × Char))
  | group (branches : List (List Token))
  deriving Repr

namespace Token

def bytesOf (c : Char) : Bytes := String.utf8EncodeChar c

/-- The ranges of bytes that a range of characters stands for: of two characters of several bytes,
the last byte of the first to the first byte of the second, and the other bytes alone. -/
def byteRanges (range : Char × Char) : List (UInt8 × UInt8) :=
  let alone := fun b : UInt8 => (b, b)
  let low := bytesOf range.1
  let high := bytesOf range.2
  if range.1 = range.2 then low.map alone
  else
    low.dropLast.map alone ++ [(low.getLast?.getD 0, high.head?.getD 0)] ++ (high.drop 1).map alone

def inByteRanges (ranges : List (Char × Char)) (b : UInt8) : Bool :=
  (ranges.flatMap byteRanges).any fun (low, high) => low ≤ b && b ≤ high

/-- What follows each slash in the bytes. -/
def afterSlashes : Bytes → List Bytes
  | [] => []
  | b :: rest => if b = Path.slash then rest :: afterSlashes rest else afterSlashes rest

/-- What is left after none, one and so on of the bytes. -/
def everyRest : Bytes → List Bytes
  | [] => [[]]
  | b :: rest => (b :: rest) :: everyRest rest

/-- What is left after none, one and so on of the bytes before the next slash. -/
def withinSegment : Bytes → List Bytes
  | [] => [[]]
  | b :: rest => if b = Path.slash then [b :: rest] else (b :: rest) :: withinSegment rest

def afterWord (word bytes : Bytes) : List Bytes :=
  if word.isPrefixOf bytes then [bytes.drop word.length] else []

mutual

/-- The token is a group that stands for nothing. -/
def isIdle : Token → Bool
  | group branches => allIdle branches
  | _ => false

def isIdleBranch : List Token → Bool
  | [] => true
  | t :: rest => t.isIdle && isIdleBranch rest

def allIdle : List (List Token) → Bool
  | [] => true
  | branch :: rest => isIdleBranch branch && allIdle rest

end

mutual

/-- What may be left of the bytes when the token has taken its part. -/
def rests : Token → Bytes → List Bytes
  | literal c, bytes => afterWord (bytesOf c) bytes
  | any, b :: rest => if b = Path.slash then [] else [rest]
  | any, [] => []
  | star, bytes => withinSegment bytes
  | leading, bytes => bytes :: afterSlashes bytes
  | between, b :: rest => if b = Path.slash then rest :: afterSlashes rest else []
  | between, [] => []
  | trailing, b :: rest => if b = Path.slash then everyRest rest else []
  | trailing, [] => []
  | oneOf negated ranges, b :: rest => if inByteRanges ranges b = negated then [] else [rest]
  | oneOf _ _, [] => []
  | group branches, bytes => if allIdle branches then [bytes] else branchRests branches bytes

/-- The same for a list of tokens, taken one after the other. -/
def sequenceRests : List Token → List Bytes → List Bytes
  | [], found => found
  | t :: rest, found => sequenceRests rest (found.flatMap t.rests).eraseDups

/-- The same for the branches of a group that stand for something. -/
def branchRests : List (List Token) → Bytes → List Bytes
  | [], _ => []
  | branch :: others, bytes =>
    (if isIdleBranch branch then [] else sequenceRests branch [bytes]) ++ branchRests others bytes

end

/-- The tokens can take all of the bytes. -/
def matchesAll (tokens : List Token) (bytes : Bytes) : Bool :=
  (sequenceRests tokens [bytes]).any List.isEmpty

end Token

end DirectoryWatch.Glob
