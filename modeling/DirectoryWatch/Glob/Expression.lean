import DirectoryWatch.Glob.Matching

/-!
# Globs as expressions

A glob whose tokens have to be compared with a path is written as a regular expression over bytes.
The parts of an expression stand inside each other, and no more of them than `depthLimit` may: globs
with a deeper one among them are refused together (`depthFault?`).
-/

namespace DirectoryWatch.Glob

inductive Expression where
  | byte (b : UInt8)
  | anyByte
  /-- One byte in one of the ranges, or in none of them. -/
  | oneOf (negated : Bool) (ranges : List (UInt8 × UInt8))
  | optional (e : Expression)
  | repeated (e : Expression)
  /-- Branches of parts that follow each other. -/
  | group (branches : List (List Expression))
  deriving Repr

namespace Expression

/-! ## From tokens -/

def slash : Expression := byte Path.slash

def noSlash : Expression := oneOf true [(Path.slash, Path.slash)]

mutual

/-- The parts that say what a token takes. -/
def ofToken : Token → List Expression
  | .literal c => (Token.bytesOf c).map byte
  | .any => [noSlash]
  | .star => [repeated noSlash]
  | .leading => [group [[optional slash], [repeated anyByte, slash]]]
  | .between => [group [[slash], [slash, repeated anyByte, slash]]]
  | .trailing => [slash, repeated anyByte]
  | .oneOf negated ranges => [oneOf negated (ranges.flatMap Token.byteRanges)]
  | .group branches =>
    match ofBranches branches with
    | [] => []
    | written => [group written]

def ofTokens : List Token → List Expression
  | [] => []
  | t :: rest => ofToken t ++ ofTokens rest

/-- The branches that have parts. -/
def ofBranches : List (List Token) → List (List Expression)
  | [] => []
  | branch :: others =>
    match ofTokens branch with
    | [] => ofBranches others
    | parts => parts :: ofBranches others

end

/-! ## As text -/

/-- Characters that mean something else where they stand alone. -/
def isMeta (c : Char) : Bool :=
  c ∈ ['\\', '.', '+', '*', '?', '(', ')', '|', '[', ']', '\x7b', '\x7d', '^', '$', '#', '&', '-',
    '~']

def byteText (b : UInt8) : String :=
  if b.toNat ≤ 0x7F then
    let c := Char.ofNat b.toNat
    if isMeta c then "\\" ++ String.singleton c else String.singleton c
  else "\\x" ++ Text.hex b.toNat

def rangeText (range : UInt8 × UInt8) : String :=
  if range.1 = range.2 then byteText range.1 else byteText range.1 ++ "-" ++ byteText range.2

mutual

def text : Expression → String
  | byte b => byteText b
  | anyByte => "."
  | oneOf negated ranges =>
    "[" ++ (if negated then "^" else "") ++ String.join (ranges.map rangeText) ++ "]"
  | optional e => e.text ++ "?"
  | repeated e => e.text ++ "*"
  | group branches => "(?:" ++ String.intercalate "|" (branchTexts branches) ++ ")"

def partsText : List Expression → String
  | [] => ""
  | e :: rest => e.text ++ partsText rest

def branchTexts : List (List Expression) → List String
  | [] => []
  | branch :: others => partsText branch :: branchTexts others

end

/-! ## How deep -/

/-- Things side by side stand in one more part than a single one. -/
def listDepth {α : Type} (things : List α) : Nat := if things.length < 2 then 0 else 1

mutual

/-- How many parts stand inside each other, single bytes not counted. -/
def depth : Expression → Nat
  | byte _ | anyByte => 0
  | oneOf _ ranges => listDepth ranges + 1
  | optional e | repeated e => e.depth + 1
  | group branches => branchesDepth branches + listDepth branches + 1

/-- The depth of the deepest part. -/
def partsDepth : List Expression → Nat
  | [] => 0
  | e :: rest => max e.depth (partsDepth rest)

/-- The depth of the deepest branch. -/
def branchesDepth : List (List Expression) → Nat
  | [] => 0
  | branch :: others => max (partsDepth branch + listDepth branch) (branchesDepth others)

end

end Expression

/-! ## Sets of globs -/

def depthLimit : Nat := 250

/-- The expression of a whole glob, which starts and ends with the path. -/
def expressionText (tokens : List Token) : String :=
  "(?-u)^" ++ Expression.partsText (Expression.ofTokens tokens) ++ "$"

/-- The parts of a whole glob follow its start. -/
def isTooDeep (tokens : List Token) : Bool :=
  depthLimit < Expression.partsDepth (Expression.ofTokens tokens) + 1

/-- A glob that is too deep. -/
inductive DepthFault where
  /-- One that ends in an extension, by its expression. -/
  | guarded (expression : String)
  /-- One that is compared with whole paths only, by its place among those. -/
  | whole (place : Nat)
  deriving DecidableEq, Repr

def DepthFault.message : DepthFault → String
  | whole place => "error parsing pattern " ++ Text.decimal place
  | guarded expression => "error parsing glob '" ++ expression ++ "': error parsing pattern 0"

def Strategy.guardedTokens? : Strategy → Option (List Token)
  | guarded _ tokens => some tokens
  | _ => none

def Strategy.wholeTokens? : Strategy → Option (List Token)
  | whole tokens => some tokens
  | everything => some [.leading]
  | _ => none

/-- The first glob that is too deep; those that end in an extension are looked at before those that
are compared with whole paths only. The other ones have no groups and are never too deep. -/
def depthFault? (strategies : List Strategy) : Option DepthFault :=
  match (strategies.filterMap Strategy.guardedTokens?).find? isTooDeep with
  | some tokens => some (.guarded (expressionText tokens))
  | none => ((strategies.filterMap Strategy.wholeTokens?).findIdx? isTooDeep).map .whole

end DirectoryWatch.Glob
