import DirectoryWatch.Glob.Token

/-!
# Reading globs

A glob is read from left to right. Groups may nest; the lists of tokens around the place that is
read are kept innermost first, each with its last token first. A `[` that nothing closes is plain,
and so is every `[` after it.
-/

namespace DirectoryWatch.Glob

/-- Why a text is no glob. -/
inductive Fault where
  | unclosedGroup
  | unopenedGroup
  | danglingEscape
  | reversedRange (low high : Char)
  deriving DecidableEq, Repr

def Fault.message : Fault → String
  | unclosedGroup =>
    "unclosed alternate group; missing '\x7d' (maybe escape '\x7b' with '[\x7b]'?)"
  | unopenedGroup =>
    "unopened alternate group; missing '\x7b' (maybe escape '\x7d' with '[\x7d]'?)"
  | danglingEscape => "dangling '\\'"
  | reversedRange low high =>
    "invalid range; '" ++ String.singleton low ++ "' > '" ++ String.singleton high ++ "'"

/-! ## Classes -/

/-- A class as far as it is read: its ranges, the last one first, and whether a `-` after the last
one waits for the character that ends it. -/
structure ClassState where
  ranges : List (Char × Char)
  open_ : Bool
  deriving DecidableEq, Repr

/-- Takes one more character into the class. -/
def ClassState.add (s : ClassState) (c : Char) : Except Fault ClassState :=
  match s.ranges with
  | [] => .ok ⟨[(c, c)], false⟩
  | (low, high) :: rest =>
    if s.open_ then
      if c < low then .error (.reversedRange low c) else .ok ⟨(low, c) :: rest, false⟩
    else if c = '-' then .ok { s with open_ := true }
    else .ok ⟨(c, c) :: (low, high) :: rest, false⟩

/-- The ranges in order; a `-` that ended none is a character of the class. -/
def ClassState.finish (s : ClassState) : List (Char × Char) :=
  (if s.open_ then ('-', '-') :: s.ranges else s.ranges).reverse

/-- The ranges up to the closing bracket and what follows it; none when nothing closes the class.
A bracket in first place is a character of the class. -/
def classRanges? (s : ClassState) : List Char → Except Fault (Option (List (Char × Char) × List Char))
  | [] => .ok none
  | c :: rest =>
    if c = ']' ∧ s.ranges ≠ [] then .ok (some (s.finish, rest))
    else do classRanges? (← s.add c) rest

/-- A class after its opening bracket. -/
def class? (chars : List Char) : Except Fault (Option (Token × List Char)) :=
  let (negated, chars) := match chars with
    | '!' :: rest => (true, rest)
    | '^' :: rest => (true, rest)
    | chars => (false, chars)
  return (← classRanges? ⟨[], false⟩ chars).map fun found => (.oneOf negated found.1, found.2)

/-! ## Tokens and groups -/

/-- A group that is not closed yet: the tokens before it, and its finished branches, the last one
first. -/
structure OpenGroup where
  before : List Token
  branches : List (List Token)
  deriving Repr

structure State where
  /-- The tokens of the innermost list, the last one first. -/
  tokens : List Token
  /-- The groups around it, the innermost first. -/
  groups : List OpenGroup
  /-- The character read last. -/
  last? : Option Char
  /-- Brackets open no class any more. -/
  plainBrackets : Bool
  deriving Repr

namespace State

def start : State := ⟨[], [], none, false⟩

def push (s : State) (t : Token) (last : Char) : State :=
  { s with tokens := t :: s.tokens, last? := some last }

def openGroup (s : State) : State :=
  { s with tokens := [], groups := ⟨s.tokens, []⟩ :: s.groups, last? := some '\x7b' }

def nextBranch (s : State) (group : OpenGroup) (outer : List OpenGroup) : State :=
  { s with
    tokens := []
    groups := { group with branches := s.tokens.reverse :: group.branches } :: outer
    last? := some ',' }

def closeGroup (s : State) (group : OpenGroup) (outer : List OpenGroup) : State :=
  { s with
    tokens := .group (s.tokens.reverse :: group.branches).reverse :: group.before
    groups := outer
    last? := some '\x7d' }

/-- The token in place of the last one, for a double star that reaches back over it. -/
def reachBack (s : State) (t : Token) (last : Char) : State :=
  match s.tokens with
  | .leading :: _ => { s with last? := some last }
  | .trailing :: _ => { s with last? := some last }
  | tokens => { s with tokens := t :: tokens.drop 1, last? := some last }

/-- A double star, both stars read: what it is depends on what stands around it, and it takes the
slash that follows it. -/
def doubleStar (s : State) (rest : List Char) : State × List Char :=
  let twoStars := ((s.push .star '*').push .star '*', rest)
  if s.tokens.isEmpty then
    match rest with
    | [] => (s.push .leading '*', [])
    | '/' :: rest => (s.push .leading '/', rest)
    | _ => twoStars
  else if s.last? = some '/' ∨ ¬ s.groups.isEmpty ∧ (s.last? = some ',' ∨ s.last? = some '\x7b') then
    match rest with
    | [] => (s.reachBack .trailing '*', [])
    | '/' :: rest => (s.reachBack .between '/', rest)
    | c :: _ =>
      if ¬ s.groups.isEmpty ∧ (c = ',' ∨ c = '\x7d') then (s.reachBack .trailing '*', rest)
      else twoStars
  else twoStars

/-- Takes one character, and those after it that belong to it. -/
def step (s : State) (c : Char) (rest : List Char) : Except Fault (State × List Char) :=
  if c = '?' then .ok (s.push .any c, rest)
  else if c = '*' then
    match rest with
    | '*' :: rest => .ok (s.doubleStar rest)
    | rest => .ok (s.push .star c, rest)
  else if c = '[' ∧ ¬ s.plainBrackets then do
    match ← class? rest with
    | some (t, rest) => return (s.push t ']', rest)
    | none => return ({ s.push (.literal c) c with plainBrackets := true }, rest)
  else if c = '\x7b' then .ok (s.openGroup, rest)
  else if c = '\x7d' then
    match s.groups with
    | [] => .error .unopenedGroup
    | group :: outer => .ok (s.closeGroup group outer, rest)
  else if c = ',' then
    match s.groups with
    | [] => .ok (s.push (.literal c) c, rest)
    | group :: outer => .ok (s.nextBranch group outer, rest)
  else if c = '\\' then
    match rest with
    | [] => .error .danglingEscape
    | escaped :: rest => .ok (s.push (.literal escaped) escaped, rest)
  else .ok (s.push (.literal c) c, rest)

/-- Reads to the end; each step takes at least one character, so there are no more steps than
characters. -/
def run (s : State) : Nat → List Char → Except Fault (List Token)
  | _, [] => if s.groups.isEmpty then .ok s.tokens.reverse else .error .unclosedGroup
  | 0, _ => .ok s.tokens.reverse
  | steps + 1, c :: rest => do
    let (s, rest) ← s.step c rest
    s.run steps rest

end State

/-- The tokens of a glob. -/
def parse (chars : List Char) : Except Fault (List Token) := State.start.run chars.length chars

end DirectoryWatch.Glob
