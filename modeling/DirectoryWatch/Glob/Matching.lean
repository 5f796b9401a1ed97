import DirectoryWatch.Glob.Parser

/-!
# What a glob matches

A glob is anchored at both ends of a path. Some shapes need no tokens: plain paths, also behind
`**/`. Some look at the name after the last slash instead, `**/name` and `**/*.ext`, or as well,
every other glob that ends in a plain `.ext`. A path whose last name is `..` has no name for them.
Of `**/` with other tokens that stop at a slash, the tokens are compared with whatever follows the
last slash.
-/

namespace DirectoryWatch.Glob

/-- The bytes after the last slash. -/
def lastSegment (bytes : Bytes) : Bytes :=
  (bytes.reverse.takeWhile fun b => b ≠ Path.slash).reverse

/-- The bytes after the last slash; none for `..` and for no bytes. -/
def baseName (bytes : Bytes) : Bytes :=
  if lastSegment bytes = [Path.dot, Path.dot] then [] else lastSegment bytes

/-- The part of a name from its last dot on; none without a dot. -/
def extension (name : Bytes) : Bytes :=
  let tail := (name.reverse.takeWhile fun b => b ≠ Path.dot).reverse
  if tail.length < name.length then Path.dot :: tail else []

/-- How a glob is compared with a path. -/
inductive Strategy where
  /-- The base name is this. -/
  | named (name : Bytes)
  /-- The base name has this extension. -/
  | extended (ext : Bytes)
  /-- The path is this. -/
  | exact (path : Bytes)
  /-- The path is this, or ends in it behind a slash. -/
  | ending (path : Bytes)
  /-- The tokens take the whole path, and the base name has this extension. -/
  | guarded (ext : Bytes) (tokens : List Token)
  /-- The tokens take what follows the last slash. -/
  | final (tokens : List Token)
  /-- The tokens take the whole path. -/
  | whole (tokens : List Token)
  | everything
  deriving Repr

/-- The characters, if the tokens are literals only. -/
def literals? : List Token → Option (List Char)
  | [] => some []
  | .literal c :: rest => (literals? rest).map (c :: ·)
  | _ => none

/-- The literals at the end of the tokens from the last dot on, if no slash comes before the dot. -/
def lastExtension? (tokens : List Token) : Option (List Char) :=
  let rec go : List Token → List Char → Option (List Char)
    | .literal c :: before, found =>
      if c = '/' then none
      else if c = '.' then some (c :: found)
      else go before (c :: found)
    | _, _ => none
  go tokens.reverse []

/-- The token never takes a slash; a class or a group counts as one that may. -/
def stopsAtSlash : Token → Bool
  | .literal c => c ≠ '/'
  | .any | .star => true
  | _ => false

def wordBytes (chars : List Char) : Bytes := chars.flatMap Token.bytesOf

/-- The strategy for tokens that follow `**/`. -/
def Strategy.afterLeading (tokens : List Token) : Strategy :=
  let whole := .leading :: tokens
  match literals? tokens with
  | some [] => .everything
  | some name => if '/' ∈ name then .ending (wordBytes name) else .named (wordBytes name)
  | none =>
    let extended? := match tokens with
      | .star :: .literal '.' :: rest => (literals? rest).filter fun ext => '/' ∉ ext ∧ '.' ∉ ext
      | _ => none
    match extended? with
    | some ext => .extended (wordBytes ('.' :: ext))
    | none =>
      match lastExtension? tokens with
      | some ext => .guarded (wordBytes ext) whole
      | none => if tokens.all stopsAtSlash then .final tokens else .whole whole

def Strategy.ofTokens : List Token → Strategy
  | [] => .whole []
  | .leading :: rest => afterLeading rest
  | tokens =>
    match literals? tokens, lastExtension? tokens with
    | some path, _ => .exact (wordBytes path)
    | none, some ext => .guarded (wordBytes ext) tokens
    | none, none => .whole tokens

def Strategy.matches : Strategy → Bytes → Bool
  | named name, bytes => decide (baseName bytes = name)
  | extended ext, bytes => decide (extension (baseName bytes) = ext)
  | exact path, bytes => decide (bytes = path)
  | ending path, bytes => decide (bytes = path) || (Path.slash :: path).isSuffixOf bytes
  | guarded ext tokens, bytes =>
    decide (extension (baseName bytes) = ext) && Token.matchesAll tokens bytes
  | final tokens, bytes => Token.matchesAll tokens (lastSegment bytes)
  | whole tokens, bytes => Token.matchesAll tokens bytes
  | everything, _ => true

end DirectoryWatch.Glob
