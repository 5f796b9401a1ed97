import DirectoryWatch.Disk
import DirectoryWatch.Glob.Expression
import DirectoryWatch.Ignore.Rule
import DirectoryWatch.Panic

/-!
# Ignored paths

The rules of one root. A path is looked at relative to the root: first the path itself, then each
of its parents, and the last rule that says something about the first of these that any rule says
something about decides.
-/

namespace DirectoryWatch.Ignore

structure Filter where
  root : Path
  rules : List Rule
  deriving Repr

/-- A pattern that makes no rule. -/
structure PatternFault where
  pattern : String
  fault : Fault
  deriving DecidableEq, Repr

/-- Why patterns make no filter. -/
inductive BuildFault where
  | pattern (fault : PatternFault)
  | depth (fault : Glob.DepthFault)
  deriving DecidableEq, Repr

def BuildFault.message : BuildFault → String
  | pattern fault =>
    "bad ignore pattern " ++ Text.quoted fault.pattern ++ ": " ++ fault.fault.message
  | depth fault => fault.message

/-- What rules say about a path. -/
inductive Verdict where
  | ignored
  | kept
  deriving DecidableEq, Repr

def Rule.verdict (r : Rule) : Verdict := if r.keeps then .kept else .ignored

/-- What the last rule that applies to a path says; none when no rule does. -/
def levelVerdict? (rules : List Rule) (path : Path) (isDir : Bool) : Option Verdict :=
  (rules.reverse.find? fun r => r.applies path isDir).map Rule.verdict

/-- The verdict on the first of the paths that has one. -/
def firstVerdict? (rules : List Rule) (levels : List (Path × Bool)) : Option Verdict :=
  levels.findSome? fun (path, isDir) => levelVerdict? rules path isDir

/-- The parents of a path, the nearest first; a path has fewer parents than bytes. -/
def parents : Nat → Path → List Path
  | 0, _ => []
  | steps + 1, path =>
    match path.parent? with
    | none => []
    | some parent => parent :: parents steps parent

/-- A path and its parents, which are directories. -/
def levels (path : Path) (isDir : Bool) : List (Path × Bool) :=
  (path, isDir) :: (parents path.bytes.length path).map fun parent => (parent, true)

/-- The bytes without the bytes in front of them, if they start with those. -/
def dropFront? (front bytes : List UInt8) : Option (List UInt8) :=
  if front.isPrefixOf bytes then some (bytes.drop front.length) else none

/-- The bytes without `./` in front. -/
def dropHere (bytes : List UInt8) : List UInt8 :=
  (dropFront? [Path.dot, Path.slash] bytes).getD bytes

/-- A path as it is spelt below the root: the bytes of the root are taken off its front, and then
one slash. A lone name, a path under the root `.`, and a path that does not start with the bytes of
the root stay as they are. -/
def relative (root path : Path) : Path :=
  let root : Path := ⟨dropHere root.bytes⟩
  let bytes := dropHere path.bytes
  if root.components = [.here] ∨ Path.slash ∉ bytes then ⟨bytes⟩
  else
    match dropFront? root.bytes bytes with
    | none => ⟨bytes⟩
    | some below => ⟨(dropFront? [Path.slash] below).getD below⟩

namespace Filter

/-- The rules that patterns make. The first pattern that makes none is the fault. -/
def rulesOf (patterns : List String) : Except PatternFault (List Rule) := do
  let rules ← patterns.mapM fun pattern =>
    (Rule.ofLine? pattern).mapError fun fault => PatternFault.mk pattern fault
  return rules.filterMap id

/-- The filter of some patterns; none when there are no patterns. -/
def build (root : Path) (patterns : List String) : Except BuildFault (Option Filter) :=
  if patterns.isEmpty then .ok none
  else do
    let rules ← (rulesOf patterns).mapError .pattern
    match Glob.depthFault? (rules.map Rule.strategy) with
    | some fault => .error (.depth fault)
    | none => return some ⟨root, rules⟩

/-- The rules ignore the path, which is or is not a directory. -/
def ruled (f : Filter) (path : Path) (isDir : Bool) : Except Panic Bool :=
  if f.rules.isEmpty then .ok false
  else
    let path := relative f.root path
    if path.isAbsolute then .error .pathNotUnderRoot
    else .ok (firstVerdict? f.rules (levels path isDir) = some .ignored)

/-- The path is ignored. The root and what is not under it never are. -/
def isIgnored (f : Filter) (disk : Disk) (path : Path) : Except Panic Bool :=
  if path.Same f.root ∨ path.startsWith f.root = false then .ok false
  else f.ruled path (disk.isDir path)

end Filter

end DirectoryWatch.Ignore
