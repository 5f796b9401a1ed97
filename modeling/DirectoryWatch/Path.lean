import DirectoryWatch.Text.Quoted

/-!
# Paths

A path keeps the bytes it was written with. What it names is decided by its components: repeated
and trailing slashes and a `.` that is not the first component of a relative path leave no trace
there, `..` stays. Two paths are the same when their components are.
-/

namespace DirectoryWatch

structure Path where
  bytes : List UInt8
  deriving DecidableEq, Repr

namespace Path

def slash : UInt8 := 0x2F

def dot : UInt8 := 0x2E

def ofString (text : String) : Path := ⟨Text.Utf8.encode text⟩

/-- The path as text, if it is text. -/
def text? (p : Path) : Option String := Text.Utf8.decode? p.bytes

/-- The path as messages show it. -/
def display (p : Path) : String := Text.Utf8.lossy p.bytes

def quoted (p : Path) : String := Text.quotedBytes p.bytes

/-! ## Components -/

inductive Component where
  /-- The slash an absolute path starts with. -/
  | root
  /-- The `.` a relative path starts with. -/
  | here
  | up
  | name (bytes : List UInt8)
  deriving DecidableEq, Repr

/-- The stretches between slashes. -/
def segments : List UInt8 → List (List UInt8)
  | [] => [[]]
  | b :: rest =>
    if b = slash then [] :: segments rest
    else match segments rest with
      | first :: others => (b :: first) :: others
      | [] => [[b]]

/-- The stretches again as one, a slash between two of them. -/
def join : List (List UInt8) → List UInt8
  | [] => []
  | [s] => s
  | s :: rest => s ++ slash :: join rest

/-- The component a stretch stands for, if any. -/
def component? (s : List UInt8) : Option Component :=
  if s = [] ∨ s = [dot] then none
  else if s = [dot, dot] then some .up
  else some (.name s)

def isAbsolute (p : Path) : Bool := p.bytes.head? = some slash

def components (p : Path) : List Component :=
  if p.isAbsolute then .root :: (segments p.bytes).filterMap component?
  else match segments p.bytes with
    | [] => []
    | first :: rest =>
      if first = [dot] then .here :: rest.filterMap component?
      else (first :: rest).filterMap component?

/-! ## Comparing -/

def Same (p q : Path) : Prop := p.components = q.components

instance (p q : Path) : Decidable (Same p q) := inferInstanceAs (Decidable (_ = _))

/-- The path is `base` or lies below it, by components. -/
def startsWith (p base : Path) : Bool := base.components.isPrefixOf p.components

@[simp] theorem Same.refl (p : Path) : Same p p := rfl

theorem Same.symm {p q : Path} (h : Same p q) : Same q p := Eq.symm h

theorem Same.trans {p q r : Path} (h : Same p q) (k : Same q r) : Same p r := Eq.trans h k

/-! ## The parent -/

/-- The stretches without those at the end that stand for nothing. -/
def dropIdle (parts : List (List UInt8)) : List (List UInt8) :=
  (parts.reverse.dropWhile fun s => (component? s).isNone).reverse

/-- The path less its last component, as it is written up to there. The root and the empty path
have no parent; the parent of a lone component is the empty path. -/
def parent? (p : Path) : Option Path :=
  match segments p.bytes with
  | [] => none
  | first :: rest =>
    match (dropIdle rest).reverse with
    | [] => if first = [] then none else some ⟨[]⟩
    | _ :: before =>
      match dropIdle before.reverse with
      | [] => if first = [] then some ⟨[slash]⟩ else some ⟨first⟩
      | kept => some ⟨join (first :: kept)⟩

/-- The parent of the path is `base`. -/
def isChildOf (p base : Path) : Bool := p.parent?.any fun q => decide (Same q base)

/-- The path under a base, a slash between the two where there is none. -/
def child (base : Path) (name : List UInt8) : Path :=
  if base.bytes = [] ∨ base.bytes.getLast? = some slash then ⟨base.bytes ++ name⟩
  else ⟨base.bytes ++ slash :: name⟩

/-- The absolute path of a chain of names. -/
def ofNames (names : List (List UInt8)) : Path := ⟨slash :: join names⟩

end Path

end DirectoryWatch
