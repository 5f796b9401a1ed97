import DirectoryWatch.Proofs.Ignore.Relative
import DirectoryWatch.Proofs.Path.Parent

/-!
# Levels

A path below a root is looked at level by level, from the path itself up to the root. The first level
that some pattern says something about decides, by the last pattern that does. The root is a level like
the others: patterns that say something about it decide on every path below it that they say nothing
about at a nearer level.
-/

namespace DirectoryWatch.Ignore

open DirectoryWatch.Path (join Normal)

/-! ## What patterns say about a path -/

/-- None of the patterns says anything about the path. -/
def Silent (patterns : List String) (path : Path) (isDir : Bool) : Prop :=
  ∀ p ∈ patterns, ∀ r, Rule.ofLine? p = .ok (some r) → r.applies path isDir = false

/-- The last of the patterns that says something about the path makes this rule. -/
def LastWord (patterns : List String) (path : Path) (isDir : Bool) (r : Rule) : Prop :=
  ∃ before p after, patterns = before ++ p :: after ∧ Rule.ofLine? p = .ok (some r) ∧
    r.applies path isDir = true ∧ Silent after path isDir

/-- The rule of a pattern, if it makes one. -/
def ruleOf? (pattern : String) : Option Rule := (Rule.ofLine? pattern).toOption.join

theorem ruleOf?_eq_some_iff (pattern : String) (r : Rule) :
    ruleOf? pattern = some r ↔ Rule.ofLine? pattern = .ok (some r) := by
  unfold ruleOf?
  cases Rule.ofLine? pattern with
  | error => simp [Except.toOption]
  | ok made => simp [Except.toOption]

variable {patterns : List String} {path : Path} {isDir : Bool} {r : Rule}

theorem silent_iff : Silent patterns path isDir ↔
    ∀ r ∈ patterns.filterMap ruleOf?, r.applies path isDir = false := by
  unfold Silent
  simp only [List.mem_filterMap, ruleOf?_eq_some_iff]
  constructor
  · rintro h r ⟨p, hp, made⟩
    exact h p hp r made
  · intro h p hp r made
    exact h r ⟨p, hp, made⟩

theorem Silent.not_lastWord (silent : Silent patterns path isDir) : ¬ LastWord patterns path isDir r := by
  rintro ⟨before, p, after, rfl, made, applies, _⟩
  have never := silent p (by simp) r made
  rw [never] at applies
  cases applies

theorem levelVerdict?_eq_none_iff :
    levelVerdict? (patterns.filterMap ruleOf?) path isDir = none ↔ Silent patterns path isDir := by
  rw [silent_iff, levelVerdict?, Option.map_eq_none_iff, List.find?_eq_none]
  simp

theorem levelVerdict?_eq_some_iff {v : Verdict} :
    levelVerdict? (patterns.filterMap ruleOf?) path isDir = some v ↔
      ∃ r, LastWord patterns path isDir r ∧ r.verdict = v := by
  unfold levelVerdict?
  rw [Option.map_eq_some_iff]
  apply exists_congr
  intro r
  apply and_congr_left
  intro _
  rw [List.find?_eq_some_iff_append]
  constructor
  · rintro ⟨applies, later, earlier, cut, quiet⟩
    have order : patterns.filterMap ruleOf? = earlier.reverse ++ r :: later.reverse := by
      rw [← List.reverse_reverse (patterns.filterMap ruleOf?), cut]
      simp
    obtain ⟨front, back, rfl, -, ends⟩ := List.filterMap_eq_append_iff.mp order
    obtain ⟨idle, p, after, rfl, -, made, behind⟩ := List.filterMap_eq_cons_iff.mp ends
    refine ⟨front ++ idle, p, after, by simp, (ruleOf?_eq_some_iff p r).mp made, applies, ?_⟩
    rw [silent_iff, behind]
    intro other there
    simpa using quiet other (List.mem_reverse.mp there)
  · rintro ⟨before, p, after, rfl, made, applies, silent⟩
    refine ⟨applies, (after.filterMap ruleOf?).reverse, (before.filterMap ruleOf?).reverse, ?_, ?_⟩
    · rw [List.filterMap_append, List.filterMap_cons_some ((ruleOf?_eq_some_iff p r).mpr made)]
      simp
    · intro other there
      simp [silent_iff.mp silent other (List.mem_reverse.mp there)]

/-! ## The rules of a filter -/

theorem rules_of_mapM {rules : List (Option Rule)} {patterns : List String}
    (h : (patterns.mapM fun pattern =>
      (Rule.ofLine? pattern).mapError fun fault => PatternFault.mk pattern fault) = .ok rules) :
    rules = patterns.map ruleOf? := by
  induction patterns generalizing rules with
  | nil =>
    cases h
    rfl
  | cons p rest ih =>
    rw [List.mapM_cons] at h
    cases made : Rule.ofLine? p with
    | error fault =>
      rw [made] at h
      cases h
    | ok rule =>
      rw [made] at h
      cases others : (rest.mapM fun pattern =>
          (Rule.ofLine? pattern).mapError fun fault => PatternFault.mk pattern fault) with
      | error fault =>
        rw [others] at h
        cases h
      | ok found =>
        rw [others] at h
        cases h
        rw [List.map_cons, ← ih others, ruleOf?, made]
        rfl

theorem rules_of_build {root : Path} {f : Filter} (built : Filter.build root patterns = .ok (some f)) :
    f.root = root ∧ f.rules = patterns.filterMap ruleOf? := by
  unfold Filter.build Filter.rulesOf at built
  split at built
  · cases built
  · cases made : (patterns.mapM fun pattern =>
        (Rule.ofLine? pattern).mapError fun fault => PatternFault.mk pattern fault) with
    | error fault =>
      rw [made] at built
      cases built
    | ok rules =>
      rw [made] at built
      simp only [bind, Except.bind, pure, Except.pure, Except.mapError] at built
      split at built
      · cases built
      · cases built
        rw [rules_of_mapM made, List.filterMap_map]
        exact ⟨rfl, rfl⟩

/-! ## From level to level -/

theorem parents_congr {steps more : Nat} {path : Path} (enough : path.bytes.length ≤ steps)
    (plenty : path.bytes.length ≤ more) : parents steps path = parents more path := by
  induction steps generalizing more path with
  | zero =>
    cases more with
    | zero => rfl
    | succ more =>
      have top : path.parent? = none := by
        by_contra found
        obtain ⟨q, hq⟩ := Option.ne_none_iff_exists'.mp found
        exact Nat.not_lt_zero _ (Nat.lt_of_lt_of_le (Path.parentOf_of_parent? hq).shorter enough)
      rw [parents, parents, top]
  | succ steps ih =>
    cases found : path.parent? with
    | none => cases more <;> simp [parents, found]
    | some q =>
      have shorter := (Path.parentOf_of_parent? found).shorter
      obtain ⟨more, rfl⟩ : ∃ fewer, more = fewer + 1 := ⟨more - 1, by omega⟩
      rw [parents, parents, found]
      exact congrArg (q :: ·) (ih (by omega) (by omega))

theorem levels_eq (path : Path) (isDir : Bool) :
    levels path isDir = (path, isDir) :: path.parent?.elim [] fun parent => levels parent true := by
  unfold levels
  congr 1
  cases found : path.parent? with
  | none => cases path.bytes.length <;> simp [parents, found]
  | some q =>
    have shorter := (Path.parentOf_of_parent? found).shorter
    obtain ⟨steps, hs⟩ := Nat.exists_eq_add_of_lt shorter
    rw [hs, parents, found]
    simp only [List.map_cons, Option.elim_some]
    rw [parents_congr (Nat.le_add_right ..) (Nat.le_refl _)]

theorem levels_snoc {names : List (List UInt8)} {name : List UInt8}
    (h : ∀ n ∈ names ++ [name], Normal n) (isDir : Bool) :
    levels ⟨join (names ++ [name])⟩ isDir =
      (⟨join (names ++ [name])⟩, isDir) :: levels ⟨join names⟩ true := by
  rw [levels_eq, Path.parent?_join h, Option.elim_some]

/-- The path of so many of the names. -/
def levelAt (names : List (List UInt8)) (depth : Nat) : Path := ⟨join (names.take depth)⟩

/-- Whether a level counts as a directory: a parent does, and the path itself if it is one. -/
def dirAt (names : List (List UInt8)) (isDir : Bool) (depth : Nat) : Bool :=
  decide (depth < names.length) || isDir

/-- At the depth the last pattern to speak makes the rule, and no pattern speaks further down. -/
structure DecidedAt (patterns : List String) (names : List (List UInt8)) (isDir : Bool) (depth : Nat)
    (r : Rule) : Prop where
  last : LastWord patterns (levelAt names depth) (dirAt names isDir depth) r
  silent : ∀ d, depth < d → d ≤ names.length →
    Silent patterns (levelAt names d) (dirAt names isDir d)

theorem levelAt_snoc {names : List (List UInt8)} {name : List UInt8} {depth : Nat}
    (h : depth ≤ names.length) : levelAt (names ++ [name]) depth = levelAt names depth := by
  rw [levelAt, List.take_append_of_le_length h, levelAt]

theorem dirAt_snoc {names : List (List UInt8)} {name : List UInt8} {isDir : Bool} {depth : Nat}
    (h : depth ≤ names.length) : dirAt (names ++ [name]) isDir depth = dirAt names true depth := by
  have inside : depth < (names ++ [name]).length := by
    rw [List.length_append, List.length_singleton]
    omega
  rw [dirAt, decide_eq_true inside, Bool.true_or, dirAt, Bool.or_true]

theorem levelAt_length (names : List (List UInt8)) : levelAt names names.length = ⟨join names⟩ := by
  rw [levelAt, List.take_length]

theorem dirAt_length (names : List (List UInt8)) (isDir : Bool) :
    dirAt names isDir names.length = isDir := by
  simp [dirAt]

theorem decidedAt_snoc {names : List (List UInt8)} {name : List UInt8}
    (silent : Silent patterns ⟨join (names ++ [name])⟩ isDir) {depth : Nat}
    (h : depth ≤ names.length) :
    DecidedAt patterns (names ++ [name]) isDir depth r ↔ DecidedAt patterns names true depth r := by
  constructor
  · rintro ⟨last, quiet⟩
    rw [levelAt_snoc h, dirAt_snoc h] at last
    refine ⟨last, fun d deeper inside => ?_⟩
    have there := quiet d deeper (by simp; omega)
    rwa [levelAt_snoc inside, dirAt_snoc inside] at there
  · rintro ⟨last, quiet⟩
    refine ⟨by rwa [levelAt_snoc h, dirAt_snoc h], fun d deeper inside => ?_⟩
    by_cases within : d ≤ names.length
    · rw [levelAt_snoc within, dirAt_snoc within]
      exact quiet d deeper within
    · obtain rfl : d = (names ++ [name]).length := by
        rw [List.length_append, List.length_singleton] at inside ⊢
        omega
      rwa [levelAt_length, dirAt_length]

theorem firstVerdict?_cons (rules : List Rule) (path : Path) (isDir : Bool)
    (rest : List (Path × Bool)) : firstVerdict? rules ((path, isDir) :: rest) =
      (levelVerdict? rules path isDir).or (firstVerdict? rules rest) := by
  rw [firstVerdict?, List.findSome?_cons]
  dsimp only
  cases levelVerdict? rules path isDir <;> rfl

theorem firstVerdict?_snoc {names : List (List UInt8)} {name : List UInt8}
    (h : ∀ n ∈ names ++ [name], Normal n) (rules : List Rule) (isDir : Bool) :
    firstVerdict? rules (levels ⟨join (names ++ [name])⟩ isDir) =
      (levelVerdict? rules ⟨join (names ++ [name])⟩ isDir).or
        (firstVerdict? rules (levels ⟨join names⟩ true)) := by
  rw [levels_snoc h, firstVerdict?_cons]

theorem firstVerdict?_eq_some_iff {names : List (List UInt8)} (h : ∀ n ∈ names, Normal n)
    (isDir : Bool) {v : Verdict} :
    firstVerdict? (patterns.filterMap ruleOf?) (levels ⟨join names⟩ isDir) = some v ↔
      ∃ depth ≤ names.length, ∃ r, DecidedAt patterns names isDir depth r ∧ r.verdict = v := by
  induction names using List.reverseRecOn generalizing isDir with
  | nil =>
    have only : firstVerdict? (patterns.filterMap ruleOf?) (levels ⟨join []⟩ isDir) =
        levelVerdict? (patterns.filterMap ruleOf?) ⟨[]⟩ isDir := by
      unfold firstVerdict? levels
      cases found : levelVerdict? (patterns.filterMap ruleOf?) ⟨[]⟩ isDir <;>
        simp [join, parents, found]
    rw [only, levelVerdict?_eq_some_iff]
    constructor
    · rintro ⟨r, last, verdict⟩
      refine ⟨0, Nat.le_refl 0, r, ⟨last, fun d deeper inside => ?_⟩, verdict⟩
      exact absurd inside (Nat.not_le.mpr deeper)
    · rintro ⟨depth, bound, r, decided, verdict⟩
      obtain rfl : depth = 0 := Nat.le_zero.mp bound
      exact ⟨r, decided.last, verdict⟩
  | append_singleton names name ih =>
    have before : ∀ n ∈ names, Normal n := fun n hn => h n (List.mem_append_left _ hn)
    rw [firstVerdict?_snoc h]
    cases here : levelVerdict? (patterns.filterMap ruleOf?) ⟨join (names ++ [name])⟩ isDir with
    | some w =>
      -- The path itself is spoken of: no level above it comes to decide.
      obtain ⟨r, last, spoken⟩ := levelVerdict?_eq_some_iff.mp here
      constructor
      · intro said
        refine ⟨(names ++ [name]).length, Nat.le_refl _, r, ⟨?_, fun d deeper inside => ?_⟩, ?_⟩
        · rwa [levelAt_length, dirAt_length]
        · exact absurd inside (Nat.not_le.mpr deeper)
        · rw [spoken]
          exact Option.some.inj said
      · rintro ⟨depth, bound, other, decided, verdict⟩
        have top : depth = (names ++ [name]).length := by
          by_contra above
          have quiet := decided.silent _ (Nat.lt_of_le_of_ne bound above) (Nat.le_refl _)
          rw [levelAt_length, dirAt_length] at quiet
          exact quiet.not_lastWord last
        subst top
        have again := decided.last
        rw [levelAt_length, dirAt_length] at again
        rw [Option.some_or, ← here]
        exact levelVerdict?_eq_some_iff.mpr ⟨other, again, verdict⟩
    | none =>
      have silent := levelVerdict?_eq_none_iff.mp here
      rw [Option.none_or, ih before]
      constructor
      · rintro ⟨depth, bound, r, decided, verdict⟩
        refine ⟨depth, by simp; omega, r, (decidedAt_snoc silent bound).mpr decided, verdict⟩
      · rintro ⟨depth, bound, r, decided, verdict⟩
        have inside : depth ≤ names.length := by
          by_contra top
          obtain rfl : depth = (names ++ [name]).length := by
            rw [List.length_append, List.length_singleton] at bound ⊢
            omega
          have last := decided.last
          rw [levelAt_length, dirAt_length] at last
          exact silent.not_lastWord last
        exact ⟨depth, inside, r, (decidedAt_snoc silent inside).mp decided, verdict⟩

/-! ## The level that decides -/

/-- From a depth on down to the path, the nearest level that patterns speak about is ignored. -/
def IgnoredFrom (patterns : List String) (names : List (List UInt8)) (isDir : Bool) (top : Nat) :
    Prop :=
  ∃ depth, top ≤ depth ∧ depth ≤ names.length ∧
    ∃ r, DecidedAt patterns names isDir depth r ∧ r.keeps = false

theorem Rule.verdict_eq_ignored (r : Rule) : r.verdict = .ignored ↔ r.keeps = false := by
  cases keeps : r.keeps <;> simp [Rule.verdict, keeps]

theorem ignoredFrom_zero {names : List (List UInt8)} :
    IgnoredFrom patterns names isDir 0 ↔
      IgnoredFrom patterns names isDir 1 ∨ ∃ r, DecidedAt patterns names isDir 0 r ∧ r.keeps = false := by
  constructor
  · rintro ⟨depth, -, bound, said⟩
    cases depth with
    | zero => exact .inr said
    | succ below => exact .inl ⟨below + 1, Nat.le_add_left 1 below, bound, said⟩
  · rintro (⟨depth, -, bound, said⟩ | said)
    · exact ⟨depth, Nat.zero_le _, bound, said⟩
    · exact ⟨0, Nat.le_refl 0, Nat.zero_le _, said⟩

theorem firstVerdict?_of_no_rules (levels : List (Path × Bool)) : firstVerdict? [] levels = none :=
  List.findSome?_eq_none_iff.mpr fun _ _ => rfl

/-- What the rules answer is what the levels of the path say, as they see it. -/
theorem ruled_of_relative {f : Filter} {path seen : Path} (sees : relative f.root path = seen)
    (below : seen.isAbsolute = false) (isDir : Bool) :
    f.ruled path isDir = .ok (firstVerdict? f.rules (levels seen isDir) = some .ignored) := by
  unfold Filter.ruled
  rw [sees]
  simp only [below, Bool.false_eq_true, if_false]
  split
  · rename_i ruleless
    rw [List.isEmpty_iff.mp ruleless, firstVerdict?_of_no_rules]
    simp
  · rfl

theorem ruled_descend {f : Filter} (anchored : Anchored f.root) {names : List (List UInt8)}
    (filled : names ≠ []) (h : ∀ n ∈ names, Normal n) (isDir : Bool) :
    f.ruled (f.root.descend names) isDir =
      .ok (firstVerdict? f.rules (levels ⟨join names⟩ isDir) = some .ignored) := by
  apply ruled_of_relative (relative_descend anchored filled h)
  simpa [Path.isAbsolute] using Path.head?_join fun n hn => (h n hn).plain

/-- **The nearest level decides.** A path below a root is always given a verdict, and it is ignored if
the nearest level that patterns speak about is. The root is the last of the levels: where patterns say
nothing about it, the levels below it decide, and where they say nothing about those, it decides. -/
theorem nearest_level_decides {root : Path} {f : Filter} {names : List (List UInt8)}
    (built : Filter.build root patterns = .ok (some f)) (anchored : Anchored root)
    (filled : names ≠ []) (normal : ∀ n ∈ names, Normal n) (disk : Disk) :
    let path := root.descend names
    let isDir := disk.isDir path
    ∃ ignored, f.isIgnored disk path = .ok ignored ∧
      (ignored = true ↔ IgnoredFrom patterns names isDir 0) ∧
      (Silent patterns ⟨[]⟩ true → (ignored = true ↔ IgnoredFrom patterns names isDir 1)) ∧
      (¬ IgnoredFrom patterns names isDir 1 →
        (ignored = true ↔ ∃ r, DecidedAt patterns names isDir 0 r ∧ r.keeps = false)) := by
  intro path isDir
  obtain ⟨rooted, ruled⟩ := rules_of_build built
  subst rooted
  have below : Below f.root path :=
    ⟨Path.startsWith_descend f.root normal, Path.not_same_descend f.root filled normal⟩
  have verdict : decide (firstVerdict? f.rules (levels ⟨join names⟩ isDir) = some .ignored) = true ↔
      IgnoredFrom patterns names isDir 0 := by
    rw [decide_eq_true_iff, ruled, firstVerdict?_eq_some_iff normal]
    simp [IgnoredFrom, Rule.verdict_eq_ignored]
  refine ⟨_, ?_, verdict, ?_, ?_⟩
  · rw [isIgnored_of_below below, ruled_descend anchored filled normal]
  · intro silent
    have never : ¬ ∃ r, DecidedAt patterns names isDir 0 r ∧ r.keeps = false := by
      rintro ⟨r, decided, -⟩
      have level : dirAt names isDir 0 = true := by
        simp [dirAt, List.length_pos_iff.mpr filled]
      have last := decided.last
      rw [level] at last
      exact silent.not_lastWord last
    rw [verdict, ignoredFrom_zero, or_iff_left never]
  · intro unspoken
    rw [verdict, ignoredFrom_zero, or_iff_right unspoken]

theorem nearest_level_decides_held :
    let root : Path := ⟨[0x2F, 0x77]⟩
    let names : List (List UInt8) := [[0x62], [0x63]]
    let patterns := ["b/", "!k"]
    let f : Filter := ⟨root, patterns.filterMap ruleOf?⟩
    let disk : Disk := ⟨.ok, fun _ => false, fun _ => true, fun _ => .ok []⟩
    Filter.build root patterns = .ok (some f) ∧ Anchored root ∧ names ≠ [] ∧
    (∀ n ∈ names, Normal n) ∧ Silent patterns ⟨[]⟩ true ∧
    f.isIgnored disk (root.descend names) = .ok true := by
  intro root names patterns f disk
  have built : Filter.build root patterns = .ok (some f) := by rfl
  have anchored : Anchored root := anchored_of_isAbsolute rfl
  have filled : names ≠ [] := List.cons_ne_nil _ _
  have normal : ∀ n ∈ names, Normal n := by decide
  have silent : Silent patterns ⟨[]⟩ true := levelVerdict?_eq_none_iff.mp rfl
  obtain ⟨ignored, answer, -, below, -⟩ := nearest_level_decides built anchored filled normal disk
  have spoken : levelVerdict? (patterns.filterMap ruleOf?) (levelAt names 1) (dirAt names false 1) =
      some .ignored := rfl
  obtain ⟨r, last, verdict⟩ := levelVerdict?_eq_some_iff.mp spoken
  have unspoken : Silent patterns (levelAt names 2) (dirAt names false 2) :=
    levelVerdict?_eq_none_iff.mp rfl
  have decided : DecidedAt patterns names false 1 r := by
    refine ⟨last, fun d deeper inside => ?_⟩
    obtain rfl : d = 2 := Nat.le_antisymm inside deeper
    exact unspoken
  have held : ignored = true :=
    (below silent).mpr ⟨1, Nat.le_refl 1, by decide, r, decided, r.verdict_eq_ignored.mp verdict⟩
  rw [held] at answer
  exact ⟨built, anchored, filled, normal, silent, answer⟩

/-- The only pattern says nothing about the path, a file in the root, but it does about the root. -/
theorem root_level_decides :
    let root : Path := ⟨[0x2F, 0x77]⟩
    let names : List (List UInt8) := [[0x61]]
    let f : Filter := ⟨root, ["*/"].filterMap ruleOf?⟩
    let disk : Disk := ⟨.ok, fun _ => false, fun _ => true, fun _ => .ok []⟩
    Filter.build root ["*/"] = .ok (some f) ∧ (∀ n ∈ names, Normal n) ∧
    Silent ["*/"] (levelAt names 1) (disk.isDir (root.descend names)) ∧
    ¬ IgnoredFrom ["*/"] names (disk.isDir (root.descend names)) 1 ∧
    f.isIgnored disk (root.descend names) = .ok true := by
  intro root names f disk
  have silent : Silent ["*/"] (levelAt names 1) false := levelVerdict?_eq_none_iff.mp rfl
  refine ⟨rfl, by decide, silent, ?_, by rfl⟩
  rintro ⟨depth, low, bound, r, decided, -⟩
  obtain rfl : depth = 1 := Nat.le_antisymm bound low
  exact silent.not_lastWord decided.last

end DirectoryWatch.Ignore
