import DirectoryWatch.Proofs.Ignore.Levels
import Mathlib.Data.List.DropRight

/-!
# Negated patterns

A pattern that begins with `!` keeps the paths it matches, any other one ignores them. Where no pattern
is negated a path is ignored as soon as one of them matches the path or a parent of it, so everything
below an ignored directory is ignored as well. Patterns of one sort that are put behind others decide
about a path, or leave the verdict as it was.
-/

namespace DirectoryWatch.Ignore

open DirectoryWatch.Path (Normal)

/-! ## What a pattern does to what it matches -/

/-- The pattern begins with `!`. -/
def Negated (pattern : String) : Prop := pattern.toList.head? = some '!'

instance (pattern : String) : Decidable (Negated pattern) := inferInstanceAs (Decidable (_ = _))

theorem Rule.keeps_back (parts : Rule.Parts) : (Rule.back parts).keeps = parts.keeps := by
  unfold Rule.back
  split <;> rfl

theorem Rule.keeps_front (line : List Char) :
    (Rule.front line).keeps = true ↔ line.head? = some '!' := by
  unfold Rule.front
  split
  · simp
  · simp
  · cases line with
    | nil => simp
    | cons c rest =>
      by_cases marked : c = '!'
      · subst marked
        dsimp only
        split <;> simp
      · simp only [List.cons.injEq, marked, false_and, imp_self, implies_true, List.head?_cons,
          Option.some.injEq, iff_false]
        split <;> simp

theorem Rule.trimmed_prefix (line : List Char) : Rule.trimmed line <+: line := by
  unfold Rule.trimmed
  split
  · exact List.prefix_refl line
  · exact List.rdropWhile_prefix _ line

theorem Rule.head?_trimmed {line : List Char} (h : Rule.trimmed line ≠ []) :
    (Rule.trimmed line).head? = line.head? := by
  obtain ⟨blank, whole⟩ := Rule.trimmed_prefix line
  conv_rhs => rw [← whole, List.head?_append_of_ne_nil _ h]

theorem Rule.keeps_iff_negated {pattern : String} {r : Rule}
    (made : Rule.ofLine? pattern = .ok (some r)) : r.keeps = true ↔ Negated pattern := by
  unfold Rule.ofLine? at made
  dsimp only at made
  split at made
  · cases made
  · split at made
    · cases made
    · rename_i filled
      split at made
      · cases made
      · cases made
        dsimp only
        rw [Rule.keeps_back, Rule.keeps_front, Rule.head?_trimmed filled]
        rfl

theorem keeps_of_plain {patterns : List String} (plain : ∀ p ∈ patterns, ¬ Negated p) {r : Rule}
    (h : r ∈ patterns.filterMap ruleOf?) : r.keeps = false := by
  obtain ⟨p, hp, made⟩ := List.mem_filterMap.mp h
  rw [← Bool.not_eq_true, Rule.keeps_iff_negated ((ruleOf?_eq_some_iff p r).mp made)]
  exact plain p hp

theorem keeps_of_negated {patterns : List String} (negated : ∀ p ∈ patterns, Negated p) {r : Rule}
    (h : r ∈ patterns.filterMap ruleOf?) : r.keeps = true := by
  obtain ⟨p, hp, made⟩ := List.mem_filterMap.mp h
  rw [Rule.keeps_iff_negated ((ruleOf?_eq_some_iff p r).mp made)]
  exact negated p hp

/-! ## Verdicts -/

variable {rules : List Rule}

theorem levelVerdict?_append (rules more : List Rule) (path : Path) (isDir : Bool) :
    levelVerdict? (rules ++ more) path isDir =
      (levelVerdict? more path isDir).or (levelVerdict? rules path isDir) := by
  unfold levelVerdict?
  rw [List.reverse_append, List.find?_append]
  cases more.reverse.find? fun r => r.applies path isDir <;> rfl

theorem exists_rule_of_levelVerdict? {path : Path} {isDir : Bool} {v : Verdict}
    (h : levelVerdict? rules path isDir = some v) :
    ∃ r ∈ rules, r.applies path isDir = true ∧ r.verdict = v := by
  obtain ⟨r, found, verdict⟩ := Option.map_eq_some_iff.mp h
  have applies := List.find?_some found
  exact ⟨r, List.mem_reverse.mp (List.mem_of_find?_eq_some found), by simpa using applies, verdict⟩

theorem applies_of_firstVerdict? {levels : List (Path × Bool)} {v : Verdict}
    (h : firstVerdict? rules levels = some v) :
    ∃ level ∈ levels, ∃ r ∈ rules, r.applies level.1 level.2 = true ∧ r.verdict = v := by
  obtain ⟨level, there, said⟩ := List.exists_of_findSome?_eq_some h
  exact ⟨level, there, exists_rule_of_levelVerdict? said⟩

theorem firstVerdict?_of_plain (plain : ∀ r ∈ rules, r.keeps = false) (levels : List (Path × Bool)) :
    firstVerdict? rules levels = some .ignored ↔
      ∃ level ∈ levels, ∃ r ∈ rules, r.applies level.1 level.2 = true := by
  constructor
  · intro ignored
    obtain ⟨level, there, r, hr, applies, -⟩ := applies_of_firstVerdict? ignored
    exact ⟨level, there, r, hr, applies⟩
  · rintro ⟨⟨path, isDir⟩, there, r, hr, applies⟩
    cases verdict : firstVerdict? rules levels with
    | none =>
      have quiet : levelVerdict? rules path isDir = none :=
        List.findSome?_eq_none_iff.mp verdict _ there
      rw [levelVerdict?, Option.map_eq_none_iff, List.find?_eq_none] at quiet
      exact absurd applies (quiet r (List.mem_reverse.mpr hr))
    | some v =>
      obtain ⟨-, -, other, ho, -, rfl⟩ := applies_of_firstVerdict? verdict
      rw [(Rule.verdict_eq_ignored other).mpr (plain other ho)]

theorem firstVerdict?_append {more : List Rule} {v : Verdict} (alike : ∀ r ∈ more, r.verdict = v)
    (levels : List (Path × Bool)) :
    firstVerdict? (rules ++ more) levels = some v ∨
      firstVerdict? (rules ++ more) levels = firstVerdict? rules levels := by
  induction levels with
  | nil => exact .inr rfl
  | cons level rest ih =>
    obtain ⟨path, isDir⟩ := level
    rw [firstVerdict?_cons, firstVerdict?_cons, levelVerdict?_append]
    cases later : levelVerdict? more path isDir with
    | some w =>
      obtain ⟨r, hr, -, rfl⟩ := exists_rule_of_levelVerdict? later
      rw [alike r hr]
      exact .inl rfl
    | none =>
      cases levelVerdict? rules path isDir with
      | some w => exact .inr rfl
      | none => exact ih

/-! ## What a filter answers -/

/-- The path is ignored. Without a filter none is. -/
def answer (filter : Option Filter) (disk : Disk) (path : Path) : Except Panic Bool :=
  filter.elim (.ok false) fun f => f.isIgnored disk path

theorem patterns_of_build_none {root : Path} {patterns : List String}
    (built : Filter.build root patterns = .ok none) : patterns = [] := by
  unfold Filter.build at built
  split at built
  · rename_i empty
    exact List.isEmpty_iff.mp empty
  · cases made : Filter.rulesOf patterns with
    | error => simp [made, bind, Except.bind, Except.mapError] at built
    | ok rules =>
      simp only [made, bind, Except.bind, pure, Except.pure, Except.mapError] at built
      split at built <;> cases built

/-- The filters of one root see the paths below it in one way, whatever their patterns are. -/
theorem exists_answer_descend (root : Path) : ∃ front : Path, ∀ patterns filter,
    Filter.build root patterns = .ok filter → ∀ names, names ≠ [] → (∀ n ∈ names, Normal n) →
      ∀ disk : Disk, answer filter disk (root.descend names) =
        .ok (firstVerdict? (patterns.filterMap ruleOf?)
          (levels (front.descend names) (disk.isDir (root.descend names))) = some .ignored) := by
  obtain ⟨front, relativeFront, sees⟩ := exists_relative_descend root
  refine ⟨front, fun patterns filter built names filled normal disk => ?_⟩
  cases filter with
  | none =>
    rw [patterns_of_build_none built, List.filterMap_nil, firstVerdict?_of_no_rules]
    simp [answer]
  | some f =>
    obtain ⟨rooted, rules⟩ := rules_of_build built
    subst rooted
    have below : Below f.root (f.root.descend names) :=
      ⟨Path.startsWith_descend f.root normal, Path.not_same_descend f.root filled normal⟩
    have seen : (front.descend names).isAbsolute = false := by
      rw [Path.isAbsolute_descend front normal, relativeFront]
    rw [answer, Option.elim_some, isIgnored_of_below below,
      ruled_of_relative (sees names filled normal) seen, rules]

theorem answer_root {root : Path} {patterns : List String} {filter : Option Filter}
    (built : Filter.build root patterns = .ok filter) (disk : Disk) :
    answer filter disk root = .ok false := by
  cases filter with
  | none => rfl
  | some f =>
    obtain ⟨rfl, -⟩ := rules_of_build built
    exact isIgnored_of_not_below fun below => below.2 (Path.Same.refl _)

/-! ## Below an ignored directory -/

theorem levels_descend_snoc (base : Path) {names : List (List UInt8)} {name : List UInt8}
    (filled : names ≠ []) (h : ∀ n ∈ names ++ [name], Normal n) (isDir : Bool) :
    levels (base.descend (names ++ [name])) isDir =
      (base.descend (names ++ [name]), isDir) :: levels (base.descend names) true := by
  rw [levels_eq, Path.parent?_descend base filled h, Option.elim_some]

theorem levels_suffix (base : Path) {names more : List (List UInt8)} (filled : names ≠ [])
    (h : ∀ n ∈ names ++ more, Normal n) :
    levels (base.descend names) true <:+ levels (base.descend (names ++ more)) true := by
  induction more using List.reverseRecOn with
  | nil => simp only [List.append_nil, List.suffix_refl]
  | append_singleton more name ih =>
    rw [← List.append_assoc] at h ⊢
    have before : ∀ n ∈ names ++ more, Normal n := fun n hn => h n (List.mem_append_left _ hn)
    rw [levels_descend_snoc base (List.append_ne_nil_of_left_ne_nil filled _) h]
    exact (ih before).trans (List.suffix_cons ..)

theorem mem_levels_of_below (base : Path) {names more : List (List UInt8)} (filled : names ≠ [])
    (deeper : more ≠ []) (h : ∀ n ∈ names ++ more, Normal n) (isDir : Bool) {level : Path × Bool}
    (there : level ∈ levels (base.descend names) true) :
    level ∈ levels (base.descend (names ++ more)) isDir := by
  obtain ⟨init, name, rfl⟩ := (List.eq_nil_or_concat more).resolve_left deeper
  rw [List.concat_eq_append, ← List.append_assoc] at h ⊢
  have before : ∀ n ∈ names ++ init, Normal n := fun n hn => h n (List.mem_append_left _ hn)
  rw [levels_descend_snoc base (List.append_ne_nil_of_left_ne_nil filled _) h]
  exact List.mem_cons_of_mem _ ((levels_suffix base filled before).mem there)

/-- **Below an ignored directory.** Where no pattern is negated, whatever lies below an ignored directory
is ignored, at any depth and whatever becomes of it and of the directory on disk. -/
theorem below_ignored_directory {root : Path} {patterns : List String} {filter : Option Filter}
    (built : Filter.build root patterns = .ok filter) (plain : ∀ p ∈ patterns, ¬ Negated p)
    {names more : List (List UInt8)} (filled : names ≠ []) (deeper : more ≠ [])
    (normal : ∀ n ∈ names ++ more, Normal n) {disk : Disk}
    (there : disk.isDir (root.descend names) = true)
    (ignored : answer filter disk (root.descend names) = .ok true) (later : Disk) :
    answer filter later ((root.descend names).descend more) = .ok true := by
  have above : ∀ n ∈ names, Normal n := fun n hn => normal n (List.mem_append_left _ hn)
  have kept : ∀ r ∈ patterns.filterMap ruleOf?, r.keeps = false := fun r => keeps_of_plain plain
  obtain ⟨front, answers⟩ := exists_answer_descend root
  rw [answers patterns filter built names filled above, there, Except.ok.injEq,
    decide_eq_true_iff, firstVerdict?_of_plain kept] at ignored
  obtain ⟨level, hl, r, hr, applies⟩ := ignored
  rw [← Path.descend_append, answers patterns filter built (names ++ more) (by simp [filled]) normal,
    Except.ok.injEq, decide_eq_true_iff, firstVerdict?_of_plain kept]
  exact ⟨level, mem_levels_of_below front filled deeper normal _ hl, r, hr, applies⟩

/-- A directory that a pattern for directories matches, and a file two levels below it after all is
gone. -/
theorem below_ignored_directory_gone :
    let root : Path := ⟨[0x2F, 0x77]⟩
    let names : List (List UInt8) := [[0x61], [0x62]]
    let more : List (List UInt8) := [[0x63], [0x64]]
    let patterns := ["*.o", "b/"]
    let filter : Filter := ⟨root, patterns.filterMap ruleOf?⟩
    let disk : Disk := ⟨.ok, fun path => decide (path = root.descend names), fun _ => true,
      fun _ => .ok []⟩
    let later : Disk := ⟨.ok, fun _ => false, fun _ => false, fun _ => .ok []⟩
    Filter.build root patterns = .ok (some filter) ∧ (∀ p ∈ patterns, ¬ Negated p) ∧ names ≠ [] ∧
    more ≠ [] ∧ (∀ n ∈ names ++ more, Normal n) ∧ disk.isDir (root.descend names) = true ∧
    answer (some filter) disk (root.descend names) = .ok true ∧
    answer (some filter) later (root.descend names) = .ok false ∧
    answer (some filter) later ((root.descend names).descend more) = .ok true := by
  intro root names more patterns filter disk later
  have built : Filter.build root patterns = .ok (some filter) := by rfl
  have plain : ∀ p ∈ patterns, ¬ Negated p := by decide
  have normal : ∀ n ∈ names ++ more, Normal n := by decide
  have there : disk.isDir (root.descend names) = true := by decide
  have ignored : answer (some filter) disk (root.descend names) = .ok true := by decide +kernel
  have kept : answer (some filter) later (root.descend names) = .ok false := by decide +kernel
  exact ⟨built, plain, by decide, by decide, normal, there, ignored, kept,
    below_ignored_directory built plain (by decide) (by decide) normal there ignored later⟩

/-! ## Patterns behind others -/

/-- **Patterns behind others.** Every path below a root gets a verdict. Patterns put behind others have
no path taken back in if none of them is negated, and none ignored if all of them are. -/
theorem patterns_behind_others {root : Path} {patterns more : List String}
    {before after : Option Filter} (built : Filter.build root patterns = .ok before)
    (extended : Filter.build root (patterns ++ more) = .ok after) {names : List (List UInt8)}
    (normal : ∀ n ∈ names, Normal n) (disk : Disk) :
    let path := root.descend names
    ∃ was is : Bool, answer before disk path = .ok was ∧ answer after disk path = .ok is ∧
      ((∀ p ∈ more, ¬ Negated p) → was = true → is = true) ∧
      ((∀ p ∈ more, Negated p) → was = false → is = false) := by
  intro path
  by_cases filled : names = []
  · subst filled
    exact ⟨false, false, answer_root built disk, answer_root extended disk, fun _ h => h, fun _ h => h⟩
  obtain ⟨front, answers⟩ := exists_answer_descend root
  refine ⟨_, _, answers patterns before built names filled normal disk,
    answers (patterns ++ more) after extended names filled normal disk, ?_, ?_⟩
  · intro plain was
    rw [decide_eq_true_iff] at was ⊢
    rw [List.filterMap_append]
    have alike : ∀ r ∈ more.filterMap ruleOf?, r.verdict = .ignored := fun r hr =>
      (Rule.verdict_eq_ignored r).mpr (keeps_of_plain plain hr)
    rcases firstVerdict?_append alike _ with decided | same
    · exact decided
    · rw [same, was]
  · intro negated was
    rw [decide_eq_false_iff_not] at was ⊢
    rw [List.filterMap_append]
    have alike : ∀ r ∈ more.filterMap ruleOf?, r.verdict = .kept := by
      intro r hr
      simp [Rule.verdict, keeps_of_negated negated hr]
    rcases firstVerdict?_append alike _ with decided | same
    · rw [decided]
      simp
    · rw [same]
      exact was

/-- A file that is ignored for its directory is ignored for its own name when a pattern for that comes
behind, and one that is kept for its directory is kept for its own name. -/
theorem patterns_behind_others_nearer :
    let root : Path := ⟨[0x2F, 0x77]⟩
    let names : List (List UInt8) := [[0x61], [0x62]]
    let filter := fun patterns => (⟨root, patterns.filterMap ruleOf?⟩ : Filter)
    let disk : Disk := ⟨.ok, fun _ => false, fun _ => true, fun _ => .ok []⟩
    (∀ n ∈ names, Normal n) ∧
    (Filter.build root ["a/"] = .ok (some (filter ["a/"])) ∧
      Filter.build root (["a/"] ++ ["b"]) = .ok (some (filter ["a/", "b"])) ∧
      (∀ p ∈ ["b"], ¬ Negated p) ∧
      answer (some (filter ["a/"])) disk (root.descend names) = .ok true ∧
      answer (some (filter ["a/", "b"])) disk (root.descend names) = .ok true) ∧
    (Filter.build root ["*.o", "!a"] = .ok (some (filter ["*.o", "!a"])) ∧
      Filter.build root (["*.o", "!a"] ++ ["!b"]) = .ok (some (filter ["*.o", "!a", "!b"])) ∧
      (∀ p ∈ ["!b"], Negated p) ∧
      answer (some (filter ["*.o", "!a"])) disk (root.descend names) = .ok false ∧
      answer (some (filter ["*.o", "!a", "!b"])) disk (root.descend names) = .ok false) := by
  intro root names filter disk
  have normal : ∀ n ∈ names, Normal n := by decide
  have built : Filter.build root ["a/"] = .ok (some (filter ["a/"])) := by rfl
  have extended : Filter.build root (["a/"] ++ ["b"]) = .ok (some (filter ["a/", "b"])) := by rfl
  have plain : ∀ p ∈ ["b"], ¬ Negated p := by decide
  have ignored : answer (some (filter ["a/"])) disk (root.descend names) = .ok true := by
    decide +kernel
  have built' : Filter.build root ["*.o", "!a"] = .ok (some (filter ["*.o", "!a"])) := by rfl
  have extended' : Filter.build root (["*.o", "!a"] ++ ["!b"]) =
      .ok (some (filter ["*.o", "!a", "!b"])) := by rfl
  have negated : ∀ p ∈ ["!b"], Negated p := by decide
  have kept : answer (some (filter ["*.o", "!a"])) disk (root.descend names) = .ok false := by
    decide +kernel
  refine ⟨normal, ⟨built, extended, plain, ignored, ?_⟩, built', extended', negated, kept, ?_⟩
  · obtain ⟨was, is, hw, hi, stays, -⟩ := patterns_behind_others built extended normal disk
    rw [ignored] at hw
    rw [hi, stays plain (Except.ok.inj hw).symm]
  · obtain ⟨was, is, hw, hi, -, stays⟩ := patterns_behind_others built' extended' normal disk
    rw [kept] at hw
    rw [hi, stays negated (Except.ok.inj hw).symm]

end DirectoryWatch.Ignore
