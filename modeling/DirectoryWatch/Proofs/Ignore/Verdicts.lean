import DirectoryWatch.Proofs.Ignore.Levels

/-!
# Verdicts on paths in any spelling

Whether a path lies below a root is decided by components, and what the rules see of it by bytes. A path
that lies below the root and does not begin as the root is spelt has no bytes for them to see, and the
check panics. A path without idle slashes and dots is spelt in one way only, and gets a verdict.
-/

namespace DirectoryWatch.Ignore

open DirectoryWatch.Path (slash join Canonical Terse)

/-- Behind the root the two paths are spelt by the same bytes, or neither as the root is spelt. -/
def SpeltAlike (root path other : Path) : Prop :=
  ∀ below, SpeltBelow root path below ↔ SpeltBelow root other below

/-- The path lies below the root, but not as it is spelt. -/
def Misspelt (root path : Path) : Prop := Below root path ∧ ∀ below, ¬ SpeltBelow root path below

/-- Some of the patterns makes a rule. -/
def MakesRule (patterns : List String) : Prop :=
  ∃ pattern ∈ patterns, ∃ r, Rule.ofLine? pattern = .ok (some r)

variable {root path other : Path} {patterns : List String} {f : Filter} {disk : Disk}

theorem Below.isAbsolute (below : Below root path) (rooted : Terse root) :
    path.isAbsolute = true := by
  obtain ⟨names, plain, rfl⟩ := rooted
  have begins := List.isPrefixOf_iff_prefix.mp below.1
  rw [Path.components_ofNames fun n hn => (plain n hn).1] at begins
  exact Path.isAbsolute_of_root_mem (begins.subset List.mem_cons_self)

/-! ## What the rules see -/

section Absolute

variable (rooted : root.isAbsolute = true) (h : path.isAbsolute = true)

include rooted h

theorem relative_below {below : List UInt8} (spelt : SpeltBelow root path below) :
    relative root path = ⟨below⟩ := by
  apply relative_of_speltBelow (not_here_of_isAbsolute rooted) (slash_mem_of_isAbsolute h)
  rwa [dropHere_of_isAbsolute rooted, dropHere_of_isAbsolute h]

theorem isAbsolute_relative_iff :
    (relative root path).isAbsolute = true ↔ ∀ below, ¬ SpeltBelow root path below := by
  constructor
  · intro absolute below spelt
    rw [relative_below rooted h spelt] at absolute
    exact spelt.1 (by simpa [Path.isAbsolute] using absolute)
  · intro misspelt
    rw [relative_of_slash (not_here_of_isAbsolute rooted) (slash_mem_of_isAbsolute h),
      dropHere_of_isAbsolute rooted, dropHere_of_isAbsolute h]
    cases front : dropFront? root.bytes path.bytes with
    | none => exact h
    | some after =>
      rw [dropFront?_eq_some_iff] at front
      rw [Option.elim_some]
      cases behind : dropFront? [slash] after with
      | none =>
        by_contra plain
        refine misspelt after ⟨?_, .inl front⟩
        simpa [Path.isAbsolute] using plain
      | some below =>
        rw [dropFront?_eq_some_iff] at behind
        by_contra plain
        refine misspelt below ⟨?_, .inr ?_⟩
        · simpa [Path.isAbsolute] using plain
        · rw [front, behind]
          rfl

end Absolute

/-! ## What the check answers -/

theorem makesRule_iff : MakesRule patterns ↔ (patterns.filterMap ruleOf?).isEmpty = false := by
  rw [List.isEmpty_eq_false_iff_exists_mem]
  simp only [MakesRule, List.mem_filterMap, ruleOf?_eq_some_iff]
  constructor
  · rintro ⟨pattern, there, r, made⟩
    exact ⟨r, pattern, there, made⟩
  · rintro ⟨r, pattern, there, made⟩
    exact ⟨pattern, there, r, made⟩

theorem isIgnored_eq_error_iff (built : Filter.build root patterns = .ok (some f))
    (canonical : Canonical root) (disk : Disk) (path : Path) (p : Panic) :
    f.isIgnored disk path = .error p ↔
      p = .pathNotUnderRoot ∧ MakesRule patterns ∧ Misspelt root path := by
  obtain ⟨rfl, rules⟩ := rules_of_build built
  by_cases below : Below f.root path
  · rw [isIgnored_of_below below, Filter.ruled, makesRule_iff, ← rules, Misspelt, and_iff_right below]
    have absolute := isAbsolute_relative_iff canonical.terse.isAbsolute (below.isAbsolute canonical.terse)
    rw [← absolute]
    split
    · rename_i ruleless
      simp [ruleless]
    · rename_i ruled
      dsimp only
      split
      · rename_i h
        simp [h, ruled, eq_comm]
      · rename_i h
        simp [h]
  · simp [isIgnored_of_not_below below, Misspelt, below]

theorem isIgnored_congr (rooted : Terse f.root) (same : path.Same other)
    (stat : disk.isDir path = disk.isDir other)
    (alike : Below f.root path → SpeltAlike f.root path other) :
    f.isIgnored disk path = f.isIgnored disk other := by
  have placed : Below f.root path ↔ Below f.root other := by
    unfold Below Path.startsWith Path.Same
    rw [show path.components = other.components from same]
  by_cases below : Below f.root path
  · have absolute := below.isAbsolute rooted
    have absolute' := (placed.mp below).isAbsolute rooted
    rw [isIgnored_of_below below, isIgnored_of_below (placed.mp below), ← stat]
    unfold Filter.ruled
    by_cases spelt : ∃ bytes, SpeltBelow f.root path bytes
    · obtain ⟨bytes, spelt⟩ := spelt
      rw [relative_below rooted.isAbsolute absolute spelt,
        relative_below rooted.isAbsolute absolute' ((alike below bytes).mp spelt)]
    · -- What the rules see of the two may differ, but it is below the root of neither.
      rw [not_exists] at spelt
      have spelt' : ∀ bytes, ¬ SpeltBelow f.root other bytes := fun bytes h =>
        spelt bytes ((alike below bytes).mpr h)
      simp only [(isAbsolute_relative_iff rooted.isAbsolute absolute).mpr spelt,
        (isAbsolute_relative_iff rooted.isAbsolute absolute').mpr spelt', if_true]
  · rw [isIgnored_of_not_below below, isIgnored_of_not_below (placed.not.mp below)]

/-! ## Terse paths -/

theorem speltBelow_of_terse (rooted : Terse root) (terse : Terse path) (below : Below root path) :
    ∃ bytes, SpeltBelow root path bytes := by
  obtain ⟨above, plain, rfl⟩ := rooted
  obtain ⟨names, plain', rfl⟩ := terse
  obtain ⟨begins, apart⟩ := below
  unfold Path.startsWith at begins
  rw [List.isPrefixOf_iff_prefix, Path.components_ofNames fun n hn => (plain n hn).1,
    Path.components_ofNames fun n hn => (plain' n hn).1, List.cons_prefix_cons] at begins
  have written := begins.2.map Path.Component.written
  rw [Path.written_components plain, Path.written_components plain'] at written
  obtain ⟨more, rfl⟩ := written
  have filled : more ≠ [] := by
    rintro rfl
    rw [List.append_nil] at apart
    exact apart (Path.Same.refl _)
  refine ⟨join more, Path.head?_join fun n hn => plain' n (List.mem_append_right _ hn), ?_⟩
  unfold Path.ofNames
  by_cases top : above = []
  · subst top
    exact .inl rfl
  · rw [Path.join_append top filled]
    exact .inr rfl

end DirectoryWatch.Ignore
