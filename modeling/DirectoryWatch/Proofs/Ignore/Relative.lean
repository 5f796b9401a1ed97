import DirectoryWatch.Ignore.Filter
import DirectoryWatch.Proofs.Path.Spelling

/-!
# Paths as the rules see them

Only of paths below the root are the rules asked, and they see a path without the bytes of the root in
front. Of a path that is spelt as its root and some names below it these are the names alone.
-/

namespace DirectoryWatch.Ignore

open DirectoryWatch.Path (slash dot join stem Normal Plain descend)

/-! ## What is asked of the rules -/

/-- The path lies below the root, by components. -/
def Below (root path : Path) : Prop := path.startsWith root = true ∧ ¬ path.Same root

theorem isIgnored_of_not_below {f : Filter} {disk : Disk} {path : Path}
    (apart : ¬ Below f.root path) : f.isIgnored disk path = .ok false := by
  rw [Filter.isIgnored, if_pos]
  by_cases same : path.Same f.root
  · exact .inl same
  · exact .inr (by simpa using fun under => apart ⟨under, same⟩)

theorem isIgnored_of_below {f : Filter} {disk : Disk} {path : Path} (below : Below f.root path) :
    f.isIgnored disk path = f.ruled path (disk.isDir path) := by
  rw [Filter.isIgnored, if_neg]
  rintro (same | outside)
  · exact below.2 same
  · rw [below.1] at outside
    cases outside

/-! ## Taking bytes off the front -/

theorem dropFront?_eq_some_iff (front bytes rest : List UInt8) :
    dropFront? front bytes = some rest ↔ bytes = front ++ rest := by
  unfold dropFront?
  split
  · rename_i h
    obtain ⟨below, rfl⟩ := List.isPrefixOf_iff_prefix.mp h
    simp
  · rename_i h
    constructor
    · intro found
      cases found
    · rintro rfl
      exact absurd (List.isPrefixOf_iff_prefix.mpr (List.prefix_append front rest)) h

theorem dropFront?_append (front rest : List UInt8) :
    dropFront? front (front ++ rest) = some rest :=
  (dropFront?_eq_some_iff _ _ _).mpr rfl

theorem dropSlash_of_head {bytes : List UInt8} (h : bytes.head? ≠ some slash) :
    (dropFront? [slash] bytes).getD bytes = bytes := by
  cases found : dropFront? [slash] bytes with
  | none => rfl
  | some rest =>
    rw [dropFront?_eq_some_iff] at found
    rw [found] at h
    exact absurd rfl h

theorem dropHere_here (rest : List UInt8) : dropHere (dot :: slash :: rest) = rest := by
  have found : dropFront? [dot, slash] (dot :: slash :: rest) = some rest := dropFront?_append _ rest
  rw [dropHere, found]
  rfl

theorem dropHere_of_ne {bytes : List UInt8} (h : ∀ rest, bytes ≠ dot :: slash :: rest) :
    dropHere bytes = bytes := by
  unfold dropHere
  cases found : dropFront? [dot, slash] bytes with
  | none => rfl
  | some rest => exact absurd ((dropFront?_eq_some_iff _ _ _).mp found) (h rest)

theorem dropHere_of_isAbsolute {path : Path} (h : path.isAbsolute = true) :
    dropHere path.bytes = path.bytes := by
  apply dropHere_of_ne
  intro rest begun
  rw [Path.isAbsolute, begun] at h
  simp [dot, slash] at h

theorem not_here_of_isAbsolute {path : Path} (h : path.isAbsolute = true) :
    (⟨dropHere path.bytes⟩ : Path).components ≠ [.here] := by
  rw [dropHere_of_isAbsolute h]
  intro here
  change path.components = [.here] at here
  rw [Path.components, if_pos h] at here
  cases here

theorem slash_mem_of_isAbsolute {path : Path} (h : path.isAbsolute = true) :
    slash ∈ dropHere path.bytes := by
  rw [dropHere_of_isAbsolute h]
  exact List.mem_of_mem_head? (by simpa [Path.isAbsolute] using h)

/-! ## Names below a root -/

theorem stem_cases (base : Path) :
    base.stem = base.bytes ∨ base.stem = base.bytes ++ [slash] := by
  unfold Path.stem
  split
  · exact .inl rfl
  · exact .inr rfl

theorem bytes_eq_nil_of_stem {base : Path} (h : slash ∉ base.stem) : base.bytes = [] := by
  unfold Path.stem at h
  split at h
  · rename_i joined
    rcases joined with empty | slashed
    · exact empty
    · exact absurd (List.mem_of_getLast? slashed) h
  · simp at h

/-- The path begins with the bytes of the root, and then, after at most one slash, come these. -/
def SpeltBelow (root path : Path) (below : List UInt8) : Prop :=
  below.head? ≠ some slash ∧
    (path.bytes = root.bytes ++ below ∨ path.bytes = root.bytes ++ slash :: below)

theorem speltBelow_stem (base : Path) {names : List (List UInt8)} (h : ∀ n ∈ names, Plain n) :
    SpeltBelow base ⟨base.stem ++ join names⟩ (join names) := by
  refine ⟨Path.head?_join h, ?_⟩
  rcases stem_cases base with joined | slashed
  · exact .inl (by rw [joined])
  · exact .inr (by simp [slashed])

theorem relative_of_slash {root path : Path}
    (away : (⟨dropHere root.bytes⟩ : Path).components ≠ [.here])
    (slashed : slash ∈ dropHere path.bytes) :
    relative root path =
      (dropFront? (dropHere root.bytes) (dropHere path.bytes)).elim ⟨dropHere path.bytes⟩
        fun below => ⟨(dropFront? [slash] below).getD below⟩ := by
  unfold relative
  simp only [away, slashed, not_true, or_false, if_false]
  cases dropFront? (dropHere root.bytes) (dropHere path.bytes) <;> rfl

theorem relative_of_speltBelow {root path : Path} {below : List UInt8}
    (away : (⟨dropHere root.bytes⟩ : Path).components ≠ [.here])
    (slashed : slash ∈ dropHere path.bytes)
    (spelt : SpeltBelow ⟨dropHere root.bytes⟩ ⟨dropHere path.bytes⟩ below) :
    relative root path = ⟨below⟩ := by
  rw [relative_of_slash away slashed]
  obtain ⟨plain, direct | behind⟩ := spelt
  · rw [show dropHere path.bytes = _ from direct, dropFront?_append]
    exact congrArg Path.mk (dropSlash_of_head plain)
  · have dropped : dropFront? [slash] (slash :: below) = some below := dropFront?_append _ below
    rw [show dropHere path.bytes = _ from behind, dropFront?_append, Option.elim_some, dropped,
      Option.getD_some]

theorem relative_of_stem {root path : Path} {front : List UInt8} {names : List (List UInt8)}
    (h : ∀ n ∈ names, Plain n) (rooted : dropHere root.bytes = front)
    (away : (⟨front⟩ : Path).components ≠ [.here])
    (spelt : dropHere path.bytes = stem ⟨front⟩ ++ join names) :
    relative root path = ⟨join names⟩ := by
  subst rooted
  by_cases slashed : slash ∈ dropHere path.bytes
  · apply relative_of_speltBelow away slashed
    rw [spelt]
    exact speltBelow_stem _ h
  · -- A lone name, below the root that is spelt by no bytes.
    have flat := slashed
    rw [spelt, List.mem_append, not_or] at flat
    have empty : dropHere root.bytes = [] := bytes_eq_nil_of_stem flat.1
    unfold relative
    simp only [slashed, not_false_eq_true, or_true, if_true]
    rw [spelt, empty]
    rfl

/-- The root is no other spelling of `.`. -/
def Anchored (root : Path) : Prop :=
  (⟨dropHere root.bytes⟩ : Path).components = [.here] → root.bytes = [dot]

theorem anchored_of_isAbsolute {root : Path} (h : root.isAbsolute = true) : Anchored root :=
  fun here => absurd here (not_here_of_isAbsolute h)

theorem not_here_append {bytes : List UInt8} (full : bytes ≠ []) (lone : bytes ≠ [dot])
    (apart : ∀ rest, bytes ≠ dot :: slash :: rest) (tail rest : List UInt8) :
    bytes ++ tail ≠ dot :: slash :: rest := by
  intro begun
  match bytes with
  | [] => exact full rfl
  | [b] =>
    rw [List.singleton_append, List.cons.injEq] at begun
    exact lone (by rw [begun.1])
  | b :: c :: more =>
    rw [List.cons_append, List.cons_append, List.cons.injEq, List.cons.injEq] at begun
    exact apart more (by rw [begun.1, begun.2.1])

theorem not_here_join {names : List (List UInt8)} (h : ∀ n ∈ names, Normal n) (rest : List UInt8) :
    join names ≠ dot :: slash :: rest := by
  cases names with
  | nil => simp [join]
  | cons name others =>
    obtain ⟨plain, full, notHere, _⟩ : Normal name := h name (by simp)
    have apart : ∀ rest, name ≠ dot :: slash :: rest := by
      rintro rest rfl
      exact plain (by simp)
    by_cases last : others = []
    · subst last
      exact apart rest
    · rw [Path.join_cons last]
      exact not_here_append full notHere apart _ rest

theorem stem_here (rest : List UInt8) :
    stem ⟨dot :: slash :: rest⟩ = dot :: slash :: stem ⟨rest⟩ := by
  unfold Path.stem
  cases rest with
  | nil => rfl
  | cons b more =>
    simp only [List.getLast?_cons_cons, reduceCtorEq, false_or]
    split <;> rfl

theorem relative_descend {root : Path} (anchored : Anchored root) {names : List (List UInt8)}
    (filled : names ≠ []) (h : ∀ n ∈ names, Normal n) :
    relative root (root.descend names) = ⟨join names⟩ := by
  have spelt := Path.bytes_descend root filled h
  have plain : ∀ n ∈ names, Plain n := fun n hn => (h n hn).plain
  by_cases here : ∃ rest, root.bytes = dot :: slash :: rest
  · obtain ⟨rest, hr⟩ := here
    have rooted : dropHere root.bytes = rest := by rw [hr, dropHere_here]
    have away : (⟨rest⟩ : Path).components ≠ [.here] := by
      intro there
      have lone := anchored (by rw [rooted]; exact there)
      rw [lone] at hr
      cases hr
    refine relative_of_stem plain rooted away ?_
    have ahead : root.stem = dot :: slash :: stem ⟨rest⟩ := by
      rw [show root = ⟨dot :: slash :: rest⟩ from congrArg Path.mk hr, stem_here]
    rw [spelt, ahead, List.cons_append, List.cons_append, dropHere_here]
  · rw [not_exists] at here
    have rooted : dropHere root.bytes = root.bytes := dropHere_of_ne here
    by_cases lone : root.bytes = [dot]
    · -- The root is `.` itself, and the path begins with `./`.
      have ahead : (root.descend names).bytes = dot :: slash :: join names := by
        rw [spelt, Path.stem, lone]
        rfl
      unfold relative
      rw [ahead, dropHere_here, rooted, lone, if_pos (.inl rfl)]
    · have away : (⟨root.bytes⟩ : Path).components ≠ [.here] := by
        intro there
        exact lone (anchored (by rw [rooted]; exact there))
      refine relative_of_stem plain rooted away ?_
      rw [spelt]
      apply dropHere_of_ne
      intro rest
      by_cases empty : root.bytes = []
      · rw [Path.stem, if_pos (.inl empty), empty]
        exact not_here_join h rest
      · rcases stem_cases root with joined | slashed
        · rw [joined]
          exact not_here_append empty lone here _ rest
        · rw [slashed, List.append_assoc]
          exact not_here_append empty lone here _ rest

theorem relative_descend_of_not_anchored {root : Path} (drifting : ¬ Anchored root)
    {names : List (List UInt8)} (filled : names ≠ []) (h : ∀ n ∈ names, Normal n) :
    relative root (root.descend names) = (⟨dropHere root.bytes⟩ : Path).descend names := by
  unfold Anchored at drifting
  rw [Classical.not_imp] at drifting
  obtain ⟨here, long⟩ := drifting
  obtain ⟨rest, hr⟩ : ∃ rest, root.bytes = dot :: slash :: rest := by
    by_contra apart
    rw [not_exists] at apart
    rw [dropHere_of_ne apart] at here
    exact (Path.bytes_of_here here).elim long fun begun => begun.elim apart
  have spelt : dropHere (root.descend names).bytes = stem ⟨rest⟩ ++ join names := by
    rw [Path.bytes_descend root filled h, show root = ⟨dot :: slash :: rest⟩ from congrArg Path.mk hr,
      stem_here, List.cons_append, List.cons_append, dropHere_here]
  unfold relative
  rw [if_pos (.inl here), spelt, hr, dropHere_here]
  exact congrArg Path.mk (Path.bytes_descend ⟨rest⟩ filled h).symm

/-- Of the paths below a root the rules see the names, and in front of them the same bytes each time:
none, unless the root spells `.` in a longer way. -/
theorem exists_relative_descend (root : Path) : ∃ front : Path, front.isAbsolute = false ∧
    ∀ names, names ≠ [] → (∀ n ∈ names, Normal n) →
      relative root (root.descend names) = front.descend names := by
  by_cases anchored : Anchored root
  · refine ⟨⟨[]⟩, rfl, fun names filled h => ?_⟩
    rw [relative_descend anchored filled h]
    exact congrArg Path.mk (Path.bytes_descend ⟨[]⟩ filled h).symm
  · refine ⟨⟨dropHere root.bytes⟩, ?_, fun names filled h =>
      relative_descend_of_not_anchored anchored filled h⟩
    have here : (⟨dropHere root.bytes⟩ : Path).components = [.here] :=
      (Classical.not_imp.mp anchored).1
    rw [← Bool.not_eq_true, Path.isAbsolute_iff, here]
    simp

end DirectoryWatch.Ignore
