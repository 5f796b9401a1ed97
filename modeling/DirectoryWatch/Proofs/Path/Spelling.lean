import DirectoryWatch.Path
import Mathlib.Data.List.Basic
import Mathlib.Data.List.Induction

/-!
# How paths are spelt

Names one below the other, with a slash between two of them: what the components of such a path
are, and what its parents are.
-/

namespace DirectoryWatch.Path

/-- A name stands for itself between two slashes. -/
def Normal (name : List UInt8) : Prop :=
  slash ∉ name ∧ name ≠ [] ∧ name ≠ [dot] ∧ name ≠ [dot, dot]

/-- A name stands for itself between two slashes, or for the parent. -/
def Plain (name : List UInt8) : Prop := slash ∉ name ∧ name ≠ [] ∧ name ≠ [dot]

instance (name : List UInt8) : Decidable (Normal name) := inferInstanceAs (Decidable (_ ∧ _))

instance (name : List UInt8) : Decidable (Plain name) := inferInstanceAs (Decidable (_ ∧ _))

theorem Normal.plain {name : List UInt8} (h : Normal name) : Plain name := ⟨h.1, h.2.1, h.2.2.1⟩

/-- The path some names below a base. -/
def descend (base : Path) (names : List (List UInt8)) : Path := names.foldl child base

/-! ## Segments -/

theorem segments_ne_nil (bytes : List UInt8) : segments bytes ≠ [] := by
  cases bytes with
  | nil => simp [segments]
  | cons b rest =>
    unfold segments
    split
    · simp
    · split <;> simp

theorem segments_of_notMem {name : List UInt8} (h : slash ∉ name) : segments name = [name] := by
  induction name with
  | nil => rfl
  | cons b rest ih =>
    rw [List.mem_cons, not_or] at h
    rw [segments, if_neg (Ne.symm h.1), ih h.2]

theorem segments_append (a b : List UInt8) :
    segments (a ++ slash :: b) = segments a ++ segments b := by
  induction a with
  | nil => simp [segments]
  | cons x rest ih =>
    rw [List.cons_append, segments, segments, ih]
    split
    · rfl
    · cases first : segments rest with
      | nil => exact absurd first (segments_ne_nil rest)
      | cons s others => rfl

theorem join_cons {s : List UInt8} {rest : List (List UInt8)} (h : rest ≠ []) :
    join (s :: rest) = s ++ slash :: join rest := by
  cases rest with
  | nil => exact absurd rfl h
  | cons => rfl

theorem join_segments (bytes : List UInt8) : join (segments bytes) = bytes := by
  induction bytes with
  | nil => rfl
  | cons b rest ih =>
    unfold segments
    split
    · rename_i slashed
      rw [join_cons (segments_ne_nil rest), ih, slashed, List.nil_append]
    · cases cut : segments rest with
      | nil => exact absurd cut (segments_ne_nil rest)
      | cons first others =>
        rw [cut] at ih
        cases others with
        | nil => exact congrArg (b :: ·) ih
        | cons => exact congrArg (b :: ·) ih

theorem segments_join {names : List (List UInt8)} (filled : names ≠ []) (h : ∀ n ∈ names, slash ∉ n) :
    segments (join names) = names := by
  induction names with
  | nil => exact absurd rfl filled
  | cons s rest ih =>
    rw [List.forall_mem_cons] at h
    by_cases last : rest = []
    · subst last
      exact segments_of_notMem h.1
    · rw [join_cons last, segments_append, segments_of_notMem h.1, ih last h.2]
      rfl

theorem join_append {a b : List (List UInt8)} (ha : a ≠ []) (hb : b ≠ []) :
    join (a ++ b) = join a ++ slash :: join b := by
  induction a with
  | nil => exact absurd rfl ha
  | cons first rest ih =>
    by_cases last : rest = []
    · subst last
      exact join_cons hb
    · rw [List.cons_append, join_cons (by simp [last]), ih last, join_cons last]
      simp

theorem join_snoc {names : List (List UInt8)} (filled : names ≠ []) (s : List UInt8) :
    join (names ++ [s]) = join names ++ slash :: s :=
  join_append filled (List.cons_ne_nil s [])

/-! ## Components -/

theorem component?_of_normal {name : List UInt8} (h : Normal name) :
    component? name = some (.name name) := by
  obtain ⟨_, full, notHere, notUp⟩ := h
  simp [component?, full, notHere, notUp]

/-- What a component is written as between two slashes. -/
def Component.written : Component → List UInt8
  | .root => []
  | .here => [dot]
  | .up => [dot, dot]
  | .name bytes => bytes

theorem written_components {names : List (List UInt8)} (h : ∀ n ∈ names, Plain n) :
    (names.filterMap component?).map Component.written = names := by
  induction names with
  | nil => rfl
  | cons name rest ih =>
    rw [List.forall_mem_cons] at h
    obtain ⟨⟨_, full, notHere⟩, others⟩ := h
    by_cases up : name = [dot, dot]
    · have stands : component? name = some .up := by simp [component?, up]
      rw [List.filterMap_cons_some stands, List.map_cons, ih others, up]
      rfl
    · have stands : component? name = some (.name name) := by simp [component?, full, notHere, up]
      rw [List.filterMap_cons_some stands, List.map_cons, ih others]
      rfl

theorem components_append (a b : List UInt8) :
    components ⟨a ++ slash :: b⟩ =
      (if a = [] then [.root] else components ⟨a⟩) ++ (segments b).filterMap component? := by
  cases a with
  | nil =>
    simp [components, isAbsolute, segments, component?]
  | cons x rest =>
    rw [if_neg (List.cons_ne_nil x rest)]
    unfold components
    have absolute : isAbsolute ⟨x :: rest ++ slash :: b⟩ = isAbsolute ⟨x :: rest⟩ := rfl
    rw [absolute, segments_append]
    split
    · rw [List.filterMap_append, List.cons_append]
    · cases first : segments (x :: rest) with
      | nil => exact absurd first (segments_ne_nil _)
      | cons s others =>
        rw [List.cons_append]
        dsimp only
        split
        · rw [List.filterMap_append, List.cons_append]
        · rw [← List.cons_append, List.filterMap_append]

theorem components_ofNames {names : List (List UInt8)} (h : ∀ n ∈ names, slash ∉ n) :
    (ofNames names).components = .root :: names.filterMap component? := by
  have joined := components_append [] (join names)
  rw [if_pos rfl, List.nil_append] at joined
  rw [ofNames, joined]
  by_cases filled : names = []
  · subst filled
    rfl
  · rw [segments_join filled h, List.singleton_append]

theorem component?_eq_some {s : List UInt8} {c : Component} (h : component? s = some c) :
    c = .up ∨ c = .name s := by
  unfold component? at h
  split at h
  · cases h
  · split at h
    · exact .inl (Option.some.inj h).symm
    · exact .inr (Option.some.inj h).symm

theorem isAbsolute_of_root_mem {p : Path} (h : .root ∈ p.components) : p.isAbsolute = true := by
  have never : ∀ parts : List (List UInt8), .root ∉ parts.filterMap component? := by
    intro parts there
    obtain ⟨s, _, stands⟩ := List.mem_filterMap.mp there
    rcases component?_eq_some stands with up | name
    · cases up
    · cases name
  by_contra relative
  rw [components, if_neg relative] at h
  cases parts : segments p.bytes with
  | nil => exact absurd parts (segments_ne_nil _)
  | cons first rest =>
    rw [parts] at h
    dsimp only at h
    split at h
    · rcases List.mem_cons.mp h with here | there
      · cases here
      · exact never rest there
    · exact never _ h

theorem isAbsolute_iff (p : Path) : p.isAbsolute = true ↔ .root ∈ p.components := by
  constructor
  · intro absolute
    rw [components, if_pos absolute]
    exact List.mem_cons_self
  · exact isAbsolute_of_root_mem

theorem bytes_of_here {bytes : List UInt8} (h : components ⟨bytes⟩ = [.here]) :
    bytes = [dot] ∨ ∃ rest, bytes = dot :: slash :: rest := by
  obtain ⟨first, rest, segs⟩ := List.exists_cons_of_ne_nil (segments_ne_nil bytes)
  have whole := join_segments bytes
  rw [segs] at whole
  unfold components at h
  split at h
  · cases h
  · rw [segs] at h
    dsimp only at h
    split at h
    · rename_i here
      rw [here] at whole
      cases rest with
      | nil => exact .inl whole.symm
      | cons s others => exact .inr ⟨join (s :: others), whole.symm⟩
    · have stands : Component.here ∈ (first :: rest).filterMap component? := by
        rw [h]
        exact List.mem_cons_self
      obtain ⟨s, _, stands⟩ := List.mem_filterMap.mp stands
      rcases component?_eq_some stands with up | name
      · cases up
      · cases name

theorem components_child (base : Path) {name : List UInt8} (h : Normal name) :
    (base.child name).components = base.components ++ [.name name] := by
  have lone : (segments name).filterMap component? = [.name name] := by
    rw [segments_of_notMem h.1]
    simp [component?_of_normal h]
  unfold child
  split
  · rename_i joined
    rcases joined with empty | slashed
    · have relative : isAbsolute ⟨name⟩ = false := by
        cases name with
        | nil => rfl
        | cons x rest =>
          have : x ≠ slash := fun eq => h.1 (by simp [eq])
          simpa [isAbsolute] using this
      have origin : base.components = [] := by
        rw [show base = ⟨[]⟩ from congrArg Path.mk empty]
        rfl
      rw [empty, List.nil_append, origin, List.nil_append, components, relative,
        segments_of_notMem h.1]
      simp [h.2.2.1, component?_of_normal h]
    · obtain ⟨front, ended⟩ := List.getLast?_eq_some_iff.mp slashed
      have before : base.components = components ⟨front ++ slash :: []⟩ := by
        rw [← ended]
      rw [ended, List.append_assoc, List.singleton_append, components_append, lone, before,
        components_append]
      simp [segments, component?]
  · rename_i apart
    rw [not_or] at apart
    rw [components_append, if_neg apart.1, lone]

theorem descend_append (base : Path) (names more : List (List UInt8)) :
    base.descend (names ++ more) = (base.descend names).descend more :=
  List.foldl_append

theorem descend_snoc (base : Path) (names : List (List UInt8)) (name : List UInt8) :
    base.descend (names ++ [name]) = (base.descend names).child name :=
  descend_append base names [name]

theorem components_descend (base : Path) {names : List (List UInt8)} (h : ∀ n ∈ names, Normal n) :
    (base.descend names).components = base.components ++ names.map .name := by
  induction names using List.reverseRecOn with
  | nil => simp [descend]
  | append_singleton names name ih =>
    rw [List.forall_mem_append] at h
    rw [descend_snoc, components_child _ (h.2 name (by simp)), ih h.1]
    simp

theorem isAbsolute_descend (base : Path) {names : List (List UInt8)} (h : ∀ n ∈ names, Normal n) :
    (base.descend names).isAbsolute = base.isAbsolute := by
  rw [Bool.eq_iff_iff, isAbsolute_iff, isAbsolute_iff, components_descend base h]
  simp

theorem startsWith_descend (base : Path) {names : List (List UInt8)} (h : ∀ n ∈ names, Normal n) :
    (base.descend names).startsWith base = true := by
  unfold startsWith
  rw [components_descend base h]
  exact List.isPrefixOf_iff_prefix.mpr (List.prefix_append _ _)

theorem not_same_descend (base : Path) {names : List (List UInt8)} (filled : names ≠ [])
    (h : ∀ n ∈ names, Normal n) : ¬ (base.descend names).Same base := by
  intro same
  unfold Same at same
  rw [components_descend base h] at same
  exact filled (by simpa using same)

/-! ## Bytes -/

/-- The bytes of a base as they stand before a name in it. -/
def stem (base : Path) : List UInt8 :=
  if base.bytes = [] ∨ base.bytes.getLast? = some slash then base.bytes else base.bytes ++ [slash]

theorem bytes_child (base : Path) (name : List UInt8) :
    (base.child name).bytes = base.stem ++ name := by
  unfold child stem
  split
  · rfl
  · simp

theorem join_ne_nil {names : List (List UInt8)} (filled : names ≠ []) (h : ∀ n ∈ names, Normal n) :
    join names ≠ [] := by
  cases names with
  | nil => exact absurd rfl filled
  | cons s rest =>
    rw [List.forall_mem_cons] at h
    cases rest with
    | nil => exact h.1.2.1
    | cons => simp [join]

theorem getLast?_join {names : List (List UInt8)} (h : ∀ n ∈ names, Normal n) :
    (join names).getLast? ≠ some slash := by
  rcases List.eq_nil_or_concat names with rfl | ⟨front, name, rfl⟩
  · simp [join]
  · rw [List.concat_eq_append] at h ⊢
    obtain ⟨plain, full, _⟩ : Normal name := h name (by simp)
    have ends : (join (front ++ [name])).getLast? = name.getLast? := by
      by_cases first : front = []
      · subst first
        rfl
      · rw [join_snoc first, List.getLast?_append, List.getLast?_cons_of_ne_nil full]
        simp [List.getLast?_eq_some_getLast full]
    rw [ends]
    intro slashed
    exact plain (List.mem_of_getLast? slashed)

theorem head?_join {names : List (List UInt8)} (h : ∀ n ∈ names, Plain n) :
    (join names).head? ≠ some slash := by
  cases names with
  | nil => simp [join]
  | cons name rest =>
    obtain ⟨plain, full, _⟩ : Plain name := h name (by simp)
    obtain ⟨b, others, rfl⟩ := List.exists_cons_of_ne_nil full
    have first : (join ((b :: others) :: rest)).head? = some b := by
      cases rest <;> rfl
    rw [first]
    intro slashed
    exact plain (by simp [Option.some.inj slashed])

theorem bytes_descend (base : Path) {names : List (List UInt8)} (filled : names ≠ [])
    (h : ∀ n ∈ names, Normal n) : (base.descend names).bytes = base.stem ++ join names := by
  induction names using List.reverseRecOn with
  | nil => exact absurd rfl filled
  | append_singleton names name ih =>
    rw [descend_snoc, bytes_child]
    by_cases first : names = []
    · subst first
      rfl
    · rw [List.forall_mem_append] at h
      have full : join names ≠ [] := join_ne_nil first h.1
      have apart : ¬ ((base.descend names).bytes = [] ∨
          (base.descend names).bytes.getLast? = some slash) := by
        rw [ih first h.1, List.append_eq_nil_iff, List.getLast?_append_of_ne_nil _ full]
        exact fun joined => joined.elim (fun empty => full empty.2) (getLast?_join h.1)
      rw [stem, if_neg apart, ih first h.1, join_snoc first]
      simp

/-! ## Parents -/

theorem dropIdle_of_normal {parts : List (List UInt8)} (h : ∀ n ∈ parts, Normal n) :
    dropIdle parts = parts := by
  rcases List.eq_nil_or_concat parts with rfl | ⟨front, name, rfl⟩
  · rfl
  · rw [List.concat_eq_append] at h ⊢
    have last : (component? name).isNone = false := by
      rw [component?_of_normal (h name (by simp))]
      rfl
    simp [dropIdle, last]

theorem parent?_join {names : List (List UInt8)} {name : List UInt8}
    (h : ∀ n ∈ names ++ [name], Normal n) :
    parent? ⟨join (names ++ [name])⟩ = some ⟨join names⟩ := by
  have plain : ∀ n ∈ names ++ [name], slash ∉ n := fun n hn => (h n hn).1
  unfold parent?
  rw [segments_join (by simp) plain]
  cases names with
  | nil =>
    have full : name ≠ [] := (h name (by simp)).2.1
    simp [dropIdle, full, join]
  | cons first rest =>
    rw [List.cons_append, List.forall_mem_cons] at h
    have full : first ≠ [] := h.1.2.1
    have others : ∀ n ∈ rest, Normal n := fun n hn => h.2 n (List.mem_append_left _ hn)
    simp only [List.cons_append, dropIdle_of_normal h.2, List.reverse_append, List.reverse_cons,
      List.reverse_nil, List.nil_append, List.reverse_reverse, dropIdle_of_normal others]
    cases rest with
    | nil => simp [full, join]
    | cons => rfl

/-! ## One spelling for each path -/

/-- The path is absolute, with no `.` or `..` in it and no slash too many. -/
def Canonical (path : Path) : Prop := ∃ names, (∀ n ∈ names, Normal n) ∧ path = ofNames names

/-- The path is absolute, with no `.` in it and no slash too many. -/
def Terse (path : Path) : Prop := ∃ names, (∀ n ∈ names, Plain n) ∧ path = ofNames names

variable {path other : Path}

theorem Canonical.terse (canonical : Canonical path) : Terse path := by
  obtain ⟨names, normal, rfl⟩ := canonical
  exact ⟨names, fun n hn => (normal n hn).plain, rfl⟩

theorem Terse.isAbsolute (terse : Terse path) : path.isAbsolute = true := by
  obtain ⟨names, -, rfl⟩ := terse
  rfl

theorem Terse.eq_of_same (terse : Terse path) (terse' : Terse other) (same : path.Same other) :
    path = other := by
  obtain ⟨names, plain, rfl⟩ := terse
  obtain ⟨names', plain', rfl⟩ := terse'
  unfold Same at same
  rw [components_ofNames fun n hn => (plain n hn).1,
    components_ofNames fun n hn => (plain' n hn).1] at same
  have written := congrArg (List.map Component.written) (List.cons.inj same).2
  rw [written_components plain, written_components plain'] at written
  rw [written]

end DirectoryWatch.Path
