import DirectoryWatch.Proofs.Path.Spelling
import Mathlib.Data.List.DropRight

/-!
# Parents

The parent of a path, in whatever way this is spelt, has the components of the path less the last one,
and fewer bytes. Only the empty path and the root have no parent. So whether a path lies directly in
another is a matter of their components.
-/

namespace DirectoryWatch.Path

/-! ## Segments and components -/

theorem notMem_of_mem_segments {bytes s : List UInt8} (h : s ∈ segments bytes) : slash ∉ s := by
  induction bytes generalizing s with
  | nil =>
    rw [List.mem_singleton.mp h]
    exact List.not_mem_nil
  | cons b rest ih =>
    unfold segments at h
    split at h
    · rcases List.mem_cons.mp h with rfl | later
      · exact List.not_mem_nil
      · exact ih later
    · rename_i plain
      cases cut : segments rest with
      | nil => exact absurd cut (segments_ne_nil rest)
      | cons first others =>
        rw [cut] at h ih
        rcases List.mem_cons.mp h with rfl | later
        · rw [List.mem_cons, not_or]
          exact ⟨Ne.symm plain, ih List.mem_cons_self⟩
        · exact ih (List.mem_cons_of_mem _ later)

theorem components_of_notMem {first : List UInt8} (plain : slash ∉ first) (full : first ≠ []) :
    ∃ c, c ≠ .root ∧ components ⟨first⟩ = [c] := by
  have relative : isAbsolute ⟨first⟩ = false := by
    rw [← Bool.not_eq_true, isAbsolute, decide_eq_true_iff]
    exact fun slashed => plain (List.mem_of_mem_head? slashed)
  unfold components
  rw [relative, segments_of_notMem plain]
  by_cases here : first = [dot]
  · exact ⟨.here, by simp, by simp [here]⟩
  · by_cases up : first = [dot, dot]
    · exact ⟨.up, by simp, by simp [up, component?]⟩
    · exact ⟨.name first, by simp, by simp [component?, full, here, up]⟩

theorem components_join_append {front more : List (List UInt8)} (hf : front ≠ []) (hm : more ≠ [])
    (plain : ∀ s ∈ front ++ more, slash ∉ s) :
    components ⟨join (front ++ more)⟩ =
      (if join front = [] then [.root] else components ⟨join front⟩) ++ more.filterMap component? := by
  rw [join_append hf hm, components_append,
    segments_join hm fun s hs => plain s (List.mem_append_right _ hs)]

theorem join_lt_of_append {front more : List (List UInt8)} (hf : front ≠ []) (hm : more ≠ []) :
    (join front).length < (join (front ++ more)).length := by
  rw [join_append hf hm, List.length_append, List.length_cons]
  omega

/-! ## The stretches of a path -/

theorem dropIdle_append (parts : List (List UInt8)) :
    ∃ idle, parts = dropIdle parts ++ idle ∧ idle.filterMap component? = [] := by
  refine ⟨parts.rtakeWhile fun s => (component? s).isNone, ?_, ?_⟩
  · exact (List.rdropWhile_append_rtakeWhile ..).symm
  · rw [List.filterMap_eq_nil_iff]
    intro s hs
    simpa using List.mem_rtakeWhile_imp hs

theorem component?_of_dropIdle {parts front : List (List UInt8)} {last : List UInt8}
    (h : dropIdle parts = front ++ [last]) : ∃ c, component? last = some c := by
  have filled : parts.rdropWhile (fun s => (component? s).isNone) ≠ [] := by
    change dropIdle parts ≠ []
    rw [h]
    simp
  have means := List.rdropWhile_last_not _ _ filled
  have found : (parts.rdropWhile fun s => (component? s).isNone).getLast filled = last := by
    have ends : (dropIdle parts).getLast? = some last := by simp [h]
    exact Option.some.inj ((List.getLast?_eq_some_getLast filled).symm.trans ends)
  rw [found] at means
  exact Option.ne_none_iff_exists'.mp (by simpa using means)

section Stretches

variable {p : Path} {first : List UInt8} {rest : List (List UInt8)}

theorem parent?_of_lone (segs : segments p.bytes = first :: rest) (none : dropIdle rest = []) :
    p.parent? = if first = [] then Option.none else some ⟨[]⟩ := by
  unfold parent?
  simp only [segs, none, List.reverse_nil]

theorem parent?_of_kept (segs : segments p.bytes = first :: rest) {before : List (List UInt8)}
    {last : List UInt8} (kept : dropIdle rest = before ++ [last]) :
    p.parent? = if first = [] ∧ dropIdle before = [] then some ⟨[slash]⟩
      else some ⟨join (first :: dropIdle before)⟩ := by
  unfold parent?
  simp only [segs, kept, List.reverse_append, List.reverse_singleton, List.singleton_append,
    List.reverse_reverse]
  cases dropIdle before with
  | nil =>
    by_cases empty : first = []
    · simp [empty]
    · simp [empty, join]
  | cons => simp

end Stretches

/-! ## What a parent is -/

/-- The parent is what is left without the last component. -/
structure ParentOf (q p : Path) : Prop where
  cut : ∃ c, c ≠ .root ∧ p.components = q.components ++ [c]
  shorter : q.bytes.length < p.bytes.length

section Kept

variable {first : List UInt8} {rest kept more : List (List UInt8)} {c : Component}

/-! No stretch but the first means anything. -/

theorem components_of_lone (plain : ∀ s ∈ first :: rest, slash ∉ s)
    (mute : rest.filterMap component? = []) (some : rest ≠ []) :
    components ⟨join (first :: rest)⟩ = if first = [] then [.root] else components ⟨first⟩ := by
  have parts := components_join_append (List.cons_ne_nil first []) some plain
  rw [mute, List.append_nil] at parts
  exact parts

theorem top_of_lone (plain : ∀ s ∈ [] :: rest, slash ∉ s) (mute : rest.filterMap component? = []) :
    components ⟨join ([] :: rest)⟩ = [] ∨ components ⟨join ([] :: rest)⟩ = [.root] := by
  by_cases lone : rest = []
  · left
    rw [lone]
    rfl
  · right
    rw [components_of_lone plain mute lone, if_pos rfl]

theorem parentOf_of_lone (plain : ∀ s ∈ first :: rest, slash ∉ s)
    (mute : rest.filterMap component? = []) (filled : first ≠ []) :
    ParentOf ⟨[]⟩ ⟨join (first :: rest)⟩ := by
  obtain ⟨c, other, single⟩ := components_of_notMem (plain first List.mem_cons_self) filled
  refine ⟨⟨c, other, ?_⟩, ?_⟩
  · by_cases lone : rest = []
    · rw [lone]
      exact single
    · rw [components_of_lone plain mute lone, if_neg filled, single]
      rfl
  · apply List.length_pos_iff.mpr
    cases rest with
    | nil => exact filled
    | cons => simp [join]

/-! Behind the stretches of the parent only one means something. -/

theorem parentOf_of_top (plain : ∀ s ∈ [[]] ++ more, slash ∉ s) (one : more.filterMap component? = [c])
    (other : c ≠ .root) : ParentOf ⟨[slash]⟩ ⟨join ([[]] ++ more)⟩ := by
  have filled : more ≠ [] := by
    rintro rfl
    cases one
  have full : join more ≠ [] := by
    intro empty
    have cut := segments_join filled fun s hs => plain s (List.mem_append_right _ hs)
    rw [empty] at cut
    rw [← cut] at one
    cases one
  have parts := components_join_append (List.cons_ne_nil [] []) filled plain
  rw [one] at parts
  refine ⟨⟨c, other, parts⟩, ?_⟩
  rw [List.singleton_append, join_cons filled, List.nil_append]
  exact Nat.succ_lt_succ (List.length_pos_iff.mpr full)

theorem parentOf_of_deep (deep : ¬ (first = [] ∧ kept = []))
    (plain : ∀ s ∈ (first :: kept) ++ more, slash ∉ s) (one : more.filterMap component? = [c])
    (other : c ≠ .root) : ParentOf ⟨join (first :: kept)⟩ ⟨join ((first :: kept) ++ more)⟩ := by
  have filled : more ≠ [] := by
    rintro rfl
    cases one
  have full : join (first :: kept) ≠ [] := by
    intro empty
    cases kept with
    | nil => exact deep ⟨empty, rfl⟩
    | cons s others => simp [join] at empty
  have parts := components_join_append (List.cons_ne_nil first kept) filled plain
  rw [one, if_neg full] at parts
  exact ⟨⟨c, other, parts⟩, join_lt_of_append (List.cons_ne_nil first kept) filled⟩

end Kept

/-- A path has a parent, or no component that could be taken off. -/
theorem parent?_cases (p : Path) :
    (p.parent? = none ∧ (p.components = [] ∨ p.components = [.root])) ∨
      ∃ q, p.parent? = some q ∧ ParentOf q p := by
  obtain ⟨bytes⟩ := p
  have whole := join_segments bytes
  have plain : ∀ s ∈ segments bytes, slash ∉ s := fun s hs => notMem_of_mem_segments hs
  obtain ⟨first, rest, segs⟩ := List.exists_cons_of_ne_nil (segments_ne_nil bytes)
  rw [segs] at whole plain
  subst whole
  obtain ⟨idle, cut, mute⟩ := dropIdle_append rest
  rcases List.eq_nil_or_concat (dropIdle rest) with none | ⟨before, last, kept⟩
  · rw [none, List.nil_append] at cut
    subst cut
    rw [parent?_of_lone segs none]
    by_cases empty : first = []
    · subst empty
      exact .inl ⟨if_pos rfl, top_of_lone plain mute⟩
    · exact .inr ⟨⟨[]⟩, if_neg empty, parentOf_of_lone plain mute empty⟩
  · right
    rw [List.concat_eq_append] at kept
    obtain ⟨c, means⟩ := component?_of_dropIdle kept
    obtain ⟨idle', cut', mute'⟩ := dropIdle_append before
    -- Behind the stretches of the parent come idle ones, the last that means something, idle ones.
    have one : (idle' ++ last :: idle).filterMap component? = [c] := by
      rw [List.filterMap_append, mute', List.filterMap_cons_some means, mute, List.nil_append]
    have other : c ≠ .root := by
      rintro rfl
      rcases component?_eq_some means with up | name
      · cases up
      · cases name
    have split : first :: rest = (first :: dropIdle before) ++ (idle' ++ last :: idle) := by
      rw [cut, kept]
      conv_lhs => rw [cut']
      simp
    rw [parent?_of_kept segs kept]
    rw [split] at plain ⊢
    by_cases top : first = [] ∧ dropIdle before = []
    · rw [if_pos top]
      rw [top.1, top.2] at plain ⊢
      exact ⟨_, rfl, parentOf_of_top plain one other⟩
    · rw [if_neg top]
      exact ⟨_, rfl, parentOf_of_deep top plain one other⟩

theorem parentOf_of_parent? {p q : Path} (h : p.parent? = some q) : ParentOf q p := by
  rcases p.parent?_cases with ⟨none, -⟩ | ⟨found, hf, parentOf⟩
  · rw [none] at h
    cases h
  · rw [hf] at h
    rwa [← Option.some.inj h]

theorem isChildOf_iff (p base : Path) :
    p.isChildOf base = true ↔ ∃ c, c ≠ .root ∧ p.components = base.components ++ [c] := by
  unfold isChildOf
  rcases p.parent?_cases with ⟨none, top⟩ | ⟨q, found, ⟨c, other, cut⟩, -⟩
  · rw [none, Option.any_none]
    refine ⟨fun h => (by cases h), ?_⟩
    rintro ⟨c, other, cut⟩
    rcases top with empty | root
    · rw [empty] at cut
      exact absurd cut.symm (by simp)
    · rw [root] at cut
      have last : c = .root := by simpa using (congrArg List.getLast? cut).symm
      exact absurd last other
  · rw [found, Option.any_some, decide_eq_true_iff, Same]
    constructor
    · intro same
      exact ⟨c, other, by rw [cut, same]⟩
    · rintro ⟨c', -, cut'⟩
      rw [cut] at cut'
      exact List.append_inj_left' cut' rfl

theorem isChildOf_congr {p q : Path} (same : p.Same q) (base : Path) :
    p.isChildOf base = q.isChildOf base := by
  rw [Bool.eq_iff_iff, isChildOf_iff, isChildOf_iff, show p.components = q.components from same]

theorem startsWith_of_isChildOf {p base : Path} (h : p.isChildOf base = true) :
    p.startsWith base = true := by
  obtain ⟨c, -, cut⟩ := (isChildOf_iff p base).mp h
  rw [startsWith, List.isPrefixOf_iff_prefix, cut]
  exact List.prefix_append _ _

/-! ## Parents of names below a base -/

theorem dropIdle_snoc {s : List UInt8} (h : component? s ≠ none) (parts : List (List UInt8)) :
    dropIdle (parts ++ [s]) = parts ++ [s] :=
  List.rdropWhile_concat_neg _ _ _ (by simpa using h)

theorem segments_descend (base : Path) : ∃ front, ∀ names : List (List UInt8), names ≠ [] →
    (∀ n ∈ names, Normal n) → segments (base.descend names).bytes = front ++ names := by
  by_cases empty : base.stem = []
  · refine ⟨[], fun names filled h => ?_⟩
    rw [bytes_descend base filled h, empty]
    exact segments_join filled fun n hn => (h n hn).1
  · have ended : base.stem.getLast? = some slash := by
      unfold stem at empty ⊢
      split
      · rename_i joined
        rcases joined with none | slashed
        · simp [none] at empty
        · exact slashed
      · simp
    obtain ⟨above, ends⟩ := List.getLast?_eq_some_iff.mp ended
    refine ⟨segments above, fun names filled h => ?_⟩
    rw [bytes_descend base filled h, ends, List.append_assoc, List.singleton_append,
      segments_append, segments_join filled fun n hn => (h n hn).1]

theorem parent?_descend (base : Path) {names : List (List UInt8)} {name : List UInt8}
    (filled : names ≠ []) (h : ∀ n ∈ names ++ [name], Normal n) :
    (base.descend (names ++ [name])).parent? = some (base.descend names) := by
  have before : ∀ n ∈ names, Normal n := fun n hn => h n (List.mem_append_left _ hn)
  have means : ∀ n ∈ names ++ [name], component? n ≠ none := by
    intro n hn
    rw [component?_of_normal (h n hn)]
    simp
  obtain ⟨front, stretches⟩ := segments_descend base
  have segs := stretches (names ++ [name]) (by simp) h
  obtain ⟨init, s, rfl⟩ := (List.eq_nil_or_concat names).resolve_left filled
  rw [List.concat_eq_append] at *
  have above := stretches (init ++ [s]) (by simp) before
  have whole := join_segments (base.descend (init ++ [s])).bytes
  rw [above, ← List.append_assoc] at whole
  rw [← List.append_assoc, ← List.append_assoc] at segs
  cases deep : front ++ init with
  | nil =>
    rw [deep] at segs whole
    rw [parent?_of_kept segs (dropIdle_snoc (means name (by simp)) []), if_neg]
    · exact congrArg (some ∘ Path.mk) whole
    · exact fun empty => (before s (by simp)).2.1 empty.1
  | cons first rest =>
    rw [deep] at segs whole
    rw [parent?_of_kept segs (dropIdle_snoc (means name (by simp)) (rest ++ [s])),
      dropIdle_snoc (means s (by simp)), if_neg (by simp)]
    exact congrArg (some ∘ Path.mk) whole

end DirectoryWatch.Path
