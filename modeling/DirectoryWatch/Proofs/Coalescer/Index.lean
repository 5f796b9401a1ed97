import DirectoryWatch.Coalescer
import Mathlib.Data.List.Basic

/-!
# The index of a coalescer

The index names the place of each event of the batch and no other place (`Indexed`). Under it a
change is recorded as `foldInto` says, where places and index play no part any more.
-/

namespace DirectoryWatch.Coalescer

/-! ## Places -/

/-- The event at a place, if one is there. -/
def at? (c : Coalescer) (slot : Nat) : Option Event := (c.slots[slot]?).join

theorem at?_eq_some_iff (c : Coalescer) (slot : Nat) (e : Event) :
    c.at? slot = some e ↔ c.slots[slot]? = some (some e) := by
  simp [at?, Option.join_eq_some_iff]

theorem mem_events_iff (c : Coalescer) (e : Event) : e ∈ c.events ↔ ∃ slot, c.at? slot = some e := by
  simp only [at?_eq_some_iff, ← List.mem_iff_getElem?, events, List.mem_filterMap, id_eq,
    exists_eq_right]

theorem at?_set (c : Coalescer) (index : List (List Path.Component × Nat)) {slot : Nat} {f : Event}
    (held : c.at? slot = some f) (x : Option Event) (j : Nat) :
    at? ⟨c.slots.set slot x, index⟩ j = if j = slot then x else c.at? j := by
  rw [at?_eq_some_iff, List.getElem?_eq_some_iff] at held
  obtain ⟨inside, _⟩ := held
  unfold at?
  rw [List.getElem?_set]
  by_cases h : j = slot
  · subst h
    simp [inside]
  · simp [h, Ne.symm h]

theorem at?_append (c : Coalescer) (index : List (List Path.Component × Nat)) (e : Event) (j : Nat) :
    at? ⟨c.slots ++ [some e], index⟩ j = if j = c.slots.length then some e else c.at? j := by
  unfold at?
  rcases Nat.lt_trichotomy j c.slots.length with h | h | h
  · rw [List.getElem?_append_left h, if_neg (by omega)]
  · subst h
    simp
  · rw [List.getElem?_eq_none (by simp; omega), if_neg (by omega), List.getElem?_eq_none (by omega)]

/-! ## The invariant -/

/-- A path is looked up at the place that holds an event about it, and is listed once. -/
structure Indexed (c : Coalescer) : Prop where
  lookup_iff : ∀ key slot,
    c.index.lookup key = some slot ↔ ∃ e, c.at? slot = some e ∧ e.path.components = key
  keys_nodup : (c.index.map Prod.fst).Nodup

theorem indexed_empty : Indexed empty := ⟨by simp [empty, at?], by simp [empty]⟩

variable {c : Coalescer}

theorem Indexed.slot_unique (h : Indexed c) {i j : Nat} {e f : Event} (hi : c.at? i = some e)
    (hj : c.at? j = some f) (same : e.path.Same f.path) : i = j := by
  have found := (h.lookup_iff f.path.components i).mpr ⟨e, hi, same⟩
  rw [(h.lookup_iff f.path.components j).mpr ⟨f, hj, rfl⟩] at found
  exact (Option.some.inj found).symm

theorem Indexed.lookup_eq_none_iff (h : Indexed c) (key : List Path.Component) :
    c.index.lookup key = none ↔ ∀ f ∈ c.events, f.path.components ≠ key := by
  constructor
  · intro hn f hf hk
    obtain ⟨slot, hs⟩ := (mem_events_iff c f).mp hf
    rw [(h.lookup_iff key slot).mpr ⟨f, hs, hk⟩] at hn
    exact absurd hn (by simp)
  · intro hall
    cases hl : c.index.lookup key with
    | none => rfl
    | some slot =>
      obtain ⟨f, hs, hk⟩ := (h.lookup_iff key slot).mp hl
      exact absurd hk (hall f ((mem_events_iff c f).mpr ⟨slot, hs⟩))

theorem record_cases (h : Indexed c) (e : Event) :
    ((∀ f ∈ c.events, ¬ f.path.Same e.path) ∧ c.index.lookup e.path.components = none ∧
      c.record e = ⟨c.slots ++ [some e], (e.path.components, c.slots.length) :: c.index⟩) ∨
    ∃ slot f, c.at? slot = some f ∧ f.path.Same e.path ∧
      ((∃ merged, fold f e = some merged ∧
          c.record e = ⟨c.slots.set slot (some merged), c.index⟩) ∨
        (fold f e = none ∧ c.record e = ⟨c.slots.set slot none,
          c.index.filter fun entry => decide (entry.1 ≠ e.path.components)⟩)) := by
  cases hl : c.index.lookup e.path.components with
  | none =>
    left
    exact ⟨(h.lookup_eq_none_iff _).mp hl, rfl, by simp only [record, hl]⟩
  | some slot =>
    right
    obtain ⟨f, hs, same⟩ := (h.lookup_iff _ slot).mp hl
    refine ⟨slot, f, hs, same, ?_⟩
    have hf : (c.slots[slot]?).join.bind (fold · e) = fold f e := by
      change (c.at? slot).bind (fold · e) = fold f e
      rw [hs]
      rfl
    cases hm : fold f e with
    | some merged => exact Or.inl ⟨merged, rfl, by simp only [record, hl, hf, hm]⟩
    | none => exact Or.inr ⟨rfl, by simp only [record, hl, hf, hm]⟩

theorem fold_path {f e merged : Event} (h : fold f e = some merged) : merged.path = f.path := by
  simp only [fold, Option.map_eq_some_iff] at h
  obtain ⟨kind, _, rfl⟩ := h
  rfl

theorem lookup_filter_ne (l : List (List Path.Component × Nat)) (gone key : List Path.Component) :
    (l.filter fun entry => decide (entry.1 ≠ gone)).lookup key =
      if key = gone then none else l.lookup key := by
  induction l with
  | nil => simp
  | cons entry rest ih =>
    by_cases he : entry.1 = gone
    · rw [List.filter_cons_of_neg (by simpa using he), ih]
      by_cases hk : key = gone
      · simp [hk]
      · rw [if_neg hk, if_neg hk, List.lookup_cons]
        have : (key == entry.1) = false := by simpa [he] using hk
        rw [this]
    · rw [List.filter_cons_of_pos (by simpa using he), List.lookup_cons, List.lookup_cons]
      by_cases hk : key = entry.1
      · have : entry.1 ≠ gone := he
        simp [hk, this]
      · have : (key == entry.1) = false := by simpa using hk
        rw [this, ih]

theorem indexed_record (h : Indexed c) (e : Event) : Indexed (c.record e) := by
  rcases record_cases h e with ⟨fresh, missing, eq⟩ | ⟨slot, f, held, same, ⟨g, merged, eq⟩ | ⟨_, eq⟩⟩
  · -- A new place: nothing else in the batch is about the path.
    rw [eq]
    refine ⟨fun key j => ?_, ?_⟩
    · rw [List.lookup_cons, at?_append]
      by_cases hk : key = e.path.components
      · subst hk
        simp only [beq_self_eq_true, Option.some.injEq]
        constructor
        · rintro rfl
          exact ⟨e, by simp, rfl⟩
        · rintro ⟨f, hf, same⟩
          split at hf
          · rename_i hj
            exact hj.symm
          · exact absurd same (fresh f ((mem_events_iff c f).mpr ⟨j, hf⟩))
      · have hb : (key == e.path.components) = false := by simpa using hk
        rw [hb, h.lookup_iff]
        by_cases hj : j = c.slots.length
        · subst hj
          have hn : c.at? c.slots.length = none := by simp [at?]
          simp [hn, Ne.symm hk]
        · simp [hj]
    · rw [List.map_cons, List.nodup_cons]
      refine ⟨?_, h.keys_nodup⟩
      rw [List.lookup_eq_none_iff] at missing
      intro hm
      obtain ⟨entry, he, hk⟩ := List.mem_map.mp hm
      exact absurd hk.symm (by simpa using missing entry he)
  · -- The event changes its kind, and keeps its place and its path.
    rw [eq]
    refine ⟨fun key j => ?_, h.keys_nodup⟩
    rw [h.lookup_iff, at?_set c _ held]
    by_cases hj : j = slot
    · subst hj
      simp [held, fold_path merged]
    · simp [hj]
  · -- The place becomes empty, and the index forgets the path.
    rw [eq]
    refine ⟨fun key j => ?_, ?_⟩
    · rw [lookup_filter_ne, at?_set c _ held]
      by_cases hk : key = e.path.components
      · subst hk
        simp only [if_true, reduceCtorEq, false_iff, not_exists, not_and]
        intro g hg hs
        split at hg
        · cases hg
        · rename_i hj
          exact hj (h.slot_unique hg held (hs.trans same.symm))
      · rw [if_neg hk, h.lookup_iff]
        by_cases hj : j = slot
        · subst hj
          have hs : f.path.components = e.path.components := same
          simp [held, hs, Ne.symm hk]
        · simp [hj]
    · exact h.keys_nodup.sublist (List.filter_sublist.map _)

theorem indexed_recordAll (h : Indexed c) (changes : List Event) : Indexed (c.recordAll changes) := by
  induction changes generalizing c with
  | nil => exact h
  | cons e rest ih => exact ih (indexed_record h e)

/-! ## Touched or not -/

theorem isUntouched_record (h : Indexed c) (e : Event) : (c.record e).isUntouched = false := by
  unfold isUntouched
  rcases record_cases h e with ⟨_, _, eq⟩ | ⟨slot, f, held, _, cases⟩
  · simp [eq]
  · have touched : c.slots ≠ [] := by
      intro none
      simp [at?, none] at held
    rcases cases with ⟨_, _, eq⟩ | ⟨_, eq⟩ <;> simp [eq, touched]

theorem isUntouched_recordAll_empty (changes : List Event) :
    (empty.recordAll changes).isUntouched = changes.isEmpty := by
  rcases List.eq_nil_or_concat changes with rfl | ⟨front, e, rfl⟩
  · rfl
  · have last : empty.recordAll (front ++ [e]) = (empty.recordAll front).record e := by
      simp [recordAll]
    rw [List.concat_eq_append, last, isUntouched_record (indexed_recordAll indexed_empty front)]
    simp

/-! ## Recording without places -/

/-- What becomes of an event of the batch when one more change comes. -/
def amend (e f : Event) : Option Event := if f.path.Same e.path then fold f e else some f

/-- A batch with one more change: folded into the event of its path, or put at the end. -/
def foldInto (batch : List Event) (e : Event) : List Event :=
  if batch.any fun f => decide (f.path.Same e.path) then batch.filterMap (amend e)
  else batch ++ [e]

theorem amend_path {e f g : Event} (h : amend e f = some g) : g.path = f.path := by
  unfold amend at h
  split at h
  · exact fold_path h
  · rw [Option.some.inj h]

theorem filterMap_set_unique {α : Type} (p : α → Prop) [DecidablePred p] (u : α → Option α)
    (l : List (Option α)) {i : Nat} {f : α} (held : l[i]? = some (some f)) (hp : p f)
    (unique : ∀ j g, l[j]? = some (some g) → p g → j = i) :
    (l.set i (u f)).filterMap id = (l.filterMap id).filterMap fun g => if p g then u g else some g := by
  induction l generalizing i with
  | nil => simp at held
  | cons x rest ih =>
    cases i with
    | zero =>
      simp only [List.getElem?_cons_zero, Option.some.injEq] at held
      subst held
      have others : ∀ g ∈ rest.filterMap id, ¬ p g := by
        intro g hg hpg
        obtain ⟨j, hj⟩ := List.mem_iff_getElem?.mp (by simpa using hg : some g ∈ rest)
        have := unique (j + 1) g (by simpa using hj) hpg
        omega
      have kept : (rest.filterMap id).filterMap (fun g => if p g then u g else some g) =
          rest.filterMap id := by
        rw [List.filterMap_congr (g := some) (fun g hg => if_neg (others g hg)), List.filterMap_some]
      cases hu : u f <;> simpa [hp, hu] using kept.symm
    | succ i =>
      have tail := ih (i := i) (by simpa using held)
        (fun j g hj hpg => by simpa using unique (j + 1) g (by simpa using hj) hpg)
      cases x with
      | none => simpa using tail
      | some g =>
        have hg : ¬ p g := fun hpg => by simpa using unique 0 g (by simp) hpg
        simpa [hg] using tail

/-- Places and index carry out `foldInto`. -/
theorem events_record (h : Indexed c) (e : Event) : (c.record e).events = foldInto c.events e := by
  unfold foldInto
  rcases record_cases h e with ⟨fresh, _, eq⟩ | ⟨slot, f, held, same, cases⟩
  · rw [eq, if_neg (by simpa using fresh)]
    simp [events]
  · have there : (c.events.any fun f => decide (f.path.Same e.path)) = true := by
      rw [List.any_eq_true]
      exact ⟨f, (mem_events_iff c f).mpr ⟨slot, held⟩, by simpa using same⟩
    have set : (c.record e).slots = c.slots.set slot (fold f e) := by
      rcases cases with ⟨g, merged, eq⟩ | ⟨undone, eq⟩
      · rw [eq, merged]
      · rw [eq, undone]
    rw [if_pos there, events, set]
    apply filterMap_set_unique (fun f => f.path.Same e.path) (fold · e) c.slots
      ((at?_eq_some_iff c slot f).mp held) same
    intro j g hj hs
    exact h.slot_unique ((at?_eq_some_iff c j g).mpr hj) held (hs.trans same.symm)

theorem events_recordAll (h : Indexed c) (changes : List Event) :
    (c.recordAll changes).events = changes.foldl foldInto c.events := by
  induction changes generalizing c with
  | nil => rfl
  | cons e rest ih =>
    change ((c.record e).recordAll rest).events = _
    rw [ih (indexed_record h e), events_record h e]
    rfl

end DirectoryWatch.Coalescer
