import DirectoryWatch.Proofs.Coalescer.Index

/-!
# Changes of some of the paths

Paths can be chosen before their changes are recorded, or after the batch is taken. The two coalescers
lay out their places differently, but each change leaves them with the same events of the chosen paths,
so a batch tells of these whatever the others do.
-/

namespace DirectoryWatch

/-- Whether a path is chosen does not hang on its spelling. -/
def Path.SpellingFree (chosen : Path → Bool) : Prop := ∀ p q : Path, p.Same q → chosen p = chosen q

theorem Path.spellingFree_same (p : Path) : SpellingFree fun q => decide (q.Same p) := by
  intro q r same
  have either : q.Same p ↔ r.Same p := ⟨fun h => same.symm.trans h, fun h => same.trans h⟩
  simp [either]

namespace Coalescer

/-- The events of the chosen paths. -/
def onlyAbout (chosen : Path → Bool) (events : List Event) : List Event :=
  events.filter fun e => chosen e.path

variable {chosen : Path → Bool} {c d : Coalescer} {e : Event}

theorem onlyAbout_cons_of_chosen (h : chosen e.path = true) (rest : List Event) :
    onlyAbout chosen (e :: rest) = e :: onlyAbout chosen rest := by
  simp [onlyAbout, h]

theorem onlyAbout_cons_of_unchosen (h : chosen e.path = false) (rest : List Event) :
    onlyAbout chosen (e :: rest) = onlyAbout chosen rest := by
  simp [onlyAbout, h]

/-! ## One more change -/

section Change

variable (free : Path.SpellingFree chosen) (batch : List Event)

include free

theorem onlyAbout_foldInto_of_chosen (h : chosen e.path = true) :
    onlyAbout chosen (foldInto batch e) = foldInto (onlyAbout chosen batch) e := by
  have met : ∀ f : Event, f.path.Same e.path → chosen f.path = true :=
    fun f same => (free _ _ same).trans h
  have any : (onlyAbout chosen batch).any (fun f => decide (f.path.Same e.path)) =
      batch.any fun f => decide (f.path.Same e.path) := by
    rw [onlyAbout, List.any_filter]
    congr 1
    funext f
    by_cases same : f.path.Same e.path <;> simp [same, met f]
  unfold foldInto
  rw [any]
  split
  · rw [onlyAbout, List.filter_filterMap, onlyAbout, List.filterMap_filter]
    apply List.filterMap_congr
    intro f _
    by_cases hf : chosen f.path = true
    · cases ha : amend e f with
      | none => simp [hf]
      | some g => simp [hf, amend_path ha]
    · have ha : amend e f = some f := if_neg fun same => hf (met f same)
      simp [hf, ha]
  · simp [onlyAbout, List.filter_append, h]

theorem onlyAbout_foldInto_of_unchosen (h : chosen e.path = false) :
    onlyAbout chosen (foldInto batch e) = onlyAbout chosen batch := by
  have unmet : ∀ f : Event, chosen f.path = true → ¬ f.path.Same e.path := by
    intro f hf same
    rw [free _ _ same, h] at hf
    cases hf
  unfold foldInto
  split
  · rw [onlyAbout, List.filter_filterMap, onlyAbout, ← List.filterMap_eq_filter]
    apply List.filterMap_congr
    intro f _
    by_cases hf : chosen f.path = true
    · have ha : amend e f = some f := if_neg (unmet f hf)
      simp [ha, hf, Option.guard]
    · cases ha : amend e f with
      | none => simp [hf, Option.guard]
      | some g => simp [hf, amend_path ha, Option.guard]
  · simp [onlyAbout, List.filter_append, h]

end Change

/-! ## Two coalescers -/

/-- The narrow coalescer holds the events of the chosen paths that the wide one holds. -/
structure Restricts (chosen : Path → Bool) (wide narrow : Coalescer) : Prop where
  wide_indexed : Indexed wide
  narrow_indexed : Indexed narrow
  events : narrow.events = onlyAbout chosen wide.events

theorem restricts_empty (chosen : Path → Bool) : Restricts chosen empty empty :=
  ⟨indexed_empty, indexed_empty, rfl⟩

theorem Restricts.record_chosen (h : Restricts chosen c d) (free : Path.SpellingFree chosen)
    (he : chosen e.path = true) : Restricts chosen (c.record e) (d.record e) := by
  refine ⟨indexed_record h.wide_indexed e, indexed_record h.narrow_indexed e, ?_⟩
  rw [events_record h.narrow_indexed, events_record h.wide_indexed, h.events,
    onlyAbout_foldInto_of_chosen free _ he]

theorem Restricts.record_unchosen (h : Restricts chosen c d) (free : Path.SpellingFree chosen)
    (he : chosen e.path = false) : Restricts chosen (c.record e) d := by
  refine ⟨indexed_record h.wide_indexed e, h.narrow_indexed, ?_⟩
  rw [events_record h.wide_indexed, h.events, onlyAbout_foldInto_of_unchosen free _ he]

theorem Restricts.recordAll (h : Restricts chosen c d) (free : Path.SpellingFree chosen)
    (changes : List Event) :
    Restricts chosen (c.recordAll changes) (d.recordAll (onlyAbout chosen changes)) := by
  induction changes generalizing c d with
  | nil => exact h
  | cons e rest ih =>
    cases he : chosen e.path with
    | true =>
      rw [onlyAbout_cons_of_chosen he]
      exact ih (h.record_chosen free he)
    | false =>
      rw [onlyAbout_cons_of_unchosen he]
      exact ih (h.record_unchosen free he)

/-- **Choosing paths.** The batch of the changes of some paths is what the batch of all changes tells
of these paths, whatever the two coalescers held before their last drains. So whatever else changes,
what a batch tells of these paths is the same. -/
theorem choosing_paths (free : Path.SpellingFree chosen) (c d : Coalescer) (changes : List Event) :
    let batch := (c.drain.2.recordAll changes).drain.1
    (d.drain.2.recordAll (onlyAbout chosen changes)).drain.1 = onlyAbout chosen batch ∧
    ∀ others, onlyAbout chosen others = onlyAbout chosen changes →
      onlyAbout chosen (d.drain.2.recordAll others).drain.1 = onlyAbout chosen batch := by
  intro batch
  have chosen_of (some : List Event) : (empty.recordAll (onlyAbout chosen some)).events =
      onlyAbout chosen (empty.recordAll some).events :=
    ((restricts_empty chosen).recordAll free some).events
  refine ⟨chosen_of changes, fun others agree => ?_⟩
  change onlyAbout chosen (empty.recordAll others).events =
    onlyAbout chosen (empty.recordAll changes).events
  rw [← chosen_of others, agree, chosen_of changes]

/-- A path that comes, goes and comes back takes a new place behind a file of which only the second
spelling is told later; the batch of the file alone has neither. -/
theorem choosing_paths_file :
    let other : Path := ⟨[0x2F, 0x61]⟩
    let file : Path := ⟨[0x2F, 0x62]⟩
    let respelt : Path := ⟨[0x2F, 0x2F, 0x62, 0x2F]⟩
    let chosen := fun p : Path => decide (p.Same file)
    let later : Moment := ⟨1, ⟨0, by decide⟩⟩
    let changes : List Event := [⟨other, .created, .origin⟩, ⟨file, .removed, .origin⟩,
      ⟨other, .removed, later⟩, ⟨respelt, .created, later⟩, ⟨other, .modified, later⟩]
    Path.SpellingFree chosen ∧
    (empty.recordAll changes).drain.1 = [⟨file, .modified, .origin⟩, ⟨other, .modified, later⟩] ∧
    (empty.recordAll (onlyAbout chosen changes)).drain.1 = [⟨file, .modified, .origin⟩] := by
  intro other file respelt chosen later changes
  have free : Path.SpellingFree chosen := Path.spellingFree_same file
  have whole : (empty.recordAll changes).drain.1 =
      [⟨file, .modified, .origin⟩, ⟨other, .modified, later⟩] := by decide
  refine ⟨free, whole, ?_⟩
  have alone := (choosing_paths free empty empty changes).1
  change (empty.recordAll (onlyAbout chosen changes)).drain.1 =
    onlyAbout chosen (empty.recordAll changes).drain.1 at alone
  rw [alone, whole]
  decide

end Coalescer

end DirectoryWatch
