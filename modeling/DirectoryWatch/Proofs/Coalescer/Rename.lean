import DirectoryWatch.Native.Record
import DirectoryWatch.Proofs.Coalescer.Life

/-!
# Renames that are told twice

Some native layers tell of one rename in three records: of the old path, of the new one, and then of
both. The second telling changes a batch in two cases only. A path that was created in the batch has
left it when it is renamed away, and being told so again it comes back with an event of its own. A
path that was taken away before something was renamed to it has been modified, and being told so
again it has been renamed to.
-/

namespace DirectoryWatch

/-- One rename as some backends tell it. -/
def Native.twofold (old new : Path) : List Native.Record :=
  [⟨.rename .source, [old], false⟩, ⟨.rename .target, [new], false⟩,
    ⟨.rename .both, [old, new], false⟩]

namespace Life

/-- The kind that the life of a path under way has come to. -/
def kind? (changes : List Event) (p : Path) : Option ChangeKind := (after? changes p).map Life.kind

/-- What becomes of that kind when one more change comes. -/
def joined : Option ChangeKind → ChangeKind → Option ChangeKind
  | none, later => some later
  | some earlier, later => earlier.merge later

theorem kind?_snoc (changes : List Event) (e : Event) (p : Path) :
    kind? (changes ++ [e]) p =
      if e.path.Same p then joined (kind? changes p) e.kind else kind? changes p := by
  unfold kind?
  rw [after?_snoc]
  split
  · cases after? changes p with
    | none => rfl
    | some l =>
      change ((l.kind.merge e.kind).map fun kind => ({ l with kind } : Life)).map Life.kind = _
      rw [Option.map_map]
      exact Option.map_id'
  · rfl

end Life

namespace Coalescer

open Life

/-! ## What a change does to the events of its path -/

/-- The events with the kind of one path set. -/
def turned (p : Path) (kind : ChangeKind) (e : Event) : Event :=
  if e.path.Same p then { e with kind } else e

variable {changes : List Event} {e : Event}

theorem kind_of_mem_batchOf {f : Event} {p : Path} {kind : ChangeKind}
    (h : kind? changes p = some kind) (mem : f ∈ batchOf changes) (same : f.path.Same p) :
    f.kind = kind := by
  obtain ⟨l, hl, rfl⟩ := mem_batchOf mem
  have known : kind? changes p = some l.kind := by
    rw [kind?, ← after?_congr changes same, hl]
    rfl
  rw [h] at known
  exact (Option.some.inj known).symm

theorem batchOf_snoc_of_new (h : kind? changes e.path = none) :
    batchOf (changes ++ [e]) = batchOf changes ++ [e] :=
  batchOf_snoc_of_none (Option.map_eq_none_iff.mp h)

theorem batchOf_snoc_of_merged {earlier kind : ChangeKind} (h : kind? changes e.path = some earlier)
    (merged : earlier.merge e.kind = some kind) :
    batchOf (changes ++ [e]) = (batchOf changes).map (turned e.path kind) := by
  obtain ⟨l, hl, -⟩ := Option.map_eq_some_iff.mp h
  rw [batchOf_snoc_of_some hl, ← List.filterMap_eq_map]
  apply List.filterMap_congr
  intro f mem
  unfold amend turned
  by_cases same : f.path.Same e.path
  · rw [if_pos same, fold, kind_of_mem_batchOf h mem same, merged]
    simp [same]
  · simp [same]

theorem map_turned_self {p : Path} {kind : ChangeKind} (h : kind? changes p = some kind) :
    (batchOf changes).map (turned p kind) = batchOf changes := by
  have kept : ∀ f ∈ batchOf changes, turned p kind f = f := by
    intro f mem
    unfold turned
    split
    · rename_i same
      rw [← kind_of_mem_batchOf h mem same]
    · rfl
  rw [List.map_congr_left kept, List.map_id']

theorem exists_mem_batchOf {p : Path} {kind : ChangeKind} (h : kind? changes p = some kind) :
    ∃ f ∈ batchOf changes, f.path.Same p := by
  obtain ⟨l, hl, -⟩ := Option.map_eq_some_iff.mp h
  have held : l.event ∈ (batchOf changes).filter fun f => decide (f.path.Same p) := by
    rw [filter_batchOf, hl]
    exact List.mem_singleton_self _
  obtain ⟨mem, same⟩ := List.mem_filter.mp held
  exact ⟨l.event, mem, by simpa using same⟩

/-! ## A rename -/

/-- The two changes of a rename. -/
def rename (old new : Path) (t u : Moment) : List Event :=
  [⟨old, .renamedOld, t⟩, ⟨new, .renamedNew, u⟩]

variable (earlier : List Event) {old new : Path}

theorem kind?_old (apart : ¬ old.Same new) (t u : Moment) :
    kind? (earlier ++ rename old new t u) old =
      if kind? earlier old = some .created then none else some .renamedOld := by
  have other : ¬ new.Same old := fun h => apart h.symm
  rw [rename, List.append_cons, kind?_snoc, if_neg other, kind?_snoc, if_pos (Path.Same.refl old)]
  cases kind? earlier old with
  | none => rfl
  | some kind => cases kind <;> rfl

theorem kind?_new (apart : ¬ old.Same new) (t u : Moment) :
    ∃ kind, kind? (earlier ++ rename old new t u) new = some kind ∧
      if (kind? earlier new).any ChangeKind.takesAway then
        kind = .modified ∧ kind.merge .renamedNew = some .renamedNew
      else kind.merge .renamedNew = some kind := by
  rw [rename, List.append_cons, kind?_snoc, if_pos (Path.Same.refl new), kind?_snoc, if_neg apart]
  cases kind? earlier new with
  | none => exact ⟨.renamedNew, rfl, rfl⟩
  | some kind =>
    cases kind with
    | created => exact ⟨.created, rfl, rfl⟩
    | modified | renamedNew => exact ⟨.renamedNew, rfl, rfl⟩
    | removed | renamedOld => exact ⟨.modified, rfl, rfl, rfl⟩

theorem batchOf_rename_again (apart : ¬ old.Same new) (t u v w : Moment) :
    batchOf (earlier ++ rename old new t u ++ rename old new v w) =
      (if (kind? earlier new).any ChangeKind.takesAway then
          (batchOf (earlier ++ rename old new t u)).map (turned new .renamedNew)
        else batchOf (earlier ++ rename old new t u)) ++
        if kind? earlier old = some .created then [⟨old, .renamedOld, v⟩] else [] := by
  have left := kind?_old earlier apart t u
  obtain ⟨kind, reached, again⟩ := kind?_new earlier apart t u
  set once := earlier ++ rename old new t u with hc
  -- Telling of the old path again opens an event of it, or changes nothing.
  have gone : batchOf (once ++ [⟨old, .renamedOld, v⟩]) =
      batchOf once ++ if kind? earlier old = some .created then [⟨old, .renamedOld, v⟩] else [] := by
    by_cases created : kind? earlier old = some .created
    · rw [if_pos created] at left ⊢
      exact batchOf_snoc_of_new left
    · rw [if_neg created] at left
      rw [if_neg created, List.append_nil, batchOf_snoc_of_merged left rfl]
      exact map_turned_self left
  have still : kind? (once ++ [⟨old, .renamedOld, v⟩]) new = some kind := by
    rw [kind?_snoc, if_neg apart, reached]
  rw [rename, List.append_cons]
  by_cases taken : (kind? earlier new).any ChangeKind.takesAway = true
  · rw [if_pos taken] at again ⊢
    rw [batchOf_snoc_of_merged still again.2, gone, List.map_append]
    congr 1
    split
    · simp [turned, apart]
    · rfl
  · rw [if_neg taken] at again ⊢
    rw [batchOf_snoc_of_merged still again, map_turned_self still, gone]

/-- **A rename told twice.** The three records by which some backends tell of one rename stand for its
two changes, and those again. Recorded again they set the new path from modified to renamed if the
batch had it taken away before, and begin an event of the old path if the batch had it created; so the
batch tells the same as before exactly if neither was the case. -/
theorem rename_told_twice (c : Coalescer) (earlier : List Event) {old new : Path}
    (apart : ¬ old.Same new) (t u v w : Moment) :
    let batch := fun changes => (c.drain.2.recordAll changes).drain.1
    let once := batch (earlier ++ rename old new t u)
    let twice := batch (earlier ++ rename old new t u ++ rename old new v w)
    (∀ disk, (Native.twofold old new).flatMap (Native.Record.changes disk) =
      (rename old new t u ++ rename old new v w).map told) ∧
    twice = (if (kind? earlier new).any ChangeKind.takesAway then once.map (turned new .renamedNew)
        else once) ++
      (if kind? earlier old = some .created then [⟨old, .renamedOld, v⟩] else []) ∧
    (twice.map told = once.map told ↔
      kind? earlier old ≠ some .created ∧ (kind? earlier new).any ChangeKind.takesAway = false) := by
  intro batch once twice
  have meaning : ∀ changes, batch changes = batchOf changes := events_recordAll_empty
  have shape : twice = (if (kind? earlier new).any ChangeKind.takesAway then
        once.map (turned new .renamedNew) else once) ++
      if kind? earlier old = some .created then [⟨old, .renamedOld, v⟩] else [] := by
    simp only [twice, once, meaning]
    exact batchOf_rename_again earlier apart t u v w
  refine ⟨fun disk => rfl, shape, ?_⟩
  constructor
  · intro same
    have uncreated : kind? earlier old ≠ some .created := by
      intro created
      have longer := congrArg List.length same
      rw [shape, if_pos created] at longer
      split at longer <;> simp at longer
    refine ⟨uncreated, ?_⟩
    by_contra taken
    rw [Bool.not_eq_false] at taken
    obtain ⟨kind, reached, again⟩ := kind?_new earlier apart t u
    rw [if_pos taken] at again
    obtain ⟨f, mem, at_new⟩ := exists_mem_batchOf reached
    -- The event of the new path is a modification once, and a rename twice.
    have modified : f.kind = .modified := (kind_of_mem_batchOf reached mem at_new).trans again.1
    rw [shape, if_pos taken, if_neg uncreated, List.append_nil, List.map_map] at same
    have turns := List.map_inj_left.mp same f (by simpa only [once, meaning] using mem)
    simp [told, turned, at_new, modified] at turns
  · rintro ⟨uncreated, untaken⟩
    rw [shape, if_neg uncreated, untaken]
    simp

/-- In a batch that had the old path removed and the new one created, the second telling changes
nothing. -/
theorem rename_told_twice_unseen :
    let old : Path := ⟨[0x2F, 0x61]⟩
    let new : Path := ⟨[0x2F, 0x62]⟩
    let earlier : List Event :=
      [⟨old, .modified, .origin⟩, ⟨new, .created, .origin⟩, ⟨old, .removed, .origin⟩]
    let pair := rename old new .origin .origin
    ¬ old.Same new ∧
    (empty.recordAll (earlier ++ pair ++ pair)).drain.1.map told =
      (empty.recordAll (earlier ++ pair)).drain.1.map told := by
  intro old new earlier pair
  have apart : ¬ old.Same new := by decide
  refine ⟨apart, ?_⟩
  exact (rename_told_twice empty earlier apart .origin .origin .origin .origin).2.2.mpr (by decide)

/-- A path that is created and renamed away leaves no event, unless the rename is told twice; and a
path that is removed and renamed to is modified, unless the rename is told twice. -/
theorem rename_told_twice_seen :
    let old : Path := ⟨[0x2F, 0x61]⟩
    let new : Path := ⟨[0x2F, 0x62]⟩
    let created : Event := ⟨old, .created, .origin⟩
    let removed : Event := ⟨new, .removed, .origin⟩
    let pair := rename old new .origin .origin
    let batch := fun changes : List Event => (empty.recordAll changes).drain.1.map told
    ¬ old.Same new ∧
    batch ([created] ++ pair) = [(new, .renamedNew)] ∧
    batch ([created] ++ pair ++ pair) = [(new, .renamedNew), (old, .renamedOld)] ∧
    batch ([removed] ++ pair) = [(new, .modified), (old, .renamedOld)] ∧
    batch ([removed] ++ pair ++ pair) = [(new, .renamedNew), (old, .renamedOld)] := by
  decide

end Coalescer

end DirectoryWatch
