import DirectoryWatch.Proofs.Path.Parent
import DirectoryWatch.Proofs.Session.Intake
import DirectoryWatch.Proofs.Session.RootLoss

/-!
# Watching without recursion

A session that watches one directory takes in the changes of the directory and of what lies directly in
it, out of those that a session which watches all below it would take in; and its batch tells of
them what the batch of the other does.
-/

namespace DirectoryWatch.Session

open Native (Record)

/-- The path is the root, or has the root as its parent. -/
def nearby (root path : Path) : Bool := decide (path.Same root) || path.isChildOf root

theorem spellingFree_nearby (root : Path) : Path.SpellingFree (nearby root) := by
  intro p q same
  have either : decide (p.Same root) = decide (q.Same root) := Path.spellingFree_same root p q same
  unfold nearby
  rw [either, Path.isChildOf_congr same]

/-- Two sessions of one root and filter, of which the wide one watches all that lies below. -/
structure Narrows (wide narrow : Session) : Prop where
  root : narrow.root = wide.root
  filter : narrow.filter = wide.filter
  recursive : wide.recursive = true
  flat : narrow.recursive = false

section Attaching

variable {State : Type} {backend : Native.Backend State} {disk : Disk} {path : Path} {config : Config}

theorem prepare_of_recursive {settled : Path × Option Ignore.Filter}
    (h : prepare backend disk path { config with recursive := true } = .ok settled) :
    prepare backend disk path { config with recursive := false } = .ok settled := by
  unfold prepare at h ⊢
  cases found : resolveRoot disk path with
  | error e =>
    rw [found] at h
    cases h
  | ok root =>
    rw [found] at h
    cases able : backend.recursion with
    | false =>
      simp only [able] at h
      cases h
    | true =>
      simp only [able] at h
      exact h

/-- Two watches that were attached to one path, with recursion and without. -/
theorem narrows_of_attach {state state' other other' : State} {wide narrow : Session}
    (deep : attach backend disk path { config with recursive := true } state = (.ok wide, state'))
    (shallow : attach backend disk path { config with recursive := false } other =
      (.ok narrow, other')) : Narrows wide narrow := by
  obtain ⟨root, filter, _, settled, rfl⟩ := eq_of_attach deep
  obtain ⟨root', filter', _, settled', rfl⟩ := eq_of_attach shallow
  rw [prepare_of_recursive settled, Except.ok.injEq, Prod.mk.injEq] at settled'
  exact ⟨settled'.1.symm, settled'.2.symm, rfl, rfl⟩

end Attaching

variable {wide narrow : Session}

namespace Narrows

variable (h : Narrows wide narrow) (disk : Disk)

include h

/-! ## One change -/

theorem inScope (path : Path) :
    narrow.inScope path = (nearby wide.root path && wide.inScope path) := by
  have flat : narrow.inScope path = nearby wide.root path := by
    unfold Session.inScope nearby
    rw [h.root, h.flat]
    rfl
  rw [flat]
  cases near : nearby wide.root path with
  | false => rfl
  | true =>
    have within : wide.Within path := by
      rcases Bool.or_eq_true_iff.mp near with same | child
      · exact .inl (of_decide_eq_true same)
      · exact .inr (.inr ⟨h.recursive, Path.startsWith_of_isChildOf child⟩)
    rw [(wide.inScope_eq_true_iff path).mpr within]
    rfl

theorem admits (path : Path) (kind : ChangeKind) :
    narrow.admits disk path kind =
      if nearby wide.root path then wide.admits disk path kind else .ok false := by
  have loses : narrow.losesRoot path kind = wide.losesRoot path kind := by
    unfold losesRoot
    rw [h.root]
  unfold Session.admits
  rw [h.inScope, loses, h.filter]
  cases nearby wide.root path <;> rfl

theorem takes_iff (c : Path × ChangeKind) :
    narrow.Takes disk c ↔ nearby wide.root c.1 = true ∧ wide.Takes disk c := by
  rw [← admits_eq_true_iff, ← admits_eq_true_iff, h.admits]
  cases nearby wide.root c.1 <;> simp

/-! ## One record -/

theorem brought (r : Record) :
    narrow.brought disk r = (wide.brought disk r).filter fun c => nearby wide.root c.1 := by
  unfold Session.brought
  split
  · simp [h.root, nearby]
  · rw [List.filter_filter]
    apply List.filter_congr
    intro c _
    simp [h.takes_iff]

theorem told {i : Intake} (told : i.Told wide) : i.Told narrow := by
  unfold Intake.Told recordChanges at told ⊢
  split
  · rfl
  · rename_i whole
    rw [if_neg whole, admitted_told_iff] at told
    rw [admitted_told_iff]
    intro c hc p
    rw [h.admits]
    split
    · exact told c hc p
    · simp

theorem changes (i : Intake) :
    i.changes narrow = Coalescer.onlyAbout (nearby wide.root) (i.changes wide) := by
  unfold Intake.changes Coalescer.onlyAbout
  rw [h.brought, List.filter_map]
  rfl

end Narrows

/-! ## One batch -/

/-- **The nearby part.** Of two sessions of one root and filter one watches all below the root, the other
only what lies directly in it. If they read the same records, with the same answers of the disk about
each, and no batch was taken, then the narrow session panics in no read unless the wide one does, and
its batch tells what the batch of the wide one tells of the root and of what lies directly in it: the
same paths as they are spelt, and kinds, in the same order. The events are the same, with their
moments, if the records were read at the same time too. -/
theorem nearby_part (h : Narrows wide narrow) (freshWide : wide.Fresh) (freshNarrow : narrow.Fresh)
    {course narrowCourse : List Happening}
    (calm : ∀ p, .panic p ∉ faults (wide.ledger course))
    (untaken : ∀ batch, .taken batch ∉ wide.ledger course)
    (narrowUntaken : ∀ batch, .taken batch ∉ narrow.ledger narrowCourse)
    (same : (intake (narrow.ledger narrowCourse)).map Intake.answered =
      (intake (wide.ledger course)).map Intake.answered) :
    let part := Coalescer.onlyAbout (nearby wide.root) (wide.run course).batch.events
    let batch := (narrow.run narrowCourse).batch.events
    (∀ p, .panic p ∉ faults (narrow.ledger narrowCourse)) ∧
    batch.map Coalescer.told = part.map Coalescer.told ∧
    ((intake (narrow.ledger narrowCourse)).map Intake.observed =
      (intake (wide.ledger course)).map Intake.observed → batch = part) := by
  intro part batch
  have startWide := Worker.accounted_start freshWide
  have startNarrow := Worker.accounted_start freshNarrow
  have told : ∀ i ∈ intake (wide.ledger course), i.Told wide := (calm_iff startWide course).mp calm
  have narrowTold : ∀ i ∈ intake (narrow.ledger narrowCourse), i.Told narrow := by
    intro i hi
    have answered : i.answered ∈ (intake (wide.ledger course)).map Intake.answered := by
      rw [← same]
      exact List.mem_map_of_mem hi
    obtain ⟨j, hj, alike⟩ := List.mem_map.mp answered
    exact h.told ((Intake.told_of_answered alike).mp (told j hj))
  have narrowCalm : ∀ p, .panic p ∉ faults (narrow.ledger narrowCourse) :=
    (calm_iff startNarrow narrowCourse).mpr narrowTold
  -- The narrow batch is the nearby part of what its records would make in the wide session.
  have cut : batch = Coalescer.onlyAbout (nearby wide.root) (Coalescer.batchOf
      ((intake (narrow.ledger narrowCourse)).flatMap (Intake.changes wide))) := by
    rw [← Coalescer.batchOf_onlyAbout (spellingFree_nearby wide.root), Coalescer.onlyAbout,
      List.filter_flatMap]
    exact (events_of_untaken freshNarrow narrowCalm narrowUntaken).trans
      (congrArg Coalescer.batchOf (List.flatMap_congr fun i _ => h.changes i))
  have whole := events_of_untaken freshWide calm untaken
  refine ⟨narrowCalm, ?_, ?_⟩
  · rw [cut, Coalescer.told_onlyAbout, Coalescer.told_onlyAbout, whole]
    congr 1
    apply Coalescer.told_batchOf_congr
    rw [told_flatMap_changes, told_flatMap_changes, broughtBy_congr wide same]
  · intro moments
    rw [cut, flatMap_changes_congr wide same moments, ← whole]

/-- Of a directory with a file, one that is spelt with a slash at its end later, one further down, an
ignored one and lost records, the narrow session leaves out the file further down. That it reads in
two goes makes no difference, nor what the disk answers about other paths by then. -/
theorem nearby_part_filtered :
    let root : Path := ⟨[0x2F, 0x72]⟩
    let file : Path := ⟨[0x2F, 0x72, 0x2F, 0x61]⟩
    let ended : Path := ⟨[0x2F, 0x72, 0x2F, 0x61, 0x2F]⟩
    let deeper : Path := ⟨[0x2F, 0x72, 0x2F, 0x64, 0x2F, 0x61]⟩
    let ignored : Path := ⟨[0x2F, 0x72, 0x2F, 0x2E, 0x73, 0x77, 0x70]⟩
    let disk (other : Path) : Disk :=
      ⟨.ok, fun path => decide (path = root ∨ path = other), fun _ => true, fun _ => .ok []⟩
    let away : Path := ⟨[0x2F, 0x62]⟩
    let filter : Ignore.Filter := ⟨root, [⟨false, false, .extended [0x2E, 0x73, 0x77, 0x70]⟩]⟩
    let wide : Session := ⟨root, true, .zero, some filter, .make root 0 true, .empty, none, []⟩
    let narrow : Session := { wide with recursive := false }
    let later : Moment := ⟨1, ⟨0, by decide⟩⟩
    let first : List Happening := [.sent (.record ⟨.create, [file, deeper, ignored], false⟩)]
    let rest : List Happening :=
      [.sent (.record ⟨.modify, [deeper, ended], false⟩), .sent (.record ⟨.access, [], true⟩)]
    let course := first ++ rest ++ [.ingest (disk root) later later]
    let narrowCourse :=
      first ++ [.ingest (disk away) .origin .origin] ++ rest ++ [.ingest (disk root) later later]
    Narrows wide narrow ∧ wide.Fresh ∧ narrow.Fresh ∧
    (∀ p, .panic p ∉ faults (wide.ledger course)) ∧
    (∀ batch, .taken batch ∉ wide.ledger course) ∧
    (∀ batch, .taken batch ∉ narrow.ledger narrowCourse) ∧
    (intake (narrow.ledger narrowCourse)).map Intake.answered =
      (intake (wide.ledger course)).map Intake.answered ∧
    (wide.run course).batch.events.map Coalescer.told =
      [(file, .created), (deeper, .created), (root, .modified)] ∧
    (narrow.run narrowCourse).batch.events.map Coalescer.told =
      [(file, .created), (root, .modified)] := by
  intro root file ended deeper ignored disk away filter wide narrow later first rest course narrowCourse
  have narrows : Narrows wide narrow := ⟨rfl, rfl, rfl, rfl⟩
  have freshWide : wide.Fresh := ⟨rfl, rfl, rfl⟩
  have freshNarrow : narrow.Fresh := ⟨rfl, rfl, rfl⟩
  have faultless : faults (wide.ledger course) = [] := by decide +kernel
  have calm : ∀ p, .panic p ∉ faults (wide.ledger course) := by simp [faultless]
  have untaken : ∀ batch, .taken batch ∉ wide.ledger course := by
    simp [course, first, rest, ledger, noted, entries]
  have narrowUntaken : ∀ batch, .taken batch ∉ narrow.ledger narrowCourse := by
    simp [narrowCourse, first, rest, ledger, noted, entries]
  have same : (intake (narrow.ledger narrowCourse)).map Intake.answered =
      (intake (wide.ledger course)).map Intake.answered := by decide +kernel
  have whole : (wide.run course).batch.events =
      [⟨file, .created, later⟩, ⟨deeper, .created, later⟩, ⟨root, .modified, later⟩] := by
    decide +kernel
  refine ⟨narrows, freshWide, freshNarrow, calm, untaken, narrowUntaken, same, by rw [whole]; rfl, ?_⟩
  have part := (nearby_part narrows freshWide freshNarrow calm untaken narrowUntaken same).2.1
  rw [part, whole]
  decide +kernel

end DirectoryWatch.Session
