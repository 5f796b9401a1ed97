import DirectoryWatch.Session

/-!
# What a session takes in

A change is taken in if its path lies in the watch, if it does not take the root itself away, and if
the filter keeps its path. A record brings the changes that are taken in, in its order; one that
tells of lost records brings one change of the root, whatever else it says.
-/

namespace DirectoryWatch.Session

open Native (Record)

/-- The path is the root, or lies directly in it, or, when all below it is watched, lies below. -/
def Within (s : Session) (path : Path) : Prop :=
  path.Same s.root ∨ (s.recursive = false ∧ path.isChildOf s.root = true) ∨
    (s.recursive = true ∧ path.startsWith s.root = true)

/-- The filter, if there is one, does not ignore the path. -/
def Keeps (s : Session) (disk : Disk) (path : Path) : Prop :=
  ∀ f, s.filter = some f → f.isIgnored disk path = .ok false

/-- The change would take the root itself away. -/
def Uproots (s : Session) (change : Path × ChangeKind) : Prop :=
  change.1.Same s.root ∧ change.2.takesAway = true

structure Takes (s : Session) (disk : Disk) (change : Path × ChangeKind) : Prop where
  within : s.Within change.1
  rooted : ¬ s.Uproots change
  kept : s.Keeps disk change.1

theorem inScope_eq_true_iff (s : Session) (path : Path) : s.inScope path = true ↔ s.Within path := by
  unfold inScope Within
  cases s.recursive with
  | false => simp
  | true =>
    have covered : path.Same s.root → path.startsWith s.root = true := by
      intro same
      unfold Path.startsWith
      rw [show path.components = s.root.components from same]
      exact List.isPrefixOf_iff_prefix.mpr (List.prefix_refl _)
    simp only [if_true, Bool.true_eq_false, false_and, true_and, false_or]
    exact ⟨Or.inr, fun h => h.elim covered id⟩

theorem losesRoot_eq_true_iff (s : Session) (path : Path) (kind : ChangeKind) :
    s.losesRoot path kind = true ↔ s.Uproots (path, kind) := by
  simp [losesRoot, Uproots]

theorem admits_eq_true_iff (s : Session) (disk : Disk) (path : Path) (kind : ChangeKind) :
    s.admits disk path kind = .ok true ↔ s.Takes disk (path, kind) := by
  have watched : (s.inScope path && !s.losesRoot path kind) = true ↔
      s.Within path ∧ ¬ s.Uproots (path, kind) := by
    rw [Bool.and_eq_true, inScope_eq_true_iff, Bool.not_eq_true', ← losesRoot_eq_true_iff,
      Bool.not_eq_true]
  unfold admits
  split
  · rename_i passed
    obtain ⟨within, rooted⟩ := watched.mp passed
    have kept : s.Takes disk (path, kind) ↔ s.Keeps disk path :=
      ⟨fun h => h.kept, fun h => ⟨within, rooted, h⟩⟩
    rw [kept]
    unfold Keeps
    cases s.filter with
    | none => simp
    | some f =>
      cases ignored : f.isIgnored disk path with
      | error p => simp [ignored, Except.map]
      | ok b => cases b <;> simp [ignored, Except.map]
  · rename_i dropped
    have taken : ¬ s.Takes disk (path, kind) := fun h => dropped (watched.mpr ⟨h.within, h.rooted⟩)
    simp [taken]

instance (s : Session) (disk : Disk) (change : Path × ChangeKind) :
    Decidable (s.Takes disk change) :=
  have admitted := s.admits_eq_true_iff disk change.1 change.2
  match h : s.admits disk change.1 change.2 with
  | .ok true => isTrue (admitted.mp h)
  | .ok false => isFalse fun takes => by simp [h] at admitted; exact admitted takes
  | .error p => isFalse fun takes => by simp [h] at admitted; exact admitted takes

/-- The changes that a record brings, none of which is beyond telling. -/
def brought (s : Session) (disk : Disk) (r : Record) : List (Path × ChangeKind) :=
  if r.rescan then [(s.root, .modified)] else (r.changes disk).filter fun c => s.Takes disk c

/-! ## One record -/

theorem mem_admitted {s : Session} {disk : Disk} {changes : List (Path × ChangeKind)}
    {c : Path × ChangeKind} (h : c ∈ (s.admitted disk changes).1) :
    c ∈ changes ∧ s.Takes disk c := by
  induction changes with
  | nil => cases h
  | cons first rest ih =>
    obtain ⟨path, kind⟩ := first
    unfold admitted at h
    split at h
    · cases h
    · rename_i admits
      rcases List.mem_cons.mp h with rfl | later
      · exact ⟨List.mem_cons_self, (s.admits_eq_true_iff disk path kind).mp admits⟩
      · obtain ⟨there, takes⟩ := ih later
        exact ⟨List.mem_cons_of_mem _ there, takes⟩
    · obtain ⟨there, takes⟩ := ih h
      exact ⟨List.mem_cons_of_mem _ there, takes⟩

theorem admitted_of_told {s : Session} {disk : Disk} {changes : List (Path × ChangeKind)}
    (told : (s.admitted disk changes).2 = none) :
    (s.admitted disk changes).1 = changes.filter fun c => s.Takes disk c := by
  induction changes with
  | nil => rfl
  | cons first rest ih =>
    obtain ⟨path, kind⟩ := first
    unfold admitted at told ⊢
    have takes := s.admits_eq_true_iff disk path kind
    split at told
    · cases told
    · rename_i admits
      rw [List.filter_cons_of_pos (by simpa using takes.mp admits)]
      exact congrArg _ (ih told)
    · rename_i admits
      have dropped : ¬ s.Takes disk (path, kind) := by
        rw [← takes, admits]
        simp
      rw [List.filter_cons_of_neg (by simpa using dropped)]
      exact ih told

theorem admitted_told_iff {s : Session} {disk : Disk} {changes : List (Path × ChangeKind)} :
    (s.admitted disk changes).2 = none ↔ ∀ c ∈ changes, ∀ p, s.admits disk c.1 c.2 ≠ .error p := by
  induction changes with
  | nil => simp [admitted]
  | cons first rest ih =>
    rw [List.forall_mem_cons]
    unfold admitted
    cases admits : s.admits disk first.1 first.2 with
    | error p => simp
    | ok taken => cases taken <;> simp [ih]

theorem mem_recordChanges {s : Session} {disk : Disk} {r : Record} {c : Path × ChangeKind}
    (h : c ∈ (s.recordChanges disk r).1) : c ∈ s.brought disk r := by
  unfold recordChanges at h
  unfold brought
  split
  · rename_i rescan
    simpa [rescan] using h
  · rename_i whole
    rw [if_neg whole] at h
    rw [List.mem_filter]
    obtain ⟨there, takes⟩ := mem_admitted h
    exact ⟨there, by simpa using takes⟩

theorem recordChanges_of_told {s : Session} {disk : Disk} {r : Record}
    (told : (s.recordChanges disk r).2 = none) :
    (s.recordChanges disk r).1 = s.brought disk r := by
  unfold recordChanges at told ⊢
  unfold brought
  split
  · rfl
  · rename_i whole
    rw [if_neg whole] at told
    exact admitted_of_told told

/-! ## The records of a reading -/

theorem mem_changes {s : Session} {disk : Disk} {records : List Record} {c : Path × ChangeKind}
    (h : c ∈ (s.changes disk records).1) : ∃ r ∈ records, c ∈ s.brought disk r := by
  induction records with
  | nil => cases h
  | cons first rest ih =>
    unfold changes at h
    cases hr : s.recordChanges disk first with
    | mk found panic =>
      have mine : c ∈ found → ∃ r ∈ first :: rest, c ∈ s.brought disk r := by
        intro hc
        refine ⟨first, List.mem_cons_self, mem_recordChanges ?_⟩
        rw [hr]
        exact hc
      rw [hr] at h
      cases panic with
      | some p => exact mine h
      | none =>
        rcases List.mem_append.mp h with now | later
        · exact mine now
        · obtain ⟨r, there, brings⟩ := ih later
          exact ⟨r, List.mem_cons_of_mem _ there, brings⟩

theorem changes_told_iff {s : Session} {disk : Disk} {records : List Record} :
    (s.changes disk records).2 = none ↔ ∀ r ∈ records, (s.recordChanges disk r).2 = none := by
  induction records with
  | nil => simp [changes]
  | cons first rest ih =>
    rw [List.forall_mem_cons]
    unfold changes
    cases brought : s.recordChanges disk first with
    | mk found panic => cases panic <;> simp [ih]

theorem changes_of_told {s : Session} {disk : Disk} {records : List Record}
    (told : (s.changes disk records).2 = none) :
    (s.changes disk records).1 = records.flatMap (s.brought disk) := by
  induction records with
  | nil => rfl
  | cons first rest ih =>
    unfold changes at told ⊢
    cases hr : s.recordChanges disk first with
    | mk found panic =>
      rw [hr] at told
      cases panic with
      | some p => cases told
      | none =>
        have mine : found = s.brought disk first := by
          rw [← recordChanges_of_told (by rw [hr]), hr]
        rw [List.flatMap_cons, ← mine, ← ih told]

end DirectoryWatch.Session
