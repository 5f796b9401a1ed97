import DirectoryWatch.Proofs.Session.Course

/-!
# Records one by one

How the records that come to a session are spread over its reads is left out here. A read panics
exactly if one of its records is beyond telling, and a batch that was not taken yet is made of what
each record since its beginning brings.
-/

namespace DirectoryWatch

open Native (Record)

/-- A record that was read, with the disk and the moment of the read. -/
structure Intake where
  disk : Disk
  observed : Moment
  record : Record

namespace Intake

/-- The record, and what the disk answers about its paths: whether anything is there, and whether it
is a directory. -/
def answered (i : Intake) : Record × List (Bool × Bool) :=
  (i.record, i.record.paths.map fun path => (i.disk.isPresent path, i.disk.isDir path))

/-- The changes that a session takes in from a record. -/
def changes (s : Session) (i : Intake) : List Event :=
  (s.brought i.disk i.record).map (Session.eventAt i.observed)

def Told (s : Session) (i : Intake) : Prop := (s.recordChanges i.disk i.record).2 = none

end Intake

/-! ## Answers of the disk -/

theorem Native.Record.mem_paths_of_changes {disk : Disk} {r : Record} {c : Path × ChangeKind}
    (h : c ∈ r.changes disk) : c.1 ∈ r.paths := by
  unfold changes at h
  split at h
  · cases h
  all_goals try (obtain ⟨path, there, rfl⟩ := List.mem_map.mp h; exact there)
  split at h
  · cases h
  · rename_i paths
    rw [paths]
    rcases List.mem_cons.mp h with rfl | target
    · exact List.mem_cons_self
    · obtain ⟨path, there, rfl⟩ := List.mem_map.mp target
      exact List.mem_cons_of_mem _ there

/-- Two disks that answer the same about the paths of a record. -/
def Disk.Agree (disk other : Disk) (r : Record) : Prop :=
  ∀ path ∈ r.paths, disk.isPresent path = other.isPresent path ∧ disk.isDir path = other.isDir path

theorem Native.Record.changes_congr {disk other : Disk} {r : Record} (same : disk.Agree other r) :
    r.changes disk = r.changes other := by
  unfold changes
  split
  case h_7 =>
    apply List.map_congr_left
    intro path there
    rw [(same path there).1]
  all_goals rfl

namespace Session

variable (s : Session) {disk other : Disk} {r : Record}

theorem admits_of_isDir {path : Path} (same : disk.isDir path = other.isDir path) (kind : ChangeKind) :
    s.admits disk path kind = s.admits other path kind := by
  unfold admits Ignore.Filter.isIgnored
  rw [same]

theorem brought_congr (same : disk.Agree other r) : s.brought disk r = s.brought other r := by
  unfold brought
  rw [Native.Record.changes_congr same]
  split
  · rfl
  · apply List.filter_congr
    intro c there
    have dir := (same c.1 (Native.Record.mem_paths_of_changes there)).2
    rw [decide_eq_decide, ← admits_eq_true_iff, ← admits_eq_true_iff, s.admits_of_isDir dir]

theorem told_congr (same : disk.Agree other r) :
    (s.recordChanges disk r).2 = none ↔ (s.recordChanges other r).2 = none := by
  unfold recordChanges
  split
  · exact Iff.rfl
  · rw [Native.Record.changes_congr same, admitted_told_iff, admitted_told_iff]
    apply forall₂_congr
    intro c there
    have dir := (same c.1 (Native.Record.mem_paths_of_changes there)).2
    rw [s.admits_of_isDir dir]

end Session

namespace Intake

variable {s : Session} {i j : Intake}

theorem agree_of_answered (same : i.answered = j.answered) :
    i.record = j.record ∧ i.disk.Agree j.disk j.record := by
  obtain ⟨record, answers⟩ := Prod.mk.inj same
  rw [record] at answers
  exact ⟨record, fun path there => Prod.mk.inj (List.map_inj_left.mp answers path there)⟩

theorem brought_of_answered (same : i.answered = j.answered) :
    s.brought i.disk i.record = s.brought j.disk j.record := by
  obtain ⟨record, agree⟩ := agree_of_answered same
  rw [record]
  exact s.brought_congr agree

theorem told_of_answered (same : i.answered = j.answered) : i.Told s ↔ j.Told s := by
  obtain ⟨record, agree⟩ := agree_of_answered same
  unfold Told
  rw [record]
  exact s.told_congr agree

theorem flatMap_congr_of_map {View Part : Type} {view : Intake → View} {parts : Intake → List Part}
    (depends : ∀ i j, view i = view j → parts i = parts j) {intakes others : List Intake}
    (same : intakes.map view = others.map view) : intakes.flatMap parts = others.flatMap parts := by
  induction intakes generalizing others with
  | nil =>
    rw [List.map_nil, eq_comm, List.map_eq_nil_iff] at same
    rw [same]
  | cons i rest ih =>
    cases others with
    | nil => cases same
    | cons o others =>
      obtain ⟨first, later⟩ := List.cons.inj same
      rw [List.flatMap_cons, List.flatMap_cons, depends i o first, ih later]

end Intake

namespace Session

/-- The changes that some records bring. -/
def broughtBy (s : Session) (intakes : List Intake) : List (Path × ChangeKind) :=
  intakes.flatMap fun i => s.brought i.disk i.record

variable (s : Session) {intakes others : List Intake}

theorem told_flatMap_changes (intakes : List Intake) :
    (intakes.flatMap (Intake.changes s)).map Coalescer.told = s.broughtBy intakes := by
  have each : ∀ i : Intake, (i.changes s).map Coalescer.told = s.brought i.disk i.record := by
    intro i
    unfold Intake.changes
    rw [List.map_map]
    exact List.map_id _
  rw [List.map_flatMap, broughtBy]
  exact List.flatMap_congr fun i _ => each i

theorem broughtBy_congr (same : intakes.map Intake.answered = others.map Intake.answered) :
    s.broughtBy intakes = s.broughtBy others :=
  Intake.flatMap_congr_of_map (fun _ _ => Intake.brought_of_answered) same

theorem flatMap_changes_congr (same : intakes.map Intake.answered = others.map Intake.answered)
    (moments : intakes.map Intake.observed = others.map Intake.observed) :
    intakes.flatMap (Intake.changes s) = others.flatMap (Intake.changes s) := by
  have both : (intakes.map fun i => (i.answered, i.observed)) =
      others.map fun i => (i.answered, i.observed) := by
    have zipped := congrArg₂ List.zip same moments
    rwa [List.zip_map', List.zip_map'] at zipped
  apply Intake.flatMap_congr_of_map _ both
  intro i j alike
  obtain ⟨answered, observed⟩ := Prod.mk.inj alike
  unfold Intake.changes
  rw [Intake.brought_of_answered answered, observed]

end Session

/-! ## In a ledger -/

def Reading.intake (r : Reading) : List Intake :=
  r.records.map fun record => ⟨r.disk, r.observed, record⟩

theorem Reading.told_iff {s : Session} {r : Reading} :
    (s.changes r.disk r.records).2 = none ↔ ∀ i ∈ r.intake, i.Told s := by
  rw [Session.changes_told_iff]
  simp [intake, Intake.Told]

theorem Reading.changes_of_told {s : Session} {r : Reading} (told : ∀ i ∈ r.intake, i.Told s) :
    r.changes s = r.intake.flatMap (Intake.changes s) := by
  unfold changes intake
  rw [Session.changes_of_told (told_iff.mpr told), List.map_flatMap, List.flatMap_map]
  rfl

namespace Session

open Worker (Accounted Deed)

def readings (entries : List Entry) : List Reading := (entries.map Entry.deed).filterMap Deed.reading?

/-- The records that were read, in order. -/
def intake (entries : List Entry) : List Intake := (readings entries).flatMap Reading.intake

theorem intake_append (entries more : List Entry) :
    intake (entries ++ more) = intake entries ++ intake more := by
  unfold intake readings
  rw [List.map_append, List.filterMap_append, List.flatMap_append]

variable {s₀ s : Session} {arrived : List Native.Message} {deeds : List Deed}

theorem calm_entries_iff (h : Accounted s₀ s arrived deeds) (x : Happening) :
    (∀ p, .panic p ∉ faults (s.entries x)) ↔ ∀ i ∈ intake (s.entries x), i.Told s₀ := by
  cases x with
  | ingest disk now observed =>
    have read : intake (s.entries (.ingest disk now observed)) = (s.reading disk observed).intake := by
      simp [intake, readings, entries, Entry.deed, Deed.reading?]
    rw [read, ← Reading.told_iff, ← changes_congr h.setup]
    simp only [mem_faults_ingest]
    constructor
    · exact told_of_ingest disk now observed h.unabsorbed
    · intro told p panics
      cases (ingest_eq_error_iff disk now observed h.unabsorbed (.panic p)).mp panics with
      | panic untold =>
        rw [reading] at told
        rw [told] at untold
        cases untold
  | takeDue now =>
    unfold entries
    cases (s.takeDue now).1 <;> simp [faults, Entry.fault?, intake, readings, Entry.deed, Deed.reading?]
  | takeBatch => simp [entries, faults, Entry.fault?, intake, readings, Entry.deed, Deed.reading?]
  | sent | severed | closed => simp [entries, faults, intake, readings]

theorem calm_iff (h : Accounted s₀ s arrived deeds) (course : List Happening) :
    (∀ p, .panic p ∉ faults (s.ledger course)) ↔ ∀ i ∈ intake (s.ledger course), i.Told s₀ := by
  induction course generalizing s arrived deeds with
  | nil => simp [ledger, noted, faults, intake, readings]
  | cons x rest ih =>
    obtain ⟨_, next⟩ := accounted_after h x
    rw [ledger_cons, intake_append, List.forall_mem_append, ← calm_entries_iff h x, ← ih next]
    simp [faults, forall_and]

theorem events_of_accounted (h : Accounted s₀ s arrived deeds) {course : List Happening}
    (calm : ∀ p, .panic p ∉ faults (s.ledger course))
    (untaken : ∀ batch, .taken batch ∉ s.ledger course) :
    (s.run course).batch.events = Coalescer.batchOf
      ((Worker.recent deeds).flatMap (Reading.changes s₀) ++
        (intake (s.ledger course)).flatMap (Intake.changes s₀)) := by
  obtain ⟨_, accounted⟩ := accounted_course h course
  have told := (calm_iff h course).mp calm
  have undone : ∀ batch, .taken batch ∉ (s.ledger course).map Entry.deed := by
    intro batch hb
    obtain ⟨entry, there, deed⟩ := List.mem_map.mp hb
    cases entry with
    | read r => cases deed
    | taken given =>
      cases deed
      exact untaken batch there
  have changes : ∀ r ∈ readings (s.ledger course),
      r.changes s₀ = r.intake.flatMap (Intake.changes s₀) := by
    intro r hr
    apply Reading.changes_of_told
    intro i hi
    exact told i (List.mem_flatMap.mpr ⟨r, hr, hi⟩)
  rw [accounted.events, Worker.recent_append_of_untaken deeds undone, Worker.coalesced,
    List.flatMap_append, intake, List.flatMap_assoc]
  exact congrArg (fun new => Coalescer.batchOf (_ ++ new)) (List.flatMap_congr changes)

theorem events_of_untaken (fresh : s.Fresh) {course : List Happening}
    (calm : ∀ p, .panic p ∉ faults (s.ledger course))
    (untaken : ∀ batch, .taken batch ∉ s.ledger course) :
    (s.run course).batch.events =
      Coalescer.batchOf ((intake (s.ledger course)).flatMap (Intake.changes s)) :=
  events_of_accounted (Worker.accounted_start fresh) calm untaken

end Session

end DirectoryWatch
