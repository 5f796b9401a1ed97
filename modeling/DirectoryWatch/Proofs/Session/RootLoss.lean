import DirectoryWatch.Proofs.Session.Scope

/-!
# Records that the root is gone

A change that takes the root away is not taken in; the read that comes upon it asks the disk
whether the root is a directory instead. So such a record makes no difference to how a read ends: the
read fails if the root is not a directory by then, or for a reason that is none of the record's. If
there is a directory at the root again, the loss is never told.
-/

namespace DirectoryWatch.Session

open Native (Record Error)

/-- The record tells that the root was removed, or renamed away. -/
def TellsOfLoss (s : Session) (disk : Disk) (r : Record) : Prop :=
  r.rescan = false ∧ ∃ change ∈ r.changes disk, s.Uproots change

/-- The next read fails whatever has become of the root. -/
def Falters (s : Session) (disk : Disk) : Prop :=
  (∃ p, (s.changes disk s.absorbed).2 = some p) ∨
    ∃ e, s.handle.readPending.2.1 = .error (.native e)

variable {s : Session} {disk : Disk} {now observed : Moment}

theorem ingest_attached : (s.ingest disk now observed).2.isClosed = s.isClosed ∧
    (s.ingest disk now observed).2.handle.connected = s.handle.connected := by
  unfold ingest
  simp only [Native.Handle.readPending]
  split <;> exact ⟨rfl, rfl⟩

theorem readPending_of_mem {r : Record} (read : r ∈ s.handle.readPending.1) :
    (∃ n, s.handle.readPending.2.1 = .ok n) ∨ ∃ e, s.handle.readPending.2.1 = .error (.native e) := by
  unfold Native.Handle.readPending at read ⊢
  simp only at read ⊢
  cases (Native.Handle.split s.handle.pending).2.1 with
  | some e => exact .inr ⟨e, rfl⟩
  | none =>
    have some : (Native.Handle.split s.handle.pending).1.isEmpty = false := by
      rw [List.isEmpty_eq_false_iff]
      exact List.ne_nil_of_mem read
    exact .inl ⟨(Native.Handle.split s.handle.pending).1.length, by simp [some]⟩

theorem ingest_of_not_falters {r : Record} (read : r ∈ s.handle.readPending.1)
    (steady : ¬ s.Falters disk) :
    (s.ingest disk now observed).1 =
      if disk.isDir s.root then .ok (s.changes disk s.absorbed).1.length
      else .error (.error (.rootRemoved s.root)) := by
  unfold Falters at steady
  rw [not_or, not_exists, not_exists] at steady
  obtain ⟨calm, clean⟩ := steady
  have told : (s.changes disk s.absorbed).2 = none := Option.eq_none_iff_forall_ne_some.mpr calm
  obtain ⟨n, well⟩ | ⟨e, ended⟩ := readPending_of_mem read
  · rw [ingest_answer, told, well]
    rfl
  · exact absurd ended (clean e)

theorem ingest_of_falters (falters : s.Falters disk) :
    ∃ fault, (s.ingest disk now observed).1 = .error fault := by
  rw [ingest_answer]
  cases untold : (s.changes disk s.absorbed).2 with
  | some p => exact ⟨_, rfl⟩
  | none =>
    rcases falters with ⟨p, hp⟩ | ⟨e, ended⟩
    · rw [untold] at hp
      cases hp
    · rw [ended]
      exact ⟨_, rfl⟩

/-- **What comes of a lost root.** The change that tells of it is not taken in. The read that comes upon
it fails exactly if the root is not a directory at that time or if it would have failed anyway;
otherwise it answers how many other changes there were, and the session stays attached. -/
theorem loss_surfaced_iff (s : Session) (disk : Disk) (now observed : Moment) {r : Record}
    (read : r ∈ s.handle.readPending.1) (loss : s.TellsOfLoss disk r) :
    let result := (s.ingest disk now observed).1
    let after := (s.ingest disk now observed).2
    (∃ change ∈ r.changes disk, s.Uproots change ∧ change ∉ (s.changes disk s.absorbed).1) ∧
    ((∃ fault, result = .error fault) ↔ disk.isDir s.root = false ∨ s.Falters disk) ∧
    (¬ s.Falters disk → result =
      if disk.isDir s.root then .ok (s.changes disk s.absorbed).1.length
      else .error (.error (.rootRemoved s.root))) ∧
    after.isClosed = s.isClosed ∧ after.handle.connected = s.handle.connected := by
  intro result after
  have answer : ¬ s.Falters disk → result =
      if disk.isDir s.root then .ok (s.changes disk s.absorbed).1.length
      else .error (.error (.rootRemoved s.root)) := ingest_of_not_falters read
  refine ⟨?_, ?_, answer, ingest_attached⟩
  · obtain ⟨_, change, told, uproots⟩ := loss
    refine ⟨change, told, uproots, fun taken => ?_⟩
    obtain ⟨record, _, brings⟩ := mem_changes taken
    exact (within_of_brought brings).2 uproots
  · by_cases falters : s.Falters disk
    · exact ⟨fun _ => .inr falters, fun _ => ingest_of_falters falters⟩
    · rw [answer falters]
      cases disk.isDir s.root <;> simp [falters]

theorem loss_surfaced :
    let disk : Disk := ⟨.ok, fun _ => false, fun _ => false, fun _ => .error .noEntry⟩
    let root : Path := ⟨[0x2F, 0x72]⟩
    let file : Path := ⟨[0x2F, 0x72, 0x2F, 0x61]⟩
    let record : Record := ⟨.remove, [file, root], false⟩
    let s : Session := ⟨root, true, .zero, none, (Native.Handle.make root 0 true).send (.record record),
      .empty, none, []⟩
    record ∈ s.handle.readPending.1 ∧ s.TellsOfLoss disk record ∧
    (s.ingest disk .origin .origin).1 = .error (.error (.rootRemoved root)) := by
  intro disk root file record s
  have read : record ∈ s.handle.readPending.1 := List.mem_singleton_self record
  have loss : s.TellsOfLoss disk record :=
    ⟨rfl, (root, .removed), by decide, Path.Same.refl root, rfl⟩
  have steady : ¬ s.Falters disk := by
    rintro (⟨p, untold⟩ | ⟨e, ended⟩)
    · have told : (s.changes disk s.absorbed).2 = none := by decide
      rw [told] at untold
      cases untold
    · cases ended
  exact ⟨read, loss, (loss_surfaced_iff s disk .origin .origin read loss).2.2.1 steady⟩

/-- The root is removed and made again before the read, which goes well and has heard of nothing. -/
theorem loss_passed_over :
    let disk : Disk := ⟨.ok, fun _ => true, fun _ => true, fun _ => .ok []⟩
    let root : Path := ⟨[0x2F, 0x72]⟩
    let record : Record := ⟨.remove, [root], false⟩
    let s : Session := ⟨root, true, .zero, none, (Native.Handle.make root 0 true).send (.record record),
      .empty, none, []⟩
    record ∈ s.handle.readPending.1 ∧ (root, .removed) ∈ record.changes disk ∧
    s.Uproots (root, .removed) ∧
    (s.ingest disk .origin .origin).1 = .ok 0 ∧
    (s.ingest disk .origin .origin).2.batch.events = [] := by
  intro disk root record s
  exact ⟨List.mem_singleton_self record, by decide, ⟨Path.Same.refl root, rfl⟩, by rfl, by rfl⟩

end DirectoryWatch.Session
