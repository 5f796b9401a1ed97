import DirectoryWatch.Proofs.Session.Intake
import DirectoryWatch.Proofs.Session.RootLoss
import DirectoryWatch.Proofs.Session.Scope
import DirectoryWatch.Proofs.Trace

/-!
# Where reads begin and end

How many records a read finds depends on when the session was woken. Each record is taken in by one
read and leaves nothing to the next, so which read that was makes no difference to the batch, nor to
how many changes the reads counted together.
-/

namespace DirectoryWatch.Session

open Native (Message)

variable {s s₀ : Session}

/-! ## Every record in one read -/

/-- The message that comes to a session. -/
def arrival (s : Session) : Happening → List Message
  | .sent message => if s.handle.connected then [message] else []
  | .ingest .. | .takeDue _ | .takeBatch | .severed | .closed => []

def arrivals (s : Session) (course : List Happening) : List Message := noted after arrival s course

theorem unabsorbed_after (settled : s.unabsorbed = []) (x : Happening) :
    (s.after x).unabsorbed = [] := by
  cases x with
  | ingest disk now observed => exact ingest_unabsorbed disk now observed
  | takeDue now => rcases s.takeDue_cases now with kept | taken <;> simp [after, *, takeBatch]
  | takeBatch | sent | severed | closed => exact settled

theorem unabsorbed_run (settled : s.unabsorbed = []) (course : List Happening) :
    (s.run course).unabsorbed = [] := by
  induction course generalizing s with
  | nil => exact settled
  | cons x rest ih => exact ih (unabsorbed_after settled x)

theorem ok_of_faultless {disk : Disk} {now observed : Moment}
    (well : faults (s.entries (.ingest disk now observed)) = []) :
    ∃ n, (s.ingest disk now observed).1 = .ok n := by
  cases result : (s.ingest disk now observed).1 with
  | ok n => exact ⟨n, rfl⟩
  | error fault => simp [faults, entries, Entry.fault?, result] at well

theorem received_after (settled : s.unabsorbed = []) (x : Happening) (well : faults (s.entries x) = []) :
    s.handle.pending ++ s.arrival x =
      (intake (s.entries x)).map (fun i => .record i.record) ++ (s.after x).handle.pending := by
  cases x with
  | ingest disk now observed =>
    obtain ⟨n, ok⟩ := ok_of_faultless well
    have whole := (whole_of_ingest_ok disk now observed settled ok).1
    have read : intake (s.entries (.ingest disk now observed)) = (s.reading disk observed).intake := by
      simp [intake, readings, entries, Entry.deed, Worker.Deed.reading?]
    rw [read, arrival, List.append_nil, messages_reading s disk observed, whole.messages, after,
      ingest_pending, Reading.intake, List.map_map]
    rfl
  | takeDue now =>
    rcases s.takeDue_cases now with kept | taken <;>
      simp [after, *, entries, arrival, intake, readings, Entry.deed, Worker.Deed.reading?, takeBatch]
  | takeBatch =>
    simp [entries, arrival, intake, readings, Entry.deed, Worker.Deed.reading?, after, takeBatch]
  | sent message =>
    simp only [entries, arrival, intake, readings, after, deliver, Native.Handle.send]
    split <;> simp [*]
  | severed | closed => simp [entries, arrival, intake, readings, after, close, Native.Handle.close]

theorem received (settled : s.unabsorbed = []) {course : List Happening}
    (well : faults (s.ledger course) = []) :
    s.handle.pending ++ s.arrivals course =
      (intake (s.ledger course)).map (fun i => .record i.record) ++ (s.run course).handle.pending := by
  induction course generalizing s with
  | nil => simp [arrivals, noted, ledger, intake, readings, run]
  | cons x rest ih =>
    simp only [ledger_cons, faults, List.filterMap_append, List.append_eq_nil_iff] at well
    have later := ih (unabsorbed_after settled x) well.2
    rw [arrivals, noted, ← List.append_assoc, received_after settled x well.1, List.append_assoc,
      ← arrivals, later, ledger_cons, intake_append, List.map_append, List.append_assoc]
    rfl

/-! ## Counts -/

def Entry.count : Entry → Nat
  | .read ⟨_, _, .ok n⟩ => n
  | .read ⟨_, _, .error _⟩ | .taken _ => 0

/-- How many changes the reads answered that they took in. -/
def counted : List Entry → Nat
  | [] => 0
  | entry :: rest => entry.count + counted rest

theorem counted_of_faultless {entries : List Entry} (well : faults entries = [])
    (each : ∀ began reading n, .read ⟨began, reading, .ok n⟩ ∈ entries → s.Counted reading n) :
    counted entries = (s.broughtBy (intake entries)).length := by
  induction entries with
  | nil => rfl
  | cons entry rest ih =>
    rw [faults, List.filterMap_cons] at well
    have later {began : Moment} {reading : Reading} {n : Nat}
        (there : .read ⟨began, reading, .ok n⟩ ∈ rest) : s.Counted reading n :=
      each began reading n (List.mem_cons_of_mem entry there)
    cases entry with
    | taken batch =>
      have none : counted (.taken batch :: rest) = counted rest := by simp [counted, Entry.count]
      rw [none]
      exact ih well fun _ _ _ => later
    | read r =>
      obtain ⟨began, reading, result⟩ := r
      cases result with
      | error fault => simp [Entry.fault?] at well
      | ok n =>
        have one : n = (s.broughtBy reading.intake).length := by
          rw [(each began reading n List.mem_cons_self).count, broughtBy, Reading.intake, List.flatMap_map]
        have first : counted (.read ⟨began, reading, .ok n⟩ :: rest) = n + counted rest := by
          simp [counted, Entry.count]
        have read : intake (.read ⟨began, reading, .ok n⟩ :: rest) = reading.intake ++ intake rest := by
          simp [intake, readings, Entry.deed, Worker.Deed.reading?]
        rw [first, read, ih well fun _ _ _ => later, one, broughtBy, broughtBy, broughtBy,
          List.flatMap_append, List.length_append]

/-! ## Any way to read -/

/-- **Read boundaries.** Whatever happened to a session before, if the same records are read from then
on in two ways, with the same answers of the disk about each, all reads go well and no batch is
taken, then both batches tell of the same paths and kinds in the same order, and the reads count as
many changes together. After each read nothing is left to absorb; what came in was read in order and
once, or is pending; and what the reads count is what its records bring. -/
theorem read_boundaries (fresh : s.Fresh) (before : List Happening) {course other : List Happening}
    (well : faults ((s.run before).ledger course) = [])
    (otherWell : faults ((s.run before).ledger other) = [])
    (untaken : ∀ batch, .taken batch ∉ (s.run before).ledger course)
    (otherUntaken : ∀ batch, .taken batch ∉ (s.run before).ledger other)
    (same : (intake ((s.run before).ledger course)).map Intake.answered =
      (intake ((s.run before).ledger other)).map Intake.answered) :
    let t := s.run before
    (t.run course).batch.events.map Coalescer.told = (t.run other).batch.events.map Coalescer.told ∧
    counted (t.ledger course) = counted (t.ledger other) ∧
    ∀ more : List Happening, (t.run more).unabsorbed = [] ∧ (faults (t.ledger more) = [] →
      t.handle.pending ++ t.arrivals more =
        (intake (t.ledger more)).map (fun i => .record i.record) ++ (t.run more).handle.pending ∧
      counted (t.ledger more) = (s.broughtBy (intake (t.ledger more))).length) := by
  intro t
  obtain ⟨_, accounted⟩ := accounted_course (Worker.accounted_start fresh) before
  have settled : t.unabsorbed = [] := accounted.unabsorbed
  have count {more : List Happening} (well : faults (t.ledger more) = []) :
      counted (t.ledger more) = (s.broughtBy (intake (t.ledger more))).length :=
    counted_of_faultless well fun _ _ _ => counted_run accounted more
  refine ⟨?_, ?_, ?_⟩
  · rw [events_of_accounted accounted (by simp [well]) untaken,
      events_of_accounted accounted (by simp [otherWell]) otherUntaken]
    apply Coalescer.told_batchOf_congr
    rw [List.map_append, List.map_append, told_flatMap_changes, told_flatMap_changes,
      broughtBy_congr s same]
  · rw [count well, count otherWell, broughtBy_congr s same]
  · intro more
    exact ⟨unabsorbed_run settled more, fun well => ⟨received settled well, count well⟩⟩

/-- The changes of two files, after one of them was created, in one read and in four, of which one
finds nothing. In the first of the four the disk answers otherwise about a path that none tells of. -/
theorem read_boundaries_four :
    let root : Path := ⟨[0x2F, 0x72]⟩
    let a : Path := ⟨[0x2F, 0x72, 0x2F, 0x61]⟩
    let b : Path := ⟨[0x2F, 0x72, 0x2F, 0x62]⟩
    let disk (path : Path) : Disk :=
      ⟨.ok, fun _ => true, fun p => decide (p = b ∨ p = path), fun _ => .ok []⟩
    let s : Session := ⟨root, true, .zero, none, .make root 0 true, .empty, none, []⟩
    let later : Moment := ⟨1, ⟨0, by decide⟩⟩
    let read (now : Moment) : Happening := .ingest (disk b) now now
    let sent (kind : Native.RecordKind) (path : Path) : Happening := .sent (.record ⟨kind, [path], false⟩)
    let before := [sent .create a, read .origin]
    let first := [sent .modify a, sent .create b]
    let second := [sent .remove b]
    let third := [sent .remove a, sent (.rename .unknown) b, sent .create a]
    let course := first ++ second ++ third ++ [read later]
    let other := first ++ [.ingest (disk root) .origin .origin] ++ second ++
      [read later, read later] ++ third ++ [read later]
    let t := s.run before
    s.Fresh ∧ faults (t.ledger course) = [] ∧ faults (t.ledger other) = [] ∧
    (∀ batch, .taken batch ∉ t.ledger course) ∧ (∀ batch, .taken batch ∉ t.ledger other) ∧
    (intake (t.ledger course)).map Intake.answered = (intake (t.ledger other)).map Intake.answered ∧
    (t.run course).batch.events.map Coalescer.told = [(b, .renamedNew), (a, .created)] ∧
    (t.run other).batch.events.map Coalescer.told = [(b, .renamedNew), (a, .created)] ∧
    counted (t.ledger course) = 6 ∧ counted (t.ledger other) = 6 := by
  intro root a b disk s later read sent before first second third course other t
  have fresh : s.Fresh := ⟨rfl, rfl, rfl⟩
  have well : faults (t.ledger course) = [] := by decide +kernel
  have otherWell : faults (t.ledger other) = [] := by decide +kernel
  have untaken : ∀ batch, .taken batch ∉ t.ledger course := by
    simp [course, first, second, third, read, sent, ledger, noted, entries]
  have otherUntaken : ∀ batch, .taken batch ∉ t.ledger other := by
    simp [other, first, second, third, read, sent, ledger, noted, entries]
  have same :
      (intake (t.ledger course)).map Intake.answered = (intake (t.ledger other)).map Intake.answered := by
    decide +kernel
  have told : (t.run course).batch.events.map Coalescer.told = [(b, .renamedNew), (a, .created)] := by
    decide +kernel
  have count : counted (t.ledger course) = 6 := by decide +kernel
  obtain ⟨alike, total, _⟩ :=
    read_boundaries fresh before well otherWell untaken otherUntaken same
  exact ⟨fresh, well, otherWell, untaken, otherUntaken, same, told, alike ▸ told, count, total ▸ count⟩

end DirectoryWatch.Session
