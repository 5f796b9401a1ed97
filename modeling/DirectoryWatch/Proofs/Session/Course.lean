import DirectoryWatch.Proofs.Session.Admission
import DirectoryWatch.Proofs.Trace
import DirectoryWatch.Proofs.Worker.Windows

/-!
# The course of a session

A course is what happens to one session, in any order: its owner reads it and takes its batch, due
or not, and closes it; messages are sent to its handle, and the sending side goes away. The ledger
keeps each read, with its result, and each batch that was given out.
-/

namespace DirectoryWatch.Session

open Native (Message)

inductive Happening where
  | ingest (disk : Disk) (now observed : Moment)
  | takeDue (now : Moment)
  | takeBatch
  | sent (message : Message)
  /-- The sending side of the handle goes away. -/
  | severed
  | closed

def after (s : Session) : Happening → Session
  | .ingest disk now observed => (s.ingest disk now observed).2
  | .takeDue now => (s.takeDue now).2
  | .takeBatch => s.takeBatch.2
  | .sent message => s.deliver message
  | .severed => { s with handle := s.handle.disconnect }
  | .closed => s.close

def run (s : Session) (course : List Happening) : Session := course.foldl after s

/-- A read, the clock when it began, and how it ended. -/
structure Read where
  began : Moment
  reading : Reading
  result : Except Fault Nat

inductive Entry where
  | read (read : Read)
  | taken (batch : List Event)

def entries (s : Session) : Happening → List Entry
  | .ingest disk now observed =>
    [.read ⟨now, s.reading disk observed, (s.ingest disk now observed).1⟩]
  | .takeDue now => (s.takeDue now).1.toList.map .taken
  | .takeBatch => [.taken s.takeBatch.1]
  | .sent _ | .severed | .closed => []

def Entry.fault? : Entry → Option Fault
  | .read ⟨_, _, .error fault⟩ => some fault
  | .read ⟨_, _, .ok _⟩ | .taken _ => none

/-- How the reads that failed ended. -/
def faults (entries : List Entry) : List Fault := entries.filterMap Entry.fault?

theorem mem_faults_ingest {s : Session} {disk : Disk} {now observed : Moment} {fault : Fault} :
    fault ∈ faults (s.entries (.ingest disk now observed)) ↔
      (s.ingest disk now observed).1 = .error fault := by
  unfold faults entries
  cases result : (s.ingest disk now observed).1 with
  | ok n => simp [result, Entry.fault?]
  | error found => simp [result, Entry.fault?, eq_comm]

def ledger (s : Session) (course : List Happening) : List Entry := noted after entries s course

theorem ledger_cons (s : Session) (x : Happening) (rest : List Happening) :
    s.ledger (x :: rest) = s.entries x ++ (s.after x).ledger rest := rfl

theorem ledger_append (s : Session) (course more : List Happening) :
    s.ledger (course ++ more) = s.ledger course ++ (s.run course).ledger more :=
  noted_append course more

theorem taken_mem_entries {s : Session} {x : Happening} {batch : List Event}
    (h : .taken batch ∈ s.entries x) : batch = s.batch.events ∧ s.entries x = [.taken batch] := by
  unfold entries at h ⊢
  cases x with
  | ingest disk now observed => simp at h
  | takeDue now =>
    rcases s.takeDue_cases now with kept | taken
    · simp [kept] at h
    · obtain rfl : batch = s.takeBatch.1 := by simpa [taken] using h
      exact ⟨s.takeBatch_fst, by simp [taken]⟩
  | takeBatch =>
    obtain rfl : batch = s.takeBatch.1 := by simpa using h
    exact ⟨s.takeBatch_fst, rfl⟩
  | sent | severed | closed => simp at h

/-! ## The ledger accounts for the batches -/

def Entry.deed : Entry → Worker.Deed
  | .read r => .read r.reading
  | .taken batch => .taken batch

variable {s₀ s : Session} {arrived : List Message} {deeds : List Worker.Deed}

theorem accounted_after (h : Worker.Accounted s₀ s arrived deeds) (x : Happening) :
    ∃ all, Worker.Accounted s₀ (s.after x) all (deeds ++ (s.entries x).map Entry.deed) := by
  have quiet : deeds ++ ([] : List Entry).map Entry.deed = deeds := List.append_nil deeds
  cases x with
  | ingest disk now observed => exact ⟨arrived, Worker.accounted_ingest h disk now observed⟩
  | takeDue now =>
    refine ⟨arrived, ?_⟩
    unfold after entries
    rcases s.takeDue_cases now with kept | taken
    · simpa [kept] using h
    · simpa [taken, Entry.deed] using Worker.accounted_takeBatch h
  | takeBatch => exact ⟨arrived, Worker.accounted_takeBatch h⟩
  | sent message =>
    rw [entries, quiet]
    exact ⟨_, Worker.accounted_send h message⟩
  | severed =>
    rw [entries, quiet]
    exact ⟨arrived, Worker.accounted_disconnect h⟩
  | closed =>
    rw [entries, quiet]
    exact ⟨arrived, Worker.accounted_close h⟩

theorem accounted_course (h : Worker.Accounted s₀ s arrived deeds) (course : List Happening) :
    ∃ all, Worker.Accounted s₀ (s.run course) all (deeds ++ (s.ledger course).map Entry.deed) := by
  induction course generalizing s arrived deeds with
  | nil =>
    rw [ledger, noted, List.map_nil, List.append_nil]
    exact ⟨arrived, h⟩
  | cons x rest ih =>
    obtain ⟨_, next⟩ := accounted_after h x
    rw [ledger_cons, List.map_append, ← List.append_assoc]
    exact ih next

end DirectoryWatch.Session
