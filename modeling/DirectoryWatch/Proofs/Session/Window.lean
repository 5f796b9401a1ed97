import DirectoryWatch.Proofs.Session.Course
import DirectoryWatch.Proofs.Session.DueTime

/-!
# The window of a session

What a window holds, and when it was opened, can be told from the ledger. A read that panics still
records what comes before the panic, but the window is opened by a later one then.
-/

namespace DirectoryWatch.Session

open Native (Handle)

/-- What was recorded in a window, and when it was opened. -/
structure Window where
  changes : List Event
  opened : Option Moment

namespace Window

def closed : Window := ⟨[], none⟩

/-- With what a read records. The window is opened when the first read began that did not panic and
after which something was recorded. -/
def read (s : Session) (w : Window) (r : Read) : Window :=
  let changes := w.changes ++ r.reading.changes s
  match r.result with
  | .error (.panic _) => { w with changes }
  | .error (.error _) | .ok _ => ⟨changes, w.opened <|> if changes = [] then none else some r.began⟩

/-- With one more entry of the ledger. -/
def enter (s : Session) (w : Window) : Entry → Window
  | .read r => w.read s r
  | .taken _ => closed

/-- The window since a batch was last taken. -/
def ofLedger (s : Session) (ledger : List Entry) : Window := ledger.foldl (enter s) closed

/-- What the window has come to; nothing if its changes undid each other. -/
def content (w : Window) : List Event := Coalescer.batchOf w.changes

/-- The latency has passed since the window was opened. -/
def IsOver (w : Window) (latency : Duration) (now : Moment) : Prop :=
  ∃ opened, w.opened = some opened ∧ opened.nanoseconds + latency.nanoseconds ≤ now.nanoseconds

end Window

/-! ## The invariant -/

/-- A session that was once `s₀` holds a window. -/
structure Holds (s₀ s : Session) (w : Window) : Prop where
  setup : s.setup = s₀.setup
  unabsorbed : s.unabsorbed = []
  batch : s.batch = Coalescer.empty.recordAll w.changes
  opened : s.opened = w.opened

variable {s₀ s : Session} {w : Window}

theorem Fresh.holds (fresh : s.Fresh) : Holds s s .closed :=
  ⟨rfl, fresh.unabsorbed, fresh.batch, fresh.opened⟩

theorem Holds.events (h : Holds s₀ s w) : s.batch.events = w.content := by
  rw [h.batch, Coalescer.events_recordAll_empty, Window.content]

theorem Holds.latency (h : Holds s₀ s w) : s.latency = s₀.latency := by
  have same := h.setup
  simp only [Session.setup, Prod.mk.injEq] at same
  exact same.2.2.1

theorem Holds.ingest (h : Holds s₀ s w) (disk : Disk) (now observed : Moment) :
    Holds s₀ (s.ingest disk now observed).2
      (w.read s₀ ⟨now, s.reading disk observed, (s.ingest disk now observed).1⟩) := by
  have changes : (s.reading disk observed).changes s = (s.reading disk observed).changes s₀ := by
    unfold Reading.changes
    rw [changes_congr h.setup]
  have batch : (s.ingest disk now observed).2.batch =
      Coalescer.empty.recordAll (w.changes ++ (s.reading disk observed).changes s₀) := by
    rw [ingest_batch disk now observed h.unabsorbed, h.batch, changes]
    simp [Coalescer.recordAll]
  have setup := (ingest_setup disk now observed).trans h.setup
  have unabsorbed := s.ingest_unabsorbed disk now observed
  cases told : (s.changes disk (Handle.split s.handle.pending).1).2 with
  | some p =>
    have panics : (s.ingest disk now observed).1 = .error (.panic p) :=
      (ingest_eq_error_iff disk now observed h.unabsorbed _).mpr (.panic told)
    have opened : (s.ingest disk now observed).2.opened = s.opened := by
      unfold Session.ingest
      simp only [Handle.readPending, h.unabsorbed, List.nil_append, told]
    rw [panics]
    exact ⟨setup, unabsorbed, batch, opened.trans h.opened⟩
  | none =>
    have opened := ingest_opened disk now observed h.unabsorbed told
    rw [batch, h.opened, Coalescer.isUntouched_recordAll_empty] at opened
    have untouched : (w.changes ++ (s.reading disk observed).changes s₀).isEmpty = true ↔
        w.changes ++ (s.reading disk observed).changes s₀ = [] := List.isEmpty_iff
    simp only [untouched] at opened
    cases result : (s.ingest disk now observed).1 with
    | ok n => exact ⟨setup, unabsorbed, batch, opened⟩
    | error fault =>
      cases fault with
      | error e => exact ⟨setup, unabsorbed, batch, opened⟩
      | panic p =>
        cases (ingest_eq_error_iff disk now observed h.unabsorbed _).mp result with
        | panic untold =>
          rw [told] at untold
          cases untold

theorem Holds.takeBatch (h : Holds s₀ s w) : Holds s₀ s.takeBatch.2 .closed :=
  ⟨h.setup, h.unabsorbed, rfl, rfl⟩

theorem Holds.after (h : Holds s₀ s w) (x : Happening) :
    Holds s₀ (s.after x) ((s.entries x).foldl (Window.enter s₀) w) := by
  cases x with
  | ingest disk now observed => exact h.ingest disk now observed
  | takeDue now =>
    unfold Session.after entries
    rcases s.takeDue_cases now with kept | taken
    · simpa [kept] using h
    · simpa [taken, Window.enter] using h.takeBatch
  | takeBatch => exact h.takeBatch
  | sent message =>
    exact ⟨(setup_deliver s message).trans h.setup, h.unabsorbed, h.batch, h.opened⟩
  | severed | closed => exact ⟨h.setup, h.unabsorbed, h.batch, h.opened⟩

theorem Holds.run (h : Holds s₀ s w) (course : List Happening) :
    Holds s₀ (s.run course) ((s.ledger course).foldl (Window.enter s₀) w) := by
  induction course generalizing s w with
  | nil => exact h
  | cons x rest ih =>
    rw [ledger_cons, List.foldl_append]
    exact ih (h.after x)

/-- The window of a session after a course. -/
def windowAfter (s : Session) (course : List Happening) : Window := .ofLedger s (s.ledger course)

theorem Fresh.holds_after (fresh : s.Fresh) (course : List Happening) :
    Holds s (s.run course) (s.windowAfter course) :=
  fresh.holds.run course

/-! ## Taking it -/

theorem Holds.takeDue_of_isOver (h : Holds s₀ s w) {now : Moment} (due : w.IsOver s₀.latency now) :
    s.takeDue now = (some w.content, s.takeBatch.2) := by
  obtain ⟨opened, there, due⟩ := due
  rw [takeDue_of_opened (h.opened.trans there), h.latency, if_pos due, takeBatch_fst, h.events]

theorem Holds.takeDue_of_not_isOver (h : Holds s₀ s w) {now : Moment}
    (early : ¬ w.IsOver s₀.latency now) : s.takeDue now = (none, s) := by
  cases there : w.opened with
  | none => exact takeDue_of_closed (h.opened.trans there) now
  | some opened =>
    rw [takeDue_of_opened (h.opened.trans there), h.latency, if_neg]
    exact fun due => early ⟨opened, there, due⟩

theorem Holds.isOver_of_takeDue (h : Holds s₀ s w) {now : Moment} {batch : List Event}
    (due : (s.takeDue now).1 = some batch) : w.IsOver s₀.latency now ∧ batch = w.content := by
  by_cases isOver : w.IsOver s₀.latency now
  · rw [h.takeDue_of_isOver isOver] at due
    exact ⟨isOver, (Option.some.inj due).symm⟩
  · rw [h.takeDue_of_not_isOver isOver] at due
    cases due

end DirectoryWatch.Session
