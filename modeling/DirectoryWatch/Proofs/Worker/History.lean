import DirectoryWatch.Proofs.Session.Reading
import DirectoryWatch.Proofs.Trace
import DirectoryWatch.Service.Worker
import Mathlib.Data.List.Basic
import Mathlib.Data.List.Induction

/-!
# Histories of a worker

A history is what happens to a worker, in any order: steps of its own, messages that arrive, senders
that go away, a stop. A step works on one session at most, and what it does to that session is the
same wherever the session stands.
-/

namespace DirectoryWatch

open Native (Handle Message)

namespace Worker

/-- What a step does with the session it works on. -/
inductive Deed where
  | read (reading : Reading)
  | taken (batch : List Event)

namespace Deed

def reading? : Deed → Option Reading
  | read r => some r
  | taken _ => none

/-- What a deed puts into the queue. -/
def batch : Deed → List Event
  | read _ => []
  | taken batch => batch

end Deed

/-! ## Occurrences -/

inductive Occurrence where
  | step (around : Surroundings)
  /-- A message is sent to the handle of a ticket. -/
  | sent (ticket : Nat) (message : Message)
  /-- The sending side of a ticket goes away. -/
  | severed (ticket : Nat)
  | stop
  /-- A signal through which stop could be sent goes away. -/
  | signalLost

def undergo (w : Worker) : Occurrence → Worker × Effect
  | .step around => w.step around
  | .sent ticket message => (w.onHandle ticket fun h => h.send message, noEffect)
  | .severed ticket => (w.onHandle ticket Handle.disconnect, noEffect)
  | .stop => (w.stop, noEffect)
  | .signalLost => ({ w with waits := w.waits.dropSignal }, noEffect)

abbrev next (w : Worker) (o : Occurrence) : Worker := (w.undergo o).1

def run (w : Worker) (history : List Occurrence) : Worker := history.foldl next w

theorem run_append (w : Worker) (history more : List Occurrence) :
    w.run (history ++ more) = (w.run history).run more :=
  List.foldl_append

theorem run_snoc (w : Worker) (history : List Occurrence) (o : Occurrence) :
    w.run (history ++ [o]) = ((w.run history).undergo o).1 := by
  rw [run_append]
  rfl

/-! ## What a step works on -/

/-- The position of the session that a step in the phase works on. -/
def Phase.subject? : Phase → Option Nat
  | .reading position | .sweeping _ position | .draining position | .delivering _ position =>
    some position
  | .waiting | .timing | .exited => none

/-- A session after the step that works on it. -/
def worked (phase : Phase) (around : Surroundings) (s : Session) : Session :=
  match phase with
  | .reading _ | .draining _ => (s.ingest around.disk around.now around.observed).2
  | .sweeping now _ => (s.takeDue now).2
  | .delivering _ _ => s.takeBatch.2.close
  | .waiting | .timing | .exited => s

/-- What the step that works on a session does with it. -/
def deeds (phase : Phase) (around : Surroundings) (s : Session) : List Deed :=
  match phase with
  | .reading _ | .draining _ => [.read (s.reading around.disk around.observed)]
  | .sweeping now _ => (s.takeDue now).1.toList.map .taken
  | .delivering _ _ => [.taken s.takeBatch.1]
  | .waiting | .timing | .exited => []

theorem read_sessions (w : Worker) (s : Session) (position : Nat) (around : Surroundings) (next : Phase) :
    (w.read s position around next).sessions =
      w.sessions.set position (s.ingest around.disk around.now around.observed).2 := by
  unfold read
  split
  · simp_all [replace]
  · simp_all [replace, fail]

theorem step_sessions (w : Worker) (around : Surroundings) :
    (w.step around).1.sessions =
      match w.phase.subject? with
      | some i => w.sessions.modify i (worked w.phase around)
      | none => w.sessions := by
  unfold step
  cases hp : w.phase with
  | waiting | timing | exited => rfl
  | reading i | draining i =>
    simp only [Phase.subject?, List.modify_eq_set_getElem?]
    cases hs : w.sessions[i]? with
    | none => rfl
    | some s => exact read_sessions w s i around _
  | sweeping now i | delivering ending i =>
    simp only [Phase.subject?, List.modify_eq_set_getElem?]
    cases hs : w.sessions[i]? <;> rfl

theorem step_session (w : Worker) (around : Surroundings) (i : Nat) :
    (w.step around).1.sessions[i]? =
      if w.phase.subject? = some i then (w.sessions[i]?).map (worked w.phase around)
      else w.sessions[i]? := by
  rw [step_sessions]
  cases hs : w.phase.subject? with
  | none => rfl
  | some j =>
    rw [List.getElem?_modify]
    by_cases hj : j = i <;> simp [hj]

theorem length_run (w : Worker) (history : List Occurrence) :
    (w.run history).sessions.length = w.sessions.length := by
  induction history using List.reverseRecOn with
  | nil => rfl
  | append_singleton history o ih =>
    rw [run_snoc, ← ih]
    cases o with
    | step around =>
      rw [undergo, step_sessions]
      cases (w.run history).phase.subject? <;> simp
    | sent | severed => simp [undergo, onHandle]
    | stop | signalLost => rfl

theorem within_of_run {w : Worker} {history : List Occurrence} {i : Nat} {s : Session}
    (there : (w.run history).sessions[i]? = some s) : i < w.sessions.length := by
  rw [← length_run w history]
  exact (List.getElem?_eq_some_iff.mp there).1

theorem absent_run_iff (w : Worker) (history : List Occurrence) (i : Nat) :
    (w.run history).sessions[i]? = none ↔ w.sessions.length ≤ i := by
  rw [List.getElem?_eq_none_iff, length_run]

theorem step_pushed (w : Worker) (around : Surroundings) :
    (w.step around).2.pushed =
      ((w.phase.subject?.bind fun i => w.sessions[i]?).toList.flatMap
        (deeds w.phase around)).flatMap Deed.batch := by
  unfold step
  cases hp : w.phase with
  | waiting | timing | exited => rfl
  | reading i | draining i =>
    simp only [Phase.subject?, Option.bind_some]
    cases hs : w.sessions[i]? <;> rfl
  | sweeping now i =>
    simp only [Phase.subject?, Option.bind_some]
    cases hs : w.sessions[i]? with
    | none => rfl
    | some s =>
      cases hd : (s.takeDue now).1 <;> simp [hd, pushes, deeds, Deed.batch]
  | delivering ending i =>
    simp only [Phase.subject?, Option.bind_some]
    cases hs : w.sessions[i]? with
    | none => rfl
    | some s => simp [closes, deeds, Deed.batch]

/-! ## From phase to phase -/

/-- What a step can make of the phase, and whether the worker says how it ended. -/
inductive Move (w : Worker) (around : Surroundings) : Phase → Phase → Option Ending → Prop where
  | heeded : Move w around .waiting (afterWait (w.waits.heed around.report).1) none
  | read {i : Nat} {s : Session} {n : Nat} (there : w.sessions[i]? = some s)
      (well : (s.ingest around.disk around.now around.observed).1 = .ok n) :
      Move w around (.reading i) .timing none
  | readFailed {i : Nat} {s : Session} {fault : Fault} (there : w.sessions[i]? = some s)
      (ill : (s.ingest around.disk around.now around.observed).1 = .error fault) :
      Move w around (.reading i) (.delivering (.error fault.failure) 0) none
  | nothingToRead {i : Nat} (absent : w.sessions[i]? = none) :
      Move w around (.reading i)
        (.delivering (.error (Fault.panic (.indexOutOfBounds w.sessions.length i)).failure) 0) none
  | timed : Move w around .timing (.sweeping around.now 0) none
  | swept {now : Moment} {i : Nat} {s : Session} (there : w.sessions[i]? = some s) :
      Move w around (.sweeping now i) (.sweeping now (i + 1)) none
  | sweptAll {now : Moment} {i : Nat} (absent : w.sessions[i]? = none) :
      Move w around (.sweeping now i) .waiting none
  | drained {i : Nat} {s : Session} {n : Nat} (there : w.sessions[i]? = some s)
      (well : (s.ingest around.disk around.now around.observed).1 = .ok n) :
      Move w around (.draining i) (.draining (i + 1)) none
  | drainFailed {i : Nat} {s : Session} {fault : Fault} (there : w.sessions[i]? = some s)
      (ill : (s.ingest around.disk around.now around.observed).1 = .error fault) :
      Move w around (.draining i) (.delivering (.error fault.failure) 0) none
  | drainedAll {i : Nat} (absent : w.sessions[i]? = none) :
      Move w around (.draining i) (.delivering (.ok ()) 0) none
  | delivered {ending : Ending} {i : Nat} {s : Session} (there : w.sessions[i]? = some s) :
      Move w around (.delivering ending i) (.delivering ending (i + 1)) none
  | deliveredAll {ending : Ending} {i : Nat} (absent : w.sessions[i]? = none) :
      Move w around (.delivering ending i) .exited (some ending)
  | rests : Move w around .exited .exited none

theorem read_phase (w : Worker) (s : Session) (i : Nat) (around : Surroundings) (next : Phase) :
    (w.read s i around next).phase =
      match (s.ingest around.disk around.now around.observed).1 with
      | .ok _ => next
      | .error fault => .delivering (.error fault.failure) 0 := by
  unfold read
  split
  · simp_all
  · simp_all [fail]

theorem step_move (w : Worker) (around : Surroundings) :
    Move w around w.phase (w.step around).1.phase (w.step around).2.ended := by
  cases hp : w.phase with
  | waiting =>
    simp only [step, hp]
    exact .heeded
  | timing =>
    simp only [step, hp]
    exact .timed
  | exited =>
    rw [step_exited hp, hp]
    exact .rests
  | reading i =>
    cases hs : w.sessions[i]? with
    | none =>
      simp only [step, hp, hs]
      exact .nothingToRead hs
    | some s =>
      simp only [step, hp, hs, read_phase]
      cases hr : (s.ingest around.disk around.now around.observed).1 with
      | ok => exact .read hs hr
      | error => exact .readFailed hs hr
  | draining i =>
    cases hs : w.sessions[i]? with
    | none =>
      simp only [step, hp, hs]
      exact .drainedAll hs
    | some s =>
      simp only [step, hp, hs, read_phase]
      cases hr : (s.ingest around.disk around.now around.observed).1 with
      | ok => exact .drained hs hr
      | error => exact .drainFailed hs hr
  | sweeping now i =>
    cases hs : w.sessions[i]? with
    | none =>
      simp only [step, hp, hs]
      exact .sweptAll hs
    | some s =>
      simp only [step, hp, hs]
      exact .swept hs
  | delivering ending i =>
    cases hs : w.sessions[i]? with
    | none =>
      simp only [step, hp, hs]
      exact .deliveredAll hs
    | some s =>
      simp only [step, hp, hs]
      exact .delivered hs

theorem afterWait_ne_exited (outcome : Option Native.WaitSet.Outcome) :
    afterWait outcome ≠ .exited := by
  rcases outcome with _ | _ | _ | _ <;> simp [afterWait]

theorem Move.going {w : Worker} {around : Surroundings} {phase next : Phase} {ended : Option Ending}
    (move : Move w around phase next ended) (going : next ≠ .exited) :
    phase ≠ .exited ∧ ended = none := by
  cases move with
  | deliveredAll | rests => exact absurd rfl going
  | _ => exact ⟨by simp, rfl⟩

/-! ## Notes about one session -/

/-- What is done with the session at a position. -/
def deedsOf (i : Nat) (w : Worker) : Occurrence → List Deed
  | .step around =>
    if w.phase.subject? = some i then (w.sessions[i]?).elim [] (deeds w.phase around) else []
  | _ => []

/-- The message that comes to the session at a position. -/
def arrivalOf (i : Nat) (w : Worker) : Occurrence → List Message
  | .sent ticket message =>
    match w.sessions[i]? with
    | some s => if s.handle.ticket = ticket ∧ s.handle.connected = true then [message] else []
    | none => []
  | _ => []

/-- What is pushed for the session at a position. -/
def pushedOf (i : Nat) (w : Worker) (o : Occurrence) : List Event :=
  if w.phase.subject? = some i then (w.undergo o).2.pushed else []

/-- A batch that is pushed, with the position it is pushed for. -/
def pushOf (w : Worker) (o : Occurrence) : List (Option Nat × List Event) :=
  if (w.undergo o).2.pushed = [] then [] else [(w.phase.subject?, (w.undergo o).2.pushed)]

/-- How the worker ends. -/
def endingOf (w : Worker) (o : Occurrence) : List Ending := (w.undergo o).2.ended.toList

theorem pushedOf_eq_batch (i : Nat) (w : Worker) (o : Occurrence) :
    pushedOf i w o = (deedsOf i w o).flatMap Deed.batch := by
  unfold pushedOf deedsOf
  cases o with
  | step around =>
    by_cases hs : w.phase.subject? = some i
    · rw [if_pos hs]
      simp only [undergo, step_pushed, hs, Option.bind_some, if_true]
      cases w.sessions[i]? <;> simp
    · simp [hs]
  | sent | severed | stop | signalLost => simp [undergo, noEffect]

theorem deedsOf_of_other {i : Nat} {w : Worker} {o : Occurrence}
    (other : w.phase.subject? ≠ some i) : deedsOf i w o = [] := by
  cases o with
  | step around => exact if_neg other
  | sent | severed | stop | signalLost => rfl

theorem deedsOf_of_subject {i : Nat} {w : Worker} {s : Session} {around : Surroundings}
    (subject : w.phase.subject? = some i) (hs : w.sessions[i]? = some s) :
    deedsOf i w (.step around) = deeds w.phase around s := by
  rw [deedsOf, if_pos subject, hs, Option.elim]

theorem deedsOf_of_absent {k : Nat} {w : Worker} (subject : w.phase.subject? = some k)
    (absent : w.sessions[k]? = none) (i : Nat) (around : Surroundings) :
    deedsOf i w (.step around) = [] := by
  by_cases mine : k = i
  · subst mine
    rw [deedsOf, if_pos subject, absent, Option.elim]
  · exact deedsOf_of_other (by simpa [subject] using mine)

theorem endings_of_not_exited {w : Worker} {history : List Occurrence}
    (going : (w.run history).phase ≠ .exited) : noted next endingOf w history = [] := by
  induction history using List.reverseRecOn with
  | nil => rfl
  | append_singleton history o ih =>
    rw [run_snoc] at going
    rw [noted_snoc, ← run]
    cases o with
    | step around =>
      obtain ⟨before, none⟩ := (step_move (w.run history) around).going going
      rw [ih before, endingOf, undergo, none]
      rfl
    | sent | severed | stop | signalLost =>
      rw [ih going]
      rfl

end Worker

end DirectoryWatch
