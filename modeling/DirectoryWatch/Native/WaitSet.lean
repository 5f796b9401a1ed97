import DirectoryWatch.Clock
import DirectoryWatch.Native.Handle

/-!
# Waiting for handles and for a stop

A wait watches some handles, a stop signal and a deadline. A selector reports that one of them
came up (`WaitSet.Report`), and the wait looks at the stop signal itself before it believes the
report, so that stop wins over everything else. Stop is sticky: once seen, every later wait answers
it at once.
-/

namespace DirectoryWatch.Native

structure WaitSet where
  /-- A stop was sent and not yet looked at; more than one is no more than one. -/
  queued : Bool
  /-- Signals through which stop can still be sent. -/
  signals : Nat
  seen : Bool
  deriving DecidableEq, Repr

namespace WaitSet

/-- A wait set with one signal. -/
def start : WaitSet := ⟨false, 1, false⟩

/-! ## Signals -/

/-- Sends stop through a signal. -/
def stop (w : WaitSet) : WaitSet := if w.signals = 0 then w else { w with queued := true }

def cloneSignal (w : WaitSet) : WaitSet :=
  if w.signals = 0 then w else { w with signals := w.signals + 1 }

def dropSignal (w : WaitSet) : WaitSet := { w with signals := w.signals - 1 }

/-- Looking at the stop signal would tell of a stop. A lost signal counts as one. -/
def isRaised (w : WaitSet) : Bool := w.queued || w.signals = 0

/-- Looks at the stop signal, and takes what was sent. -/
def isStopped (w : WaitSet) : Bool × WaitSet :=
  if w.seen then (true, w)
  else if w.isRaised then (true, { w with queued := false, seen := true })
  else (false, w)

/-! ## Waits -/

/-- What a selector can report. It may report the stop signal though nothing was sent. -/
inductive Report where
  | stop
  | handle (position : Nat)
  | timeout
  deriving DecidableEq, Repr

inductive Outcome where
  /-- The handle at the position has messages, or has lost its sending side. -/
  | ready (position : Nat)
  | stopped
  | timedOut
  deriving DecidableEq, Repr

/-- What a wait makes of a report; without an outcome it goes on waiting. -/
def heed (w : WaitSet) (report : Report) : Option Outcome × WaitSet :=
  let (stopped, w) := w.isStopped
  if stopped then (some .stopped, w)
  else match report with
    | .stop => (none, w)
    | .handle position => (some (.ready position), w)
    | .timeout => (some .timedOut, w)

/-- The report is right about what the selector can see: a ready handle, or a deadline that has
passed with no handle ready. -/
def Truthful (w : WaitSet) (handles : List Handle) (deadline : Option Moment) (now : Moment) :
    Report → Prop
  | .stop => True
  | .handle position => ∃ h, handles[position]? = some h ∧ h.isReady = true
  | .timeout =>
    w.isRaised = false ∧ (∀ h ∈ handles, h.isReady = false) ∧ ∃ d, deadline = some d ∧ d ≤ now

/-! ## A selector -/

/-- The deadline, if there is one, has passed. -/
def isDue (deadline : Option Moment) (now : Moment) : Bool := deadline.any fun d => d ≤ now

/-- The report of a selector that looks at the stop signal first, then at the handles from the
first to the last, then at the clock; none while there is nothing to report. -/
def report? (w : WaitSet) (handles : List Handle) (deadline : Option Moment) (now : Moment) :
    Option Report :=
  if w.seen || w.isRaised then some .stop
  else match handles.findIdx? Handle.isReady with
    | some position => some (.handle position)
    | none => if isDue deadline now then some .timeout else none

theorem report?_truthful {w : WaitSet} {handles : List Handle} {deadline : Option Moment}
    {now : Moment} {report : Report} (h : w.report? handles deadline now = some report) :
    w.Truthful handles deadline now report := by
  unfold report? at h
  split at h
  · cases h
    trivial
  · rename_i quiet
    split at h
    · rename_i position found
      cases h
      obtain ⟨inside, ready, _⟩ := List.findIdx?_eq_some_iff_getElem.1 found
      exact ⟨_, List.getElem?_eq_getElem inside, ready⟩
    · rename_i found
      split at h
      · rename_i due
        cases h
        refine ⟨by simp at quiet; exact quiet.2, List.findIdx?_eq_none_iff.1 found, ?_⟩
        cases deadline with
        | none => simp [isDue] at due
        | some d => exact ⟨d, rfl, by simpa [isDue] using due⟩
      · cases h

end WaitSet

end DirectoryWatch.Native
