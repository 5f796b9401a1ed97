import DirectoryWatch.Proofs.Worker.Conservation
import DirectoryWatch.Proofs.Worker.Failure

/-!
# A worker at its end

What panics in the loop of a worker is caught, and once at most: from then on the worker only delivers.
Its life is one history from its start, or two with the panic between them. However it comes to its
end, by then every session has given up its batch and is closed.
-/

namespace DirectoryWatch

open Native (Handle)

namespace Worker

/-! ## Histories that a panic breaks -/

/-- Where the last history of a worker begins: at its start, or at a panic that it caught after another
history. -/
inductive Outset where
  | started (sessions : List Session)
  | caught (sessions : List Session) (before : List Occurrence) (left : List Session) (text : String)
    (possible : ((start sessions).run before).MayLeave left)

namespace Outset

/-- The sessions with which the worker was started. -/
def sessions : Outset → List Session
  | started sessions | caught sessions _ _ _ _ => sessions

/-- The history up to the panic. -/
def before : Outset → List Occurrence
  | started _ => []
  | caught _ before _ _ _ => before

def worker : Outset → Worker
  | started sessions => start sessions
  | caught sessions before left text _ => ((start sessions).run before).panicked left text

/-- What is noted along the whole life of the worker. -/
def along {Note : Type} (outset : Outset) (note : Worker → Occurrence → List Note)
    (history : List Occurrence) : List Note :=
  noted next note (start outset.sessions) outset.before ++ noted next note outset.worker history

@[simp] theorem along_started {Note : Type} (sessions : List Session)
    (note : Worker → Occurrence → List Note) (history : List Occurrence) :
    (started sessions).along note history = noted next note (start sessions) history := rfl

@[simp] theorem along_caught {Note : Type} {sessions : List Session} {before : List Occurrence}
    {left : List Session} {text : String} (possible : ((start sessions).run before).MayLeave left)
    (note : Worker → Occurrence → List Note) (history : List Occurrence) :
    (caught sessions before left text possible).along note history =
      noted next note (start sessions) before ++
        noted next note (((start sessions).run before).panicked left text) history := rfl

theorem along_append {Note : Type} (outset : Outset) (note : Worker → Occurrence → List Note)
    (history more : List Occurrence) :
    outset.along note (history ++ more) =
      outset.along note history ++ noted next note (outset.worker.run history) more := by
  rw [along, noted_append, ← run, ← List.append_assoc, ← along]

end Outset

variable {w w₀ : Worker} {sessions : List Session} {history after : List Occurrence}

theorem open_of_looping (looping : w.isLooping = true) : ¬ w.phase.Closing := by
  unfold isLooping at looping
  cases phase : w.phase <;> simp [phase, Phase.Closing] at looping ⊢

theorem panicked_of_mayLeave {left : List Session} (possible : w.MayLeave left) (text : String) :
    w.panicked left text =
      { w with sessions := left, phase := .delivering (.error (.workerPanicked text)) 0 } := by
  rw [panicked, if_pos possible, fail]

theorem Outset.closing_of_caught {before : List Occurrence} {left : List Session}
    (possible : ((start sessions).run before).MayLeave left) (text : String) :
    (caught sessions before left text possible).worker.phase.Closing := by
  rw [worker, panicked_of_mayLeave possible]
  trivial

theorem closing_run (closing : w.phase.Closing) (history : List Occurrence) :
    (w.run history).phase.Closing := by
  induction history using List.reverseRecOn with
  | nil => exact closing
  | append_singleton history o ih =>
    rw [run_snoc]
    exact closing_undergo ih o

theorem Outset.started_of_looping {outset : Outset}
    (looping : (outset.worker.run history).isLooping = true) : ∃ sessions, outset = .started sessions := by
  cases outset with
  | started sessions => exact ⟨sessions, rfl⟩
  | caught _ _ _ text possible =>
    have closing := closing_run (closing_of_caught possible text) history
    exact absurd closing (open_of_looping looping)

/-! ## Before the delivery and after it -/

theorem closed_of_open (open_ : ¬ w.phase.Closing) (o : Occurrence) : closedOf w o = [] := by
  cases o with
  | sent | severed | stop | signalLost => rfl
  | step around =>
    unfold closedOf undergo step
    cases phase : w.phase with
    | waiting | timing => rfl
    | reading i | draining i | sweeping now i =>
      cases there : w.sessions[i]? <;> simp [there, noEffect, pushes]
    | delivering | exited => simp [phase, Phase.Closing] at open_

theorem unclosed_of_open (open_ : ¬ (w₀.run history).phase.Closing) :
    noted next closedOf w₀ history = [] := by
  induction history using List.reverseRecOn with
  | nil => rfl
  | append_singleton history o ih =>
    rw [run_snoc] at open_
    have before : ¬ (w₀.run history).phase.Closing := fun h => open_ (closing_undergo h o)
    rw [noted_snoc, ← run, ih before, closed_of_open before, List.append_nil]

theorem unended_of_open (open_ : ¬ (w₀.run history).phase.Closing) :
    noted next endingOf w₀ history = [] :=
  endings_of_not_exited fun exited => open_ (by rw [exited]; trivial)

theorem tickets_run (fresh : ∀ s ∈ w₀.sessions, s.Fresh) (history : List Occurrence) :
    ((w₀.run history).sessions.map fun s => s.handle.ticket) =
      w₀.sessions.map fun s => s.handle.ticket := by
  apply List.ext_getElem?
  intro i
  rw [List.getElem?_map, List.getElem?_map]
  cases hs : w₀.sessions[i]? with
  | none =>
    rw [(absent_run_iff w₀ history i).mpr (List.getElem?_eq_none_iff.mp hs)]
  | some s₀ =>
    obtain ⟨s, there, accounted⟩ := accounted_run hs (fresh s₀ (List.mem_of_getElem? hs)) history
    have setup := accounted.setup
    simp only [Session.setup, Prod.mk.injEq] at setup
    rw [there, Option.map_some, Option.map_some, setup.2.2.2.2]

theorem exited_idle (exited : w.phase = .exited) (o : Occurrence) :
    Idle w o ∧ (w.undergo o).1.phase = .exited := by
  cases o with
  | step around => exact ⟨idle_exited exited around, by rw [undergo, step_exited exited, exited]⟩
  | sent | severed | stop | signalLost => exact ⟨idle_outside w (by simp), exited⟩

theorem noted_output_of_exited (exited : w.phase = .exited) (history : List Occurrence) :
    noted next outputOf w history = [] := by
  induction history generalizing w with
  | nil => rfl
  | cons o rest ih =>
    obtain ⟨idle, still⟩ := exited_idle exited o
    rw [noted, idle.output, ih still, List.append_nil]

theorem Given.empty (h : Given w after w.sessions.length) :
    ∀ s ∈ (w.run after).sessions, s.batch = .empty ∧ s.isClosed = true := by
  intro t ht
  obtain ⟨i, hi⟩ := List.getElem?_of_mem ht
  have within := within_of_run hi
  obtain ⟨u, hu, held⟩ := h.sessions i _ (List.getElem?_eq_getElem within)
  obtain rfl : t = u := Option.some.inj (hi.symm.trans hu)
  simp only [if_pos within, Session.held, Prod.mk.injEq] at held
  exact ⟨held.1, held.2.1⟩

theorem Given.pushed (h : Given w after w.sessions.length) {i : Nat} {s : Session}
    (there : w.sessions[i]? = some s) : noted next (pushedOf i) w after = s.batch.events := by
  rw [noted_pushedOf, h.deeds i s there, if_pos (List.getElem?_eq_some_iff.mp there).1]
  simp [Deed.batch]

/-! ## The end -/

/-- All that was read lies in windows whose batches were put into the queue. A panic leaves each session
with the batch that then is the last. -/
def Outset.Flushed (outset : Outset) (history : List Occurrence) : Prop :=
  match outset with
  | .started sessions => ∀ i s, sessions[i]? = some s → ∃ windows : List (List Reading),
    noted next (deedsOf i) (start sessions) history = windows.flatMap (window s) ∧
    noted next (pushedOf i) (start sessions) history = windows.flatMap (coalesced s)
  | .caught sessions before left _ _ =>
    (∀ i s, sessions[i]? = some s → ∃ (windows : List (List Reading)) (opened : List Reading),
      noted next (deedsOf i) (start sessions) before =
        windows.flatMap (window s) ++ opened.map .read ∧
      noted next (pushedOf i) (start sessions) before = windows.flatMap (coalesced s)) ∧
    ∀ i t, left[i]? = some t → noted next (pushedOf i) outset.worker history = t.batch.events

/-- A worker that has handed over everything. -/
structure Settled (outset : Outset) (history : List Occurrence) : Prop where
  empty : ∀ s ∈ (outset.worker.run history).sessions, s.batch = .empty ∧ s.isClosed = true
  /-- Each handle with which the worker was started was closed once. -/
  closed : (outset.along closedOf history).map Handle.ticket =
    outset.sessions.map fun s => s.handle.ticket
  flushed : outset.Flushed history
  nothing : ∀ more, outset.along outputOf (history ++ more) = outset.along outputOf history

theorem nothing_of_exited (outset : Outset) (exited : (outset.worker.run history).phase = .exited)
    (more : List Occurrence) :
    outset.along outputOf (history ++ more) = outset.along outputOf history := by
  rw [Outset.along_append, noted_output_of_exited exited, List.append_nil]

theorem pushed_of_accounted {s₀ s : Session} {arrived : List Native.Message} {i : Nat}
    (h : Accounted s₀ s arrived (noted next (deedsOf i) w history)) :
    ∃ (windows : List (List Reading)) (opened : List Reading),
      noted next (deedsOf i) w history = windows.flatMap (window s₀) ++ opened.map .read ∧
      noted next (pushedOf i) w history = windows.flatMap (coalesced s₀) := by
  obtain ⟨windows, opened, cut, _⟩ := h.windows
  refine ⟨windows, opened, cut, ?_⟩
  rw [noted_pushedOf, cut, List.flatMap_append, flatMap_batch_window]
  simp [List.flatMap_map, Deed.batch]

theorem settled_of_started (fresh : ∀ s ∈ sessions, s.Fresh)
    (exited : ((start sessions).run history).phase = .exited) : Settled (.started sessions) history := by
  -- Nothing is closed before the turn, and all of the delivery lies behind it.
  obtain ⟨before, around, after, ending, rfl, open_, turn, phase⟩ :=
    turned (start sessions) history id (by rw [exited]; trivial)
  have nothing := nothing_of_exited (.started sessions) exited
  rw [List.append_cons, run_append] at exited
  obtain ⟨given, _⟩ := delivered phase exited
  constructor
  case empty =>
    rw [List.append_cons, Outset.worker, run_append]
    exact given.empty
  case closed =>
    rw [Outset.along_started, List.append_cons, noted_append, ← run, noted_snoc, ← run,
      unclosed_of_open open_, closed_of_open open_, List.append_nil, List.nil_append, given.closed,
      List.take_length]
    exact tickets_run fresh _
  case flushed =>
    intro i s hs
    have within : i < ((start sessions).run (before ++ [.step around])).sessions.length := by
      rw [length_run]
      exact (List.getElem?_eq_some_iff.mp hs).1
    have last := given.deeds i _ (List.getElem?_eq_getElem within)
    rw [if_pos within] at last
    have none :
        recent (noted next (deedsOf i) (start sessions) (before ++ .step around :: after)) = [] := by
      rw [List.append_cons, noted_append, ← run, last, recent_snoc, Deed.extend]
    obtain ⟨t, _, accounted⟩ := accounted_of_start fresh hs (before ++ .step around :: after)
    obtain ⟨windows, opened, cut, pushed⟩ := pushed_of_accounted accounted
    rw [cut, recent_windows] at none
    rw [none, List.map_nil, List.append_nil] at cut
    exact ⟨windows, cut, pushed⟩
  case nothing => exact nothing

theorem settled_of_caught {before : List Occurrence} {left : List Session} {text : String}
    (fresh : ∀ s ∈ sessions, s.Fresh) (possible : ((start sessions).run before).MayLeave left)
    (exited : ((((start sessions).run before).panicked left text).run history).phase = .exited) :
    Settled (.caught sessions before left text possible) history := by
  have nothing := nothing_of_exited (.caught sessions before left text possible) exited
  have broken := panicked_of_mayLeave possible text
  obtain ⟨given, _⟩ := delivered (by rw [broken]) exited
  have same : (((start sessions).run before).panicked left text).sessions = left := by rw [broken]
  constructor
  case empty => exact given.empty
  case closed =>
    rw [Outset.along_caught, unclosed_of_open (open_of_looping possible.1), List.nil_append,
      given.closed, List.take_length, same, possible.2]
    exact tickets_run fresh before
  case flushed =>
    constructor
    · intro i s hs
      obtain ⟨_, _, accounted⟩ := accounted_of_start fresh hs before
      exact pushed_of_accounted accounted
    · intro i t ht
      exact given.pushed (by rw [same, ht])
  case nothing => exact nothing

theorem settled_of_exited {outset : Outset} (fresh : ∀ s ∈ outset.sessions, s.Fresh)
    (exited : (outset.worker.run history).phase = .exited) : Settled outset history := by
  cases outset with
  | started sessions => exact settled_of_started fresh exited
  | caught sessions before left text possible => exact settled_of_caught fresh possible exited

/-! ## Failures -/

/-- Why a worker failed, and all that it put out: the fault of a read, or a panic that it caught before
any read had failed. The sessions give up what they had taken in by then, or what the panic left. -/
inductive Undoing : Outset → List Occurrence → WatchError → List Event → Prop where
  | read {sessions : List Session} {history before : List Occurrence} {around : Surroundings}
      {after : List Occurrence} {i : Nat} {s : Session} {fault : Fault}
      (failed : Failed sessions history before around after i s fault) :
    Undoing (.started sessions) history fault.failure
      (noted next outputOf (start sessions) before ++ unflushed sessions (before ++ [.step around]))
  | panic {sessions : List Session} {before : List Occurrence} {left : List Session} {text : String}
      (possible : ((start sessions).run before).MayLeave left) (history : List Occurrence)
      (faultless : noted next faultOf (start sessions) before = []) :
    Undoing (.caught sessions before left text possible) history (.workerPanicked text)
      (noted next outputOf (start sessions) before ++ left.flatMap fun s => s.batch.events)

theorem undoing_of_started (fresh : ∀ s ∈ sessions, s.Fresh) (heard : Heard sessions history)
    {e : WatchError} (ended : noted next endingOf (start sessions) history = [.error e]) :
    Undoing (.started sessions) history e (noted next outputOf (start sessions) history) := by
  obtain ⟨before, around, after, i, s, fault, failed⟩ :=
    failed_of_ended fresh heard (e := e) (by rw [ended]; simp)
  obtain rfl : fault.failure = e := by simpa [failed.ended] using ended
  rw [failed.output]
  exact .read failed

theorem undoing_of_caught {before : List Occurrence} {left : List Session} {text : String}
    (possible : ((start sessions).run before).MayLeave left) {e : WatchError}
    (ended : noted next endingOf (((start sessions).run before).panicked left text) history = [.error e]) :
    Undoing (.caught sessions before left text possible) history e
      (noted next outputOf (start sessions) before ++
        noted next outputOf (((start sessions).run before).panicked left text) history) := by
  have broken := panicked_of_mayLeave possible text
  generalize hv : ((start sessions).run before).panicked left text = v at ended broken ⊢
  have exited : (v.run history).phase = .exited := by
    by_contra going
    rw [endings_of_not_exited going] at ended
    cases ended
  obtain ⟨given, only⟩ := delivered (by rw [broken]) exited
  obtain rfl : e = .workerPanicked text := by simpa [only] using ended.symm
  rw [given.output, List.take_length, broken]
  exact .panic possible history (faultless_of_open (open_of_looping possible.1))

theorem undoing_of_ended {outset : Outset} (fresh : ∀ s ∈ outset.sessions, s.Fresh)
    (heard : Heard outset.sessions (outset.before ++ history)) {e : WatchError}
    (ended : outset.along endingOf history = [.error e]) :
    Undoing outset history e (outset.along outputOf history) := by
  cases outset with
  | started sessions => exact undoing_of_started fresh heard ended
  | caught sessions before left text possible =>
    rw [Outset.along_caught, unended_of_open (open_of_looping possible.1), List.nil_append] at ended
    exact undoing_of_caught possible ended

end Worker

end DirectoryWatch
