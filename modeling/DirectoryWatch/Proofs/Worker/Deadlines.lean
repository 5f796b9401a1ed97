import DirectoryWatch.Proofs.Clock.Order
import DirectoryWatch.Proofs.Worker.Windows

/-!
# Deadlines

Only reads open windows, at the time of the clock, and the sweep after a look at the clock leaves no
window open that was due by then. So a worker that waits is not late: no window was due when it last
looked, and it waits no longer than to the earliest deadline.
-/

namespace DirectoryWatch.Worker

/-! ## Windows by position -/

/-- When the window of the session at a position was opened. -/
def windowAt (w : Worker) (i : Nat) : Option Moment := w.sessions[i]?.bind Session.opened

def deadlineAt (w : Worker) (i : Nat) : Option Moment := w.sessions[i]?.bind Session.flushDeadline

theorem windowAt_of_deadlineAt {w : Worker} {i : Nat} {d : Moment} (h : w.deadlineAt i = some d) :
    ∃ o, w.windowAt i = some o := by
  obtain ⟨s, hs, deadline⟩ := Option.bind_eq_some_iff.mp h
  obtain ⟨o, opened, _⟩ := Option.bind_eq_some_iff.mp deadline
  exact ⟨o, Option.bind_eq_some_iff.mpr ⟨s, hs, opened⟩⟩

theorem windowAt_of_closed {w : Worker} (closed : ∀ s ∈ w.sessions, s.opened = none) (i : Nat) :
    w.windowAt i = none := by
  unfold windowAt
  rw [Option.bind_eq_none_iff]
  intro s hs
  exact closed s (List.mem_of_getElem? hs)

theorem within_of_windowAt {w : Worker} {i : Nat} {o : Moment} (h : w.windowAt i = some o) :
    i < w.sessions.length := by
  obtain ⟨s, hs, _⟩ := Option.bind_eq_some_iff.mp h
  exact (List.getElem?_eq_some_iff.mp hs).1

theorem worked_window (phase : Phase) (around : Surroundings) (s : Session) :
    ((worked phase around s).opened = s.opened ∧
      (worked phase around s).flushDeadline = s.flushDeadline ∧
      ∀ now j d, phase = .sweeping now j → s.flushDeadline = some d → ¬ d ≤ now) ∨
    ((∃ j, phase = .reading j ∨ phase = .draining j) ∧
      (worked phase around s).opened = some around.now) ∨
    (worked phase around s).opened = none := by
  cases phase with
  | waiting | timing | exited => exact .inl ⟨rfl, rfl, by simp⟩
  | reading j | draining j =>
    unfold worked
    obtain ⟨latency, same | new⟩ :=
      Session.ingest_window (s := s) around.disk around.now around.observed
    · refine .inl ⟨same, ?_, by simp⟩
      unfold Session.flushDeadline
      rw [same, latency]
    · exact .inr (.inl ⟨⟨j, by simp⟩, new⟩)
  | sweeping now j =>
    by_cases late : ∃ d, s.flushDeadline = some d ∧ d ≤ now
    · obtain ⟨d, hd, late⟩ := late
      have taken : worked (.sweeping now j) around s = s.takeBatch.2 := by
        rw [worked, Session.takeDue_of_due hd late]
      exact .inr (.inr (by rw [taken]; rfl))
    · have early : ∀ d, s.flushDeadline = some d → ¬ d ≤ now := fun d hd le => late ⟨d, hd, le⟩
      have passed : worked (.sweeping now j) around s = s := by
        rw [worked, Session.takeDue_of_not_due early]
      refine .inl ⟨by rw [passed], by rw [passed], ?_⟩
      rintro _ _ d ⟨⟩ hd
      exact early d hd
  | delivering ending j => exact .inr (.inr rfl)

/-- What a step does to the window of the session at a position. -/
inductive Shift (w : Worker) (around : Surroundings) (i : Nat) : Prop where
  | kept (window : (w.step around).1.windowAt i = w.windowAt i)
      (deadline : (w.step around).1.deadlineAt i = w.deadlineAt i)
      (early : ∀ now d, w.phase = .sweeping now i → w.deadlineAt i = some d → ¬ d ≤ now)
  | opened (reads : ∃ j, w.phase = .reading j ∨ w.phase = .draining j)
      (window : (w.step around).1.windowAt i = some around.now)
  | closed (window : (w.step around).1.windowAt i = none)

theorem step_shift (w : Worker) (around : Surroundings) (i : Nat) : Shift w around i := by
  have after := step_session w around i
  by_cases subject : w.phase.subject? = some i
  · rw [if_pos subject] at after
    have window : (w.step around).1.windowAt i =
        (w.sessions[i]?.map (worked w.phase around)).bind Session.opened := by rw [windowAt, after]
    have deadline : (w.step around).1.deadlineAt i =
        (w.sessions[i]?.map (worked w.phase around)).bind Session.flushDeadline := by
      rw [deadlineAt, after]
    cases hs : w.sessions[i]? with
    | none =>
      rw [hs] at window
      exact .closed window
    | some s =>
      rw [hs] at window deadline
      have opened : w.windowAt i = s.opened := by rw [windowAt, hs, Option.bind_some]
      have due : w.deadlineAt i = s.flushDeadline := by rw [deadlineAt, hs, Option.bind_some]
      rcases worked_window w.phase around s with ⟨same, still, early⟩ | ⟨reads, new⟩ | none
      · refine .kept (window.trans (same.trans opened.symm)) (deadline.trans (still.trans due.symm)) ?_
        intro now d swept hd
        exact early now i d swept (due ▸ hd)
      · exact .opened reads (window.trans new)
      · exact .closed (window.trans none)
  · rw [if_neg subject] at after
    refine .kept (by rw [windowAt, after, windowAt]) (by rw [deadlineAt, after, deadlineAt]) ?_
    intro now d swept _
    exact absurd (by rw [swept]; rfl) subject

theorem window_of_step {w : Worker} {around : Surroundings} {i : Nat} {o : Moment}
    (calm : ∀ j, w.phase ≠ .reading j ∧ w.phase ≠ .draining j)
    (there : (w.step around).1.windowAt i = some o) :
    w.windowAt i = some o ∧ (w.step around).1.deadlineAt i = w.deadlineAt i ∧
      ∀ now d, w.phase = .sweeping now i → w.deadlineAt i = some d → ¬ d ≤ now := by
  cases step_shift w around i with
  | kept window deadline early => exact ⟨window.symm.trans there, deadline, early⟩
  | opened reads =>
    obtain ⟨j, reads⟩ := reads
    exact absurd reads (not_or.mpr (calm j))
  | closed window => simp [window] at there

theorem deadlineAt_of_step {w : Worker} (around : Surroundings) (idle : w.phase.subject? = none) :
    (w.step around).1.deadlineAt = w.deadlineAt := by
  unfold deadlineAt
  rw [step_sessions, idle]

theorem windows_of_other {w : Worker} {o : Occurrence} (other : ∀ around, o ≠ .step around) :
    (w.undergo o).1.windowAt = w.windowAt ∧ (w.undergo o).1.deadlineAt = w.deadlineAt ∧
      (w.undergo o).1.phase = w.phase := by
  have handles (ticket : Nat) (f : Native.Handle → Native.Handle) (time : Session → Option Moment)
      (blind : ∀ s h, time { s with handle := h } = time s) (i : Nat) :
      (w.onHandle ticket f).sessions[i]?.bind time = w.sessions[i]?.bind time := by
    rw [onHandle_session]
    cases w.sessions[i]? with
    | none => rfl
    | some s =>
      simp only [Option.map_some, Option.bind_some]
      split
      · exact blind s _
      · rfl
  cases o with
  | step around => exact absurd rfl (other around)
  | sent ticket | severed ticket =>
    exact ⟨funext (handles ticket _ _ fun _ _ => rfl), funext (handles ticket _ _ fun _ _ => rfl), rfl⟩
  | stop | signalLost => exact ⟨rfl, rfl, rfl⟩

/-! ## The clock -/

/-- What the clock shows at the steps of a worker. -/
def clocks (history : List Occurrence) : List Moment :=
  history.filterMap fun
    | .step around => some around.now
    | _ => none

/-- The clock never goes back. -/
def Steady (history : List Occurrence) : Prop := (clocks history).Pairwise (· ≤ ·)

instance (history : List Occurrence) : Decidable (Steady history) :=
  inferInstanceAs (Decidable (List.Pairwise _ _))

theorem clocks_append (history more : List Occurrence) :
    clocks (history ++ more) = clocks history ++ clocks more :=
  List.filterMap_append

theorem clocks_of_other {o : Occurrence} (other : ∀ around, o ≠ .step around) : clocks [o] = [] := by
  cases o with
  | step around => exact absurd rfl (other around)
  | sent | severed | stop | signalLost => rfl

theorem Steady.parts {history more : List Occurrence} (steady : Steady (history ++ more)) :
    Steady history ∧ Steady more := by
  unfold Steady at *
  rw [clocks_append, List.pairwise_append] at steady
  exact ⟨steady.1, steady.2.1⟩

theorem Steady.le_last {history : List Occurrence} {around : Surroundings}
    (steady : Steady (history ++ [.step around])) : ∀ c ∈ clocks history, c ≤ around.now := by
  intro c hc
  unfold Steady at steady
  rw [clocks_append, List.pairwise_append] at steady
  exact steady.2.2 c hc around.now (List.mem_singleton_self _)

/-- The look at the clock before a sweep. -/
def lookOf (w : Worker) (o : Occurrence) : List Moment :=
  match w.phase, o with
  | .timing, .step around => [around.now]
  | _, _ => []

theorem lookOf_of_other {w : Worker} {o : Occurrence} (other : ∀ around, o ≠ .step around) :
    lookOf w o = [] := by
  unfold lookOf
  split
  · exact absurd rfl (other _)
  · rfl

variable {w₀ : Worker} {history : List Occurrence}

theorem windowAt_mem_clocks (closed : ∀ s ∈ w₀.sessions, s.opened = none) {i : Nat} {o : Moment}
    (there : (w₀.run history).windowAt i = some o) : o ∈ clocks history := by
  induction history using List.reverseRecOn with
  | nil =>
    have none : w₀.windowAt i = none := windowAt_of_closed closed i
    cases none.symm.trans there
  | append_singleton history x ih =>
    rw [run_snoc] at there
    rw [clocks_append, List.mem_append]
    cases x with
    | step around =>
      cases step_shift (w₀.run history) around i with
      | kept window => exact .inl (ih (window.symm.trans there))
      | opened _ window =>
        obtain rfl : around.now = o := Option.some.inj (window.symm.trans there)
        exact .inr (List.mem_singleton_self _)
      | closed window =>
        cases window.symm.trans there
    | sent | severed | stop | signalLost =>
      rw [(windows_of_other (by simp)).1] at there
      exact .inl (ih there)

/-! ## After a sweep -/

/-- How the windows stand to the last look at the clock: from then on until it reads again, a worker
has only windows that were opened by then, and those that it has swept were not due. -/
def Watched (w : Worker) (looks : List Moment) : Phase → Prop
  | .waiting | .reading _ => ∀ i o, w.windowAt i = some o → ∃ look, looks.getLast? = some look ∧
    o ≤ look ∧ ∀ d, w.deadlineAt i = some d → ¬ d ≤ look
  | .sweeping now position => looks.getLast? = some now ∧ ∀ i o, w.windowAt i = some o →
    o ≤ now ∧ (i < position → ∀ d, w.deadlineAt i = some d → ¬ d ≤ now)
  | .timing | .draining _ | .delivering _ _ | .exited => True

theorem watched_move {w : Worker} {looks : List Moment} {around : Surroundings} {phase next : Phase}
    {ended : Option Ending} (move : Move w around phase next ended) (hp : w.phase = phase)
    (begun : ∀ i o, w.windowAt i = some o → o ≤ around.now) (h : Watched w looks phase) :
    Watched (w.step around).1 (looks ++ lookOf w (.step around)) next := by
  have idle (look : phase ≠ .timing) : looks ++ lookOf w (.step around) = looks := by
    unfold lookOf
    rw [hp]
    split
    · exact absurd rfl look
    · exact List.append_nil looks
  cases move with
  | heeded =>
    rw [idle (by simp)]
    have still : ∀ i o, (w.step around).1.windowAt i = some o → ∃ look, looks.getLast? = some look ∧
        o ≤ look ∧ ∀ d, (w.step around).1.deadlineAt i = some d → ¬ d ≤ look := by
      intro i o there
      obtain ⟨before, deadline, _⟩ := window_of_step (by simp [hp]) there
      rw [deadline]
      exact h i o before
    rcases (w.waits.heed around.report).1 with _ | _ | _ | _
    · exact still
    · exact still
    · trivial
    · trivial
  | read | readFailed | nothingToRead | drained | drainFailed | drainedAll | delivered | deliveredAll
  | rests => trivial
  | timed =>
    have look : lookOf w (.step around) = [around.now] := by
      unfold lookOf
      rw [hp]
    refine ⟨by simp [look], ?_⟩
    intro i o there
    obtain ⟨before, _, _⟩ := window_of_step (by simp [hp]) there
    exact ⟨begun i o before, by omega⟩
  | @swept now j s =>
    rw [idle (by simp)]
    obtain ⟨last, swept⟩ := h
    refine ⟨last, ?_⟩
    intro i o there
    obtain ⟨before, deadline, early⟩ := window_of_step (by simp [hp]) there
    obtain ⟨le, past⟩ := swept i o before
    rw [deadline]
    refine ⟨le, fun behind d hd => ?_⟩
    by_cases mine : i = j
    · subst mine
      exact early now d hp hd
    · exact past (by omega) d hd
  | @sweptAll now j absent =>
    rw [idle (by simp)]
    obtain ⟨last, swept⟩ := h
    intro i o there
    obtain ⟨before, deadline, _⟩ := window_of_step (by simp [hp]) there
    obtain ⟨le, past⟩ := swept i o before
    have within : i < w.sessions.length := within_of_windowAt before
    have beyond : w.sessions.length ≤ j := List.getElem?_eq_none_iff.mp absent
    refine ⟨now, last, le, ?_⟩
    rw [deadline]
    exact past (by omega)

theorem watched_run (begin : w₀.phase = .waiting) (closed : ∀ s ∈ w₀.sessions, s.opened = none)
    (steady : Steady history) :
    Watched (w₀.run history) (noted next lookOf w₀ history) (w₀.run history).phase := by
  induction history using List.reverseRecOn with
  | nil =>
    rw [run, List.foldl_nil, begin]
    intro i o there
    cases (windowAt_of_closed closed i).symm.trans there
  | append_singleton history x ih =>
    rw [run_snoc, noted_snoc, ← run]
    have h := ih steady.parts.1
    by_cases step : ∃ around, x = .step around
    · obtain ⟨around, rfl⟩ := step
      refine watched_move (step_move _ around) rfl ?_ h
      intro i o there
      exact steady.le_last o (windowAt_mem_clocks closed there)
    · have other : ∀ around, x ≠ .step around := not_exists.mp step
      obtain ⟨windows, deadlines, phase⟩ := windows_of_other (w := w₀.run history) other
      rw [lookOf_of_other other, List.append_nil, phase]
      unfold Watched at *
      rw [windows, deadlines]
      exact h

/-! ## At a wait -/

theorem early_of_waiting {w : Worker} {looks : List Moment} (watched : Watched w looks .waiting)
    {s : Session} (there : s ∈ w.sessions) {o : Moment} (opened : s.opened = some o) :
    ∃ look, looks.getLast? = some look ∧ o ≤ look ∧ ∀ d, s.flushDeadline = some d → ¬ d ≤ look := by
  obtain ⟨i, hs⟩ := List.mem_iff_getElem?.mp there
  have window : w.windowAt i = some o := by rw [windowAt, hs, Option.bind_some, opened]
  have deadline : w.deadlineAt i = s.flushDeadline := by rw [deadlineAt, hs, Option.bind_some]
  rw [← deadline]
  exact watched i o window

theorem unopened_of_zero {w : Worker} {looks : List Moment} (watched : Watched w looks .waiting)
    {s : Session} (there : s ∈ w.sessions) (zero : s.latency = .zero) : s.opened = none := by
  cases opened : s.opened with
  | none => rfl
  | some o =>
    obtain ⟨look, _, le, early⟩ := early_of_waiting watched there opened
    have due : s.flushDeadline = some o := by
      unfold Session.flushDeadline
      rw [opened, Option.bind_some, zero, Moment.add?_zero]
    exact absurd le (early o due)

theorem deadline_eq_none_iff (w : Worker) :
    w.deadline = none ↔ ∀ s ∈ w.sessions, s.flushDeadline = none := by
  unfold deadline
  rw [Moment.earliest?_eq_none_iff, List.filterMap_eq_nil_iff]

theorem deadline_spec {w : Worker} {d : Moment} (h : w.deadline = some d) :
    (∃ s ∈ w.sessions, s.flushDeadline = some d) ∧
    ∀ s ∈ w.sessions, ∀ e, s.flushDeadline = some e → d ≤ e := by
  obtain ⟨there, least⟩ := Moment.earliest?_spec h
  refine ⟨List.mem_filterMap.mp there, ?_⟩
  intro s hs e he
  exact least e (List.mem_filterMap.mpr ⟨s, hs, he⟩)

theorem due_of_isDue {w : Worker} {now : Moment}
    (due : Native.WaitSet.isDue w.deadline now = true) : ∃ i d, w.deadlineAt i = some d ∧ d ≤ now := by
  unfold Native.WaitSet.isDue at due
  cases hd : w.deadline with
  | none => simp [hd] at due
  | some d =>
    have le : d ≤ now := by simpa [hd] using due
    obtain ⟨⟨s, there, deadline⟩, _⟩ := deadline_spec hd
    obtain ⟨i, hs⟩ := List.mem_iff_getElem?.mp there
    exact ⟨i, d, by rw [deadlineAt, hs, Option.bind_some, deadline], le⟩

end DirectoryWatch.Worker
