import DirectoryWatch.Proofs.Worker.Deadlines
import Mathlib.Data.Finset.Card

/-!
# Timeliness

A worker is not late, and it does not spin. A wait that times out is followed by a sweep that closes
the window whose deadline has passed, and only a read opens another one. So until a handle is ready,
each time-out is paid for by a window of its own.
-/

namespace DirectoryWatch.Worker

open Native (WaitSet)

/-! ## Waits that end -/

structure Wait where
  deadline : Option Moment
  /-- The clock at the end of the wait. -/
  now : Moment
  outcome : WaitSet.Outcome
  deriving DecidableEq

def waitOf (w : Worker) (o : Occurrence) : List Wait :=
  match w.phase, o with
  | .waiting, .step around =>
    (w.waits.heed around.report).1.toList.map fun outcome => ⟨w.deadline, around.now, outcome⟩
  | _, _ => []

/-- A wait times out only once its deadline has passed. -/
def Wait.Punctual (x : Wait) : Prop := x.outcome = .timedOut → WaitSet.isDue x.deadline x.now = true

instance (x : Wait) : Decidable x.Punctual := inferInstanceAs (Decidable (_ → _))

def Wait.Unready (x : Wait) : Prop := ∀ position, x.outcome ≠ .ready position

def timeouts (waits : List Wait) : Nat := waits.countP fun x => x.outcome = .timedOut

theorem waitOf_of_awake {w : Worker} {o : Occurrence} (awake : w.phase ≠ .waiting) :
    waitOf w o = [] := by
  unfold waitOf
  split
  · rename_i phase
    exact absurd phase awake
  · rfl

theorem waitOf_of_other {w : Worker} {o : Occurrence} (other : ∀ around, o ≠ .step around) :
    waitOf w o = [] := by
  unfold waitOf
  split
  · exact absurd rfl (other _)
  · rfl

/-! ## Open windows -/

/-- The positions of the sessions whose windows are open. -/
def opens (w : Worker) : Finset Nat :=
  (Finset.range w.sessions.length).filter fun i => (w.windowAt i).isSome

theorem mem_opens {w : Worker} {i : Nat} : i ∈ w.opens ↔ ∃ o, w.windowAt i = some o := by
  unfold opens
  rw [Finset.mem_filter, Finset.mem_range, Option.isSome_iff_exists]
  constructor
  · exact And.right
  · rintro ⟨o, there⟩
    exact ⟨within_of_windowAt there, o, there⟩

theorem opens_of_step {w : Worker} (around : Surroundings)
    (calm : ∀ j, w.phase ≠ .reading j ∧ w.phase ≠ .draining j) : (w.step around).1.opens ⊆ w.opens := by
  intro i hi
  obtain ⟨o, there⟩ := mem_opens.mp hi
  exact mem_opens.mpr ⟨o, (window_of_step calm there).1⟩

theorem opens_subset_range (w : Worker) : w.opens ⊆ Finset.range w.sessions.length :=
  Finset.filter_subset _ _

/-! ## What time-outs are paid with -/

/-- Time-outs are paid for by windows of `U` that are closed by now, at most one of them still owed. -/
structure Paid (U : Finset Nat) (count : Nat) (w : Worker) (owed : Prop) : Prop where
  within : w.opens ⊆ U
  balance : count + w.opens.card ≤ U.card ∨ count + w.opens.card ≤ U.card + 1 ∧ owed

variable {U : Finset Nat} {count : Nat} {w v : Worker} {owed owed' : Prop}

theorem Paid.next (h : Paid U count w owed) (fewer : v.opens ⊆ w.opens)
    (pays : owed → owed' ∨ v.opens ⊂ w.opens) : Paid U count v owed' := by
  refine ⟨fewer.trans h.within, ?_⟩
  have le : v.opens.card ≤ w.opens.card := Finset.card_le_card fewer
  rcases h.balance with paid | ⟨one, debt⟩
  · left
    omega
  · rcases pays debt with debt | paid
    · right
      exact ⟨by omega, debt⟩
    · have lt : v.opens.card < w.opens.card := Finset.card_lt_card paid
      left
      omega

theorem Paid.owe (h : Paid U count w False) (fewer : v.opens ⊆ w.opens) (debt : owed) :
    Paid U (count + 1) v owed := by
  have le : v.opens.card ≤ w.opens.card := Finset.card_le_card fewer
  have paid : count + w.opens.card ≤ U.card := h.balance.resolve_right And.right
  exact ⟨fewer.trans h.within, .inr ⟨by omega, debt⟩⟩

/-- How far the time-outs are paid for in a phase, when the clock has shown some times. -/
def Spent (U : Finset Nat) (count : Nat) (w : Worker) (seen : List Moment) : Phase → Prop
  | .waiting => Paid U count w False
  | .reading _ => count = 0 ∧ Finset.range w.sessions.length ⊆ U
  | .timing => Paid U count w (∃ i d, w.deadlineAt i = some d ∧ ∃ c ∈ seen, d ≤ c)
  | .sweeping now position =>
    Paid U count w (∃ i d, position ≤ i ∧ w.deadlineAt i = some d ∧ d ≤ now)
  | .draining _ | .delivering _ _ | .exited => count ≤ U.card

theorem Spent.count_le {seen : List Moment} {phase : Phase} (h : Spent U count w seen phase) :
    count ≤ U.card := by
  have owing {owed : Prop} (h : Paid U count w owed) (some : owed → w.opens.Nonempty) :
      count ≤ U.card := by
    rcases h.balance with paid | ⟨one, debt⟩
    · omega
    · have := (some debt).card_pos
      omega
  have open_of_due {i : Nat} {d : Moment} (due : w.deadlineAt i = some d) : w.opens.Nonempty :=
    ⟨i, mem_opens.mpr (windowAt_of_deadlineAt due)⟩
  cases phase with
  | waiting => exact owing h False.elim
  | timing => exact owing h fun ⟨_, _, due, _⟩ => open_of_due due
  | sweeping => exact owing h fun ⟨_, _, _, due, _⟩ => open_of_due due
  | reading =>
    rw [h.1]
    exact Nat.zero_le _
  | draining | delivering | exited => exact h

theorem spent_zero (w : Worker) (seen : List Moment) :
    Spent (Finset.range w.sessions.length) 0 w seen w.phase := by
  have paid (owed : Prop) : Paid (Finset.range w.sessions.length) 0 w owed := by
    refine ⟨opens_subset_range w, .inl ?_⟩
    rw [Nat.zero_add]
    exact Finset.card_le_card (opens_subset_range w)
  cases w.phase with
  | waiting | timing | sweeping => exact paid _
  | reading => exact ⟨rfl, Finset.Subset.refl _⟩
  | draining | delivering | exited => exact Nat.zero_le _

theorem spent_move {seen : List Moment} {around : Surroundings} {phase next : Phase}
    {ended : Option Ending} (move : Move w around phase next ended) (hp : w.phase = phase)
    (steady : ∀ c ∈ seen, c ≤ around.now)
    (punctual : ∀ x ∈ waitOf w (.step around), x.Punctual)
    (unready : ∀ x ∈ waitOf w (.step around), x.Unready) (h : Spent U count w seen phase) :
    Spent U (count + timeouts (waitOf w (.step around))) (w.step around).1 (seen ++ [around.now])
      next := by
  have awake (waits : phase ≠ .waiting) : count + timeouts (waitOf w (.step around)) = count := by
    rw [waitOf_of_awake (by rwa [hp])]
    rfl
  have bound : count ≤ U.card := h.count_le
  cases move with
  | heeded =>
    have wait : waitOf w (.step around) = (w.waits.heed around.report).1.toList.map
        fun outcome => ⟨w.deadline, around.now, outcome⟩ := by
      unfold waitOf
      rw [hp]
    have fewer : (w.step around).1.opens ⊆ w.opens := opens_of_step around (by simp [hp])
    rw [wait] at punctual unready ⊢
    cases ho : (w.waits.heed around.report).1 with
    | none => exact h.next fewer False.elim
    | some outcome =>
      rw [ho] at punctual unready
      cases outcome with
      | ready position => exact absurd rfl (unready _ (List.mem_singleton_self _) position)
      | stopped => exact bound
      | timedOut =>
        -- The window that is due owes the payment.
        obtain ⟨i, d, due, le⟩ := due_of_isDue (punctual _ (List.mem_singleton_self _) rfl)
        have same : (w.step around).1.deadlineAt = w.deadlineAt :=
          deadlineAt_of_step around (by rw [hp]; rfl)
        exact h.owe fewer ⟨i, d, by rw [same, due], around.now, by simp, le⟩
  | read there well =>
    rw [awake (by simp)]
    obtain ⟨rfl, all⟩ := h
    have length : (w.step around).1.sessions.length = w.sessions.length := length_run w [.step around]
    have within : (w.step around).1.opens ⊆ U := by
      apply (opens_subset_range _).trans
      rw [length]
      exact all
    refine ⟨within, .inl ?_⟩
    rw [Nat.zero_add]
    exact Finset.card_le_card within
  | readFailed | nothingToRead | drained | drainFailed | drainedAll | delivered | deliveredAll
  | rests =>
    rw [awake (by simp)]
    exact bound
  | timed =>
    rw [awake (by simp)]
    apply h.next (opens_of_step around (by simp [hp]))
    rintro ⟨i, d, due, c, hc, le⟩
    left
    refine ⟨i, d, Nat.zero_le i, ?_, Moment.le_trans le (steady c hc)⟩
    rw [deadlineAt_of_step around (by rw [hp]; rfl), due]
  | @swept now j s =>
    rw [awake (by simp)]
    have fewer : (w.step around).1.opens ⊆ w.opens := opens_of_step around (by simp [hp])
    apply h.next fewer
    rintro ⟨i, d, ahead, due, le⟩
    by_cases still : i ∈ (w.step around).1.opens
    · left
      obtain ⟨o, there⟩ := mem_opens.mp still
      obtain ⟨_, same, early⟩ := window_of_step (by simp [hp]) there
      have passed : i ≠ j := by
        rintro rfl
        exact early now d hp due le
      exact ⟨i, d, by omega, by rw [same, due], le⟩
    · right
      rw [Finset.ssubset_iff_of_subset fewer]
      exact ⟨i, mem_opens.mpr (windowAt_of_deadlineAt due), still⟩
  | @sweptAll now j absent =>
    rw [awake (by simp)]
    apply h.next (opens_of_step around (by simp [hp]))
    rintro ⟨i, d, ahead, due, le⟩
    obtain ⟨o, there⟩ := windowAt_of_deadlineAt due
    have within : i < w.sessions.length := within_of_windowAt there
    have beyond : w.sessions.length ≤ j := List.getElem?_eq_none_iff.mp absent
    omega

theorem Spent.other {seen : List Moment} {phase : Phase} {o : Occurrence}
    (h : Spent U count w seen phase) (other : ∀ around, o ≠ .step around) :
    Spent U count (w.undergo o).1 seen phase := by
  obtain ⟨windows, deadlines, _⟩ := windows_of_other (w := w) other
  have length : (w.undergo o).1.sessions.length = w.sessions.length := length_run w [o]
  have same : (w.undergo o).1.opens = w.opens := by
    unfold opens
    rw [windows, length]
  have paid {owed : Prop} (h : Paid U count w owed) : Paid U count (w.undergo o).1 owed := by
    refine ⟨?_, ?_⟩
    · rw [same]
      exact h.within
    · rw [same]
      exact h.balance
  unfold Spent at *
  rw [deadlines, length]
  cases phase with
  | waiting | timing | sweeping => exact paid h
  | reading | draining | delivering | exited => exact h

theorem Spent.run {seen : List Moment} (h : Spent U count w seen w.phase) (history : List Occurrence)
    (steady : (seen ++ clocks history).Pairwise (· ≤ ·))
    (punctual : ∀ x ∈ noted next waitOf w history, x.Punctual)
    (unready : ∀ x ∈ noted next waitOf w history, x.Unready) :
    Spent U (count + timeouts (noted next waitOf w history)) (w.run history) (seen ++ clocks history)
      (w.run history).phase := by
  induction history generalizing w count seen with
  | nil =>
    rw [clocks, List.filterMap_nil, List.append_nil]
    exact h
  | cons o rest ih =>
    unfold noted at punctual unready ⊢
    unfold timeouts at *
    rw [List.forall_mem_append] at punctual unready
    rw [List.countP_append, ← Nat.add_assoc]
    by_cases step : ∃ around, o = .step around
    · obtain ⟨around, rfl⟩ := step
      have shown : clocks (.step around :: rest) = [around.now] ++ clocks rest := rfl
      rw [shown, ← List.append_assoc] at steady ⊢
      refine ih ?_ steady punctual.2 unready.2
      refine spent_move (step_move w around) rfl ?_ punctual.1 unready.1 h
      intro c hc
      exact (List.pairwise_append.mp (List.pairwise_append.mp steady).1).2.2 c hc _
        (List.mem_singleton_self _)
    · have other : ∀ around, o ≠ .step around := not_exists.mp step
      have shown : clocks (o :: rest) = clocks [o] ++ clocks rest := clocks_append [o] rest
      rw [shown, clocks_of_other other, List.nil_append] at steady ⊢
      rw [waitOf_of_other other, List.countP_nil, Nat.add_zero]
      refine ih ?_ steady punctual.2 unready.2
      rw [(windows_of_other other).2.2]
      exact h.other other

/-! ## The course of a sweep -/

/-- The phase of a worker with `n` sessions, some steps after it came to look at the clock. -/
def Sweep (n : Nat) (phase : Phase) : Nat → Prop
  | 0 => phase = .timing
  | position + 1 =>
    if position ≤ n then ∃ now, phase = .sweeping now position else phase = .waiting

theorem sweep_step {steps : Nat} (few : steps ≤ w.sessions.length + 1)
    (h : Sweep w.sessions.length w.phase steps) (around : Surroundings) :
    w.phase ≠ .waiting ∧ Sweep w.sessions.length (w.step around).1.phase (steps + 1) := by
  cases steps with
  | zero =>
    have timing : w.phase = .timing := h
    refine ⟨by simp [timing], around.now, ?_⟩
    simp only [step, timing]
  | succ position =>
    have begun : position ≤ w.sessions.length := by omega
    obtain ⟨now, sweeping⟩ : ∃ now, w.phase = .sweeping now position := by
      simpa only [Sweep, if_pos begun] using h
    refine ⟨by simp [sweeping], ?_⟩
    simp only [Sweep]
    by_cases within : position < w.sessions.length
    · have after : position + 1 ≤ w.sessions.length := within
      rw [if_pos after]
      refine ⟨now, ?_⟩
      have there : w.sessions[position]? = some w.sessions[position] := List.getElem?_eq_getElem within
      simp only [step, sweeping, there]
    · rw [if_neg (by omega)]
      have absent : w.sessions[position]? = none := List.getElem?_eq_none_iff.mpr (by omega)
      simp only [step, sweeping, absent]

theorem sweep_run (timing : w.phase = .timing) (history : List Occurrence)
    (few : (clocks history).length ≤ w.sessions.length + 2) :
    noted next waitOf w history = [] ∧
      Sweep w.sessions.length (w.run history).phase (clocks history).length := by
  induction history using List.reverseRecOn with
  | nil => exact ⟨rfl, timing⟩
  | append_singleton history o ih =>
    rw [clocks_append, List.length_append] at few
    obtain ⟨none, sweep⟩ := ih (by omega)
    rw [noted_snoc, ← run, none, List.nil_append, run_snoc, clocks_append, List.length_append]
    by_cases step : ∃ around, o = .step around
    · obtain ⟨around, rfl⟩ := step
      have few : (clocks history).length + 1 ≤ w.sessions.length + 2 := few
      rw [← length_run w history] at few sweep ⊢
      obtain ⟨awake, next⟩ := sweep_step (by omega) sweep around
      exact ⟨waitOf_of_awake awake, next⟩
    · have other : ∀ around, o ≠ .step around := not_exists.mp step
      rw [clocks_of_other other, waitOf_of_other other]
      refine ⟨rfl, ?_⟩
      rw [(windows_of_other other).2.2]
      exact sweep

/-! ## Timeliness -/

/-- After a time-out the worker comes back to the wait, with fewer windows open. -/
theorem opens_of_timeout {around : Surroundings} {sweep : List Occurrence} (waiting : w.phase = .waiting)
    (out : (w.waits.heed around.report).1 = some .timedOut) (steady : Steady (.step around :: sweep))
    (punctual : ∀ x ∈ noted next waitOf w (.step around :: sweep), x.Punctual)
    (steps : (clocks sweep).length = w.sessions.length + 2) :
    (w.run (.step around :: sweep)).phase = .waiting ∧
      (w.run (.step around :: sweep)).opens ⊂ w.opens := by
  have timing : (w.step around).1.phase = .timing := by simp [step, waiting, out, afterWait]
  have length : (w.step around).1.sessions.length = w.sessions.length := length_run w [.step around]
  obtain ⟨none, swept⟩ := sweep_run timing sweep (by omega)
  have back : (w.run (.step around :: sweep)).phase = .waiting := by
    rw [steps, length] at swept
    simp only [Sweep, if_neg (Nat.not_succ_le_self _)] at swept
    exact swept
  have first : waitOf w (.step around) = [⟨w.deadline, around.now, .timedOut⟩] := by
    unfold waitOf
    rw [waiting]
    simp [out]
  have waits : noted next waitOf w (.step around :: sweep) = [⟨w.deadline, around.now, .timedOut⟩] := by
    rw [noted, first, next, undergo, none, List.append_nil]
  have unspent : Spent w.opens 0 w [] w.phase := by
    rw [waiting]
    exact ⟨Finset.Subset.refl _, .inl (by omega)⟩
  have spent := unspent.run (.step around :: sweep) steady punctual (by simp [waits, Wait.Unready])
  rw [back, waits] at spent
  obtain ⟨within, paid⟩ := spent
  have one : timeouts [⟨w.deadline, around.now, .timedOut⟩] = 1 := rfl
  have fewer : 0 + 1 + (w.run (.step around :: sweep)).opens.card ≤ w.opens.card := by
    rw [← one]
    exact paid.resolve_right And.right
  refine ⟨back, Finset.ssubset_iff_subset_ne.mpr ⟨within, fun same => ?_⟩⟩
  rw [same] at fewer
  omega

/-- **Timeliness.** Whenever a worker waits, no window was due at its last look at the clock, and it
waits to the earliest deadline; no window without latency is open. After a time-out it comes back to
the wait with fewer windows open, so as long as no handle is ready there are no more time-outs than
sessions. -/
theorem timeliness {sessions : List Session} {history : List Occurrence}
    (closed : ∀ s ∈ sessions, s.opened = none) (steady : Steady history)
    (punctual : ∀ x ∈ noted next waitOf (start sessions) history, x.Punctual) :
    let w := (start sessions).run history
    (w.phase = .waiting →
      (∀ s ∈ w.sessions, ∀ d, s.flushDeadline = some d →
        ∃ look, (noted next lookOf (start sessions) history).getLast? = some look ∧ ¬ d ≤ look) ∧
      (w.deadline = none ↔ ∀ s ∈ w.sessions, s.flushDeadline = none) ∧
      (∀ d, w.deadline = some d → (∃ s ∈ w.sessions, s.flushDeadline = some d) ∧
        ∀ s ∈ w.sessions, ∀ e, s.flushDeadline = some e → d ≤ e) ∧
      ∀ s ∈ w.sessions, s.latency = .zero → s.opened = none) ∧
    (∀ before around sweep, history = before ++ .step around :: sweep →
      let v := (start sessions).run before
      v.phase = .waiting → (v.waits.heed around.report).1 = some .timedOut →
      (clocks sweep).length = sessions.length + 2 → w.phase = .waiting ∧ w.opens ⊂ v.opens) ∧
    ∀ before stretch, history = before ++ stretch →
      (∀ x ∈ noted next waitOf ((start sessions).run before) stretch, x.Unready) →
      timeouts (noted next waitOf ((start sessions).run before) stretch) ≤ sessions.length := by
  intro w
  refine ⟨?_, ?_, ?_⟩
  · intro waiting
    have begin : (start sessions).phase = .waiting := rfl
    have watched := watched_run begin closed steady
    rw [waiting] at watched
    refine ⟨?_, deadline_eq_none_iff w, fun d hd => deadline_spec hd, ?_⟩
    · intro s there d hd
      obtain ⟨o, opened, _⟩ := Option.bind_eq_some_iff.mp hd
      obtain ⟨look, last, _, early⟩ := early_of_waiting watched there opened
      exact ⟨look, last, early d hd⟩
    · intro s there zero
      exact unopened_of_zero watched there zero
  · rintro before around sweep rfl v waiting out steps
    rw [noted_append, ← run, List.forall_mem_append] at punctual
    have length : v.sessions.length = sessions.length := length_run (start sessions) before
    rw [← length] at steps
    have result := opens_of_timeout waiting out steady.parts.2 punctual.2 steps
    rw [← run_append] at result
    exact result
  · rintro before stretch rfl unready
    rw [noted_append, ← run, List.forall_mem_append] at punctual
    have length : ((start sessions).run before).sessions.length = sessions.length :=
      length_run (start sessions) before
    have spent := (spent_zero _ []).run stretch steady.parts.2 punctual.2 unready
    have bound := spent.count_le
    rw [Finset.card_range, length, Nat.zero_add] at bound
    exact bound

theorem timeliness_two_roots :
    let disk : Disk := ⟨.ok, fun _ => true, fun _ => true, fun _ => .ok []⟩
    let a : Path := ⟨[0x2F, 0x61]⟩
    let b : Path := ⟨[0x2F, 0x62]⟩
    let session (root : Path) (ticket : Nat) (latency : UInt64) : Session :=
      ⟨root, true, .ofSeconds latency, none, .make root ticket true, .empty, none, []⟩
    let second (n : Int64) : Moment := ⟨n, ⟨0, by decide⟩⟩
    let step (n : Int64) (report : WaitSet.Report) : Occurrence :=
      .step ⟨disk, second n, second n, report⟩
    let created (path : Path) : Native.Message := .record ⟨.create, [path], false⟩
    let round (n : Int64) (report : WaitSet.Report) : List Occurrence :=
      step n report :: List.replicate 4 (step n .stop)
    let sessions := [session a 0 3, session b 1 1]
    let opening : List Occurrence :=
      .sent 0 (created a) :: .sent 1 (created b) :: (round 0 (.handle 0) ++ step 0 .stop ::
        (round 0 (.handle 1) ++ [step 0 .stop]))
    let history := opening ++ (round 1 .timeout ++ round 3 .timeout)
    let v := (start sessions).run opening
    let w := (start sessions).run history
    (∀ s ∈ sessions, s.opened = none) ∧ Steady history ∧
    (∀ x ∈ noted next waitOf (start sessions) history, x.Punctual) ∧
    v.opens = {0, 1} ∧ v.deadline = some (second 1) ∧ w.opens = ∅ ∧ w.deadline = none ∧
    timeouts (noted next waitOf v (round 1 .timeout ++ round 3 .timeout)) = 2 ∧
    timeouts (noted next waitOf v (round 1 .timeout ++ round 3 .timeout)) ≤ sessions.length := by
  intro disk a b session second step created round sessions opening history v w
  have closed : ∀ s ∈ sessions, s.opened = none := by
    simp [sessions, session]
  have steady : Steady history := by decide +kernel
  have punctual : ∀ x ∈ noted next waitOf (start sessions) history, x.Punctual := by decide +kernel
  have waits : noted next waitOf v (round 1 .timeout ++ round 3 .timeout) =
      [⟨some (second 1), second 1, .timedOut⟩, ⟨some (second 3), second 3, .timedOut⟩] := by
    decide +kernel
  obtain ⟨_, _, spin⟩ := timeliness closed steady punctual
  refine ⟨closed, steady, punctual, by decide +kernel, by decide +kernel, by decide +kernel,
    by decide +kernel, by rw [waits]; rfl, spin opening _ rfl ?_⟩
  rw [waits]
  simp [Wait.Unready]

end DirectoryWatch.Worker
