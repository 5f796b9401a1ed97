import DirectoryWatch.Proofs.Worker.Delivery

/-!
# Failure

One read fails at most in the life of a worker, and then its fault is how the worker ends. What the
sessions had taken in by then goes out before, the changes of the failing read included.
-/

namespace DirectoryWatch.Worker

variable {w w₀ : Worker} {around : Surroundings} {ending : Ending} {fault : Fault}
  {history : List Occurrence} {i : Nat} {s : Session}

/-! ## Faults of reads -/

structure Failing (w : Worker) (around : Surroundings) (i : Nat) (s : Session) (fault : Fault) :
    Prop where
  phase : w.phase = .reading i ∨ w.phase = .draining i
  there : w.sessions[i]? = some s
  ill : (s.ingest around.disk around.now around.observed).1 = .error fault

/-- The fault of the read that a step is. -/
def faultOf (w : Worker) : Occurrence → List Fault
  | .step around =>
    match w.phase with
    | .reading i | .draining i =>
      (w.sessions[i]?).elim [] fun s =>
        match (s.ingest around.disk around.now around.observed).1 with
        | .ok _ => []
        | .error fault => [fault]
    | .waiting | .timing | .sweeping _ _ | .delivering _ _ | .exited => []
  | .sent _ _ | .severed _ | .stop | .signalLost => []

theorem faultOf_of_failing (h : Failing w around i s fault) : faultOf w (.step around) = [fault] := by
  unfold faultOf
  rcases h.phase with phase | phase <;> simp [phase, h.there, h.ill]

theorem failing_of_faultOf (h : fault ∈ faultOf w (.step around)) :
    ∃ i s, Failing w around i s fault := by
  unfold faultOf at h
  cases phase : w.phase with
  | waiting | timing | sweeping | delivering | exited => simp [phase] at h
  | reading i | draining i =>
    cases there : w.sessions[i]? with
    | none => simp [phase, there] at h
    | some s =>
      cases ill : (s.ingest around.disk around.now around.observed).1 with
      | ok => simp [phase, there, ill] at h
      | error found =>
        obtain rfl : fault = found := by simpa [phase, there, ill] using h
        exact ⟨i, s, by simp [phase], there, ill⟩

theorem Failing.step_phase (h : Failing w around i s fault) :
    (w.step around).1.phase = .delivering (.error fault.failure) 0 := by
  unfold step
  rcases h.phase with phase | phase <;> simp [phase, h.there, read_phase, h.ill]

/-! ## Setting about the end -/

/-- The worker reads no more. -/
def Phase.Closing : Phase → Prop
  | .delivering _ _ | .exited => True
  | .waiting | .reading _ | .timing | .sweeping _ _ | .draining _ => False

theorem afterWait_open (outcome : Option Native.WaitSet.Outcome) : ¬ (afterWait outcome).Closing := by
  rcases outcome with _ | _ | _ | _ <;> exact id

/-- What has a worker set about its delivery. -/
inductive Turn (w : Worker) (around : Surroundings) : Ending → Prop where
  | drained {i : Nat} (phase : w.phase = .draining i) (absent : w.sessions[i]? = none) :
    Turn w around (.ok ())
  | failed {i : Nat} {s : Session} {fault : Fault} (failing : Failing w around i s fault) :
    Turn w around (.error fault.failure)
  | astray {i : Nat} (phase : w.phase = .reading i) (absent : w.sessions[i]? = none) :
    Turn w around (.error (Fault.panic (.indexOutOfBounds w.sessions.length i)).failure)

theorem turn_of_step (open_ : ¬ w.phase.Closing) (closing : (w.step around).1.phase.Closing) :
    ∃ ending, Turn w around ending ∧ (w.step around).1.phase = .delivering ending 0 := by
  have move := step_move w around
  generalize hp : w.phase = phase, (w.step around).1.phase = next, (w.step around).2.ended = ended
    at move open_ closing ⊢
  cases move with
  | heeded => exact absurd closing (afterWait_open _)
  | read | timed | swept | sweptAll | drained => exact closing.elim
  | delivered | deliveredAll | rests => exact absurd trivial open_
  | readFailed there ill => exact ⟨_, .failed ⟨.inl hp, there, ill⟩, rfl⟩
  | drainFailed there ill => exact ⟨_, .failed ⟨.inr hp, there, ill⟩, rfl⟩
  | nothingToRead absent => exact ⟨_, .astray hp absent, rfl⟩
  | drainedAll absent => exact ⟨_, .drained hp absent, rfl⟩

theorem closing_step (h : w.phase.Closing) (around : Surroundings) :
    (w.step around).1.phase.Closing := by
  have move := step_move w around
  generalize w.phase = phase, (w.step around).1.phase = next, (w.step around).2.ended = ended
    at move h ⊢
  cases move with
  | delivered | deliveredAll | rests => trivial
  | _ => exact h.elim

theorem closing_undergo (h : w.phase.Closing) (o : Occurrence) : (w.undergo o).1.phase.Closing := by
  cases o with
  | step around => exact closing_step h around
  | sent | severed | stop | signalLost => exact h

/-- Every way to the end leads through one turn. -/
theorem turned (w₀ : Worker) (history : List Occurrence) (begin : ¬ w₀.phase.Closing)
    (closing : (w₀.run history).phase.Closing) :
    ∃ before around after ending, history = before ++ .step around :: after ∧
      ¬ (w₀.run before).phase.Closing ∧ Turn (w₀.run before) around ending ∧
      (w₀.run (before ++ [.step around])).phase = .delivering ending 0 := by
  induction history using List.reverseRecOn with
  | nil => exact absurd closing begin
  | append_singleton history o ih =>
    by_cases already : (w₀.run history).phase.Closing
    · obtain ⟨before, around, after, ending, rfl, rest⟩ := ih already
      exact ⟨before, around, after ++ [o], ending, by simp, rest⟩
    · rw [run_snoc] at closing
      cases o with
      | sent | severed | stop | signalLost => exact absurd closing already
      | step around =>
        obtain ⟨ending, turn, phase⟩ := turn_of_step already closing
        exact ⟨history, around, [], ending, rfl, already, turn, by rw [run_snoc]; exact phase⟩

/-! ## No fault before the turn, and none after it -/

theorem faultless_of_open (open_ : ¬ (w₀.run history).phase.Closing) :
    noted next faultOf w₀ history = [] := by
  induction history using List.reverseRecOn with
  | nil => rfl
  | append_singleton history o ih =>
    rw [run_snoc] at open_
    have before : ¬ (w₀.run history).phase.Closing := fun h => open_ (closing_undergo h o)
    rw [noted_snoc, ← run, ih before, List.nil_append, List.eq_nil_iff_forall_not_mem]
    intro fault found
    cases o with
    | sent | severed | stop | signalLost => simp [faultOf] at found
    | step around =>
      obtain ⟨i, s, failing⟩ := failing_of_faultOf found
      apply open_
      rw [undergo, failing.step_phase]
      trivial

theorem faultless_of_closing (closing : w.phase.Closing) (history : List Occurrence) :
    noted next faultOf w history = [] := by
  induction history generalizing w with
  | nil => rfl
  | cons o rest ih =>
    rw [noted, ih (closing_undergo closing o), List.append_nil, List.eq_nil_iff_forall_not_mem]
    intro fault found
    cases o with
    | sent | severed | stop | signalLost => simp [faultOf] at found
    | step around =>
      obtain ⟨i, s, failing⟩ := failing_of_faultOf found
      rcases failing.phase with phase | phase <;> simp [phase, Phase.Closing] at closing

/-! ## Reports of handles that are there -/

/-- A wait reports no handle but those it was given. -/
def Heard (sessions : List Session) (history : List Occurrence) : Prop :=
  ∀ around, .step around ∈ history → ∀ position, around.report = .handle position →
    position < sessions.length

theorem heed_ready {waits : Native.WaitSet} {report : Native.WaitSet.Report} {position : Nat}
    (h : (waits.heed report).1 = some (.ready position)) : report = .handle position := by
  unfold Native.WaitSet.heed at h
  cases stopped : waits.isStopped with
  | mk seen waits =>
    cases seen with
    | true => simp [stopped] at h
    | false => cases report <;> simp_all

theorem reported_of_reading (reading : (w.step around).1.phase = .reading i) :
    w.phase = .waiting ∧ around.report = .handle i := by
  have move := step_move w around
  generalize w.phase = phase, (w.step around).1.phase = next, (w.step around).2.ended = ended
    at move reading ⊢
  cases move with
  | heeded =>
    have ready : (w.waits.heed around.report).1 = some (.ready i) := by
      revert reading
      rcases (w.waits.heed around.report).1 with _ | _ | _ | _ <;> simp [afterWait]
    exact ⟨rfl, heed_ready ready⟩
  | _ => cases reading

theorem reading_within (w₀ : Worker) (begin : w₀.phase = .waiting) (heard : Heard w₀.sessions history)
    (reading : (w₀.run history).phase = .reading i) : i < w₀.sessions.length := by
  induction history using List.reverseRecOn with
  | nil =>
    rw [run, List.foldl_nil, begin] at reading
    cases reading
  | append_singleton history o ih =>
    have earlier : Heard w₀.sessions history := fun around mem => heard around (by simp [mem])
    rw [run_snoc] at reading
    cases o with
    | sent | severed | stop | signalLost => exact ih earlier reading
    | step around => exact heard around (by simp) i (reported_of_reading reading).2

/-! ## What goes out -/

/-- The batches of what the sessions took in since they last gave one up, in the order of the
sessions. -/
def unflushed (sessions : List Session) (history : List Occurrence) : List Event :=
  sessions.zipIdx.flatMap fun (s, i) =>
    coalesced s (recent (noted next (deedsOf i) (start sessions) history))

theorem events_eq_unflushed {sessions : List Session} (fresh : ∀ s ∈ sessions, s.Fresh)
    (history : List Occurrence) :
    (((start sessions).run history).sessions.flatMap fun s => s.batch.events) =
      unflushed sessions history := by
  rw [unflushed, List.flatMap_def, List.flatMap_def]
  congr 1
  apply List.ext_getElem?
  intro i
  rw [List.getElem?_map, List.getElem?_map, List.getElem?_zipIdx]
  cases hs : sessions[i]? with
  | none =>
    rw [(absent_run_iff _ history i).mpr (List.getElem?_eq_none_iff.mp hs)]
    rfl
  | some s₀ =>
    obtain ⟨s, there, accounted⟩ := accounted_of_start fresh hs history
    rw [there]
    simp [accounted.events]

theorem output_of_turn (turn : Turn w around ending) : outputOf w (.step around) = [] := by
  unfold outputOf undergo step
  cases turn with
  | drained phase absent | astray phase absent => simp [phase, absent, noEffect]
  | failed failing => rcases failing.phase with phase | phase <;> simp [phase, failing.there, noEffect]

/-- A worker that failed, cut at the read that made it fail. -/
structure Failed (sessions : List Session) (history before : List Occurrence) (around : Surroundings)
    (after : List Occurrence) (i : Nat) (s : Session) (fault : Fault) : Prop where
  cut : history = before ++ .step around :: after
  phase : ((start sessions).run before).phase = .reading i ∨
    ((start sessions).run before).phase = .draining i
  there : ((start sessions).run before).sessions[i]? = some s
  fails : s.Fails around.disk fault
  /-- No other read failed. -/
  only : noted next faultOf (start sessions) history = [fault]
  ended : noted next endingOf (start sessions) history = [.error fault.failure]
  output : noted next outputOf (start sessions) history =
    noted next outputOf (start sessions) before ++ unflushed sessions (before ++ [.step around])

theorem failed_of_ended {sessions : List Session} (fresh : ∀ s ∈ sessions, s.Fresh)
    (heard : Heard sessions history) {e : WatchError}
    (ended : .error e ∈ noted next endingOf (start sessions) history) :
    ∃ before around after i s fault, Failed sessions history before around after i s fault := by
  have exited : ((start sessions).run history).phase = .exited := by
    by_contra going
    rw [endings_of_not_exited going] at ended
    cases ended
  obtain ⟨before, around, after, ending, rfl, open_, turn, phase⟩ :=
    turned (start sessions) history id (by rw [exited]; trivial)
  rw [List.append_cons, run_append] at exited
  rw [List.append_cons, noted_append, ← run, endings_of_not_exited (by simp [phase]),
    List.nil_append] at ended
  obtain ⟨given, only⟩ := delivered phase exited
  have failure : ending = .error e := by
    rw [only, List.mem_singleton] at ended
    exact ended.symm
  cases turn with
  | drained => cases failure
  | astray reading absent =>
    have earlier : Heard sessions before := fun around mem => heard around (by simp [mem])
    have within := reading_within (start sessions) rfl earlier reading
    exact absurd ((absent_run_iff _ before _).mp absent) (Nat.not_le.mpr within)
  | failed failing =>
    rename_i i s fault
    refine ⟨before, around, after, i, s, fault, rfl, failing.phase, failing.there, ?_, ?_, ?_, ?_⟩
    · obtain ⟨s₀, _, accounted⟩ := accounted_of_there fresh failing.there
      exact (Session.ingest_eq_error_iff _ _ _ accounted.unabsorbed fault).mp failing.ill
    · rw [List.append_cons, noted_append, ← run, noted_snoc, ← run, faultless_of_open open_,
        faultOf_of_failing failing, faultless_of_closing (by rw [phase]; trivial), List.append_nil,
        List.nil_append]
    · rw [List.append_cons, noted_append, ← run, endings_of_not_exited (by simp [phase]), only,
        List.nil_append]
    · rw [List.append_cons, noted_append, ← run, noted_snoc, ← run, output_of_turn (.failed failing),
        List.append_nil, given.output, List.take_length, events_eq_unflushed fresh]

end DirectoryWatch.Worker
