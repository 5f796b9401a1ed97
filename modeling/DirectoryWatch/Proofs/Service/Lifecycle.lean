import DirectoryWatch.Proofs.Service.World
import DirectoryWatch.Proofs.Worker.History

/-!
# The life of a service

Whatever the caller, the worker and the backend do, and in whatever order, the status of a service
goes from idle to its end and never back, and a failure comes with the failed state and stays.
-/

namespace DirectoryWatch

open Native (Backend WaitSet)

/-! ## The worker and the stop signal -/

namespace Worker

/-- The phases of a worker that was not stopped. -/
def Phase.Unstopped : Phase → Prop
  | .waiting | .reading _ | .timing | .sweeping _ _ | .delivering (.error _) _ => True
  | .draining _ | .delivering (.ok ()) _ | .exited => False

theorem step_waits (w : Worker) (around : Surroundings) :
    (w.step around).1.waits =
      match w.phase with
      | .waiting => (w.waits.heed around.report).2
      | _ => w.waits := by
  unfold step
  cases hp : w.phase with
  | waiting | timing | exited => rfl
  | reading i | draining i =>
    cases hs : w.sessions[i]? with
    | none => simp [hs, fail]
    | some s =>
      simp only [hs, read]
      split <;> rfl
  | sweeping now i | delivering ending i => cases hs : w.sessions[i]? <;> simp [hs, replace]

theorem heed_start (report : WaitSet.Report) :
    (WaitSet.start.heed report).2 = .start ∧ (WaitSet.start.heed report).1 ≠ some .stopped := by
  cases report <;> exact ⟨rfl, by simp [WaitSet.heed, WaitSet.isStopped, WaitSet.start, WaitSet.isRaised]⟩

theorem step_unstopped {w : Worker} (quiet : w.waits = .start) (h : w.phase.Unstopped)
    (around : Surroundings) :
    (w.step around).1.waits = .start ∧
    ((w.step around).1.phase.Unstopped ∧ (w.step around).2.ended = none ∨
      (w.step around).1.phase = .exited ∧ ∃ e, (w.step around).2.ended = some (.error e)) := by
  obtain ⟨still, unstopped⟩ := heed_start around.report
  constructor
  · rw [step_waits, quiet, still]
    split <;> rfl
  · have move := step_move w around
    generalize w.phase = phase, (w.step around).1.phase = next, (w.step around).2.ended = ended
      at move h
    cases move with
    | heeded =>
      -- Only a wait looks at the stop signal, and nothing was sent through it.
      rw [quiet]
      revert unstopped
      rcases (WaitSet.start.heed around.report).1 with _ | _ | _ | _ <;>
        simp [afterWait, Phase.Unstopped]
    | read | readFailed | nothingToRead | timed | swept | sweptAll => exact .inl ⟨trivial, rfl⟩
    | drained | drainFailed | drainedAll | rests => exact h.elim
    | @delivered ending =>
      cases ending with
      | ok => exact h.elim
      | error => exact .inl ⟨trivial, rfl⟩
    | @deliveredAll ending =>
      cases ending with
      | ok => exact h.elim
      | error e => exact .inr ⟨rfl, e, rfl⟩

theorem isExited_iff (w : Worker) : w.isExited = true ↔ w.phase = .exited := by
  unfold isExited
  split <;> simp_all

theorem step_going {w : Worker} (h : w.phase ≠ .exited) (around : Surroundings) :
    (w.step around).1.phase ≠ .exited ∧ (w.step around).2.ended = none ∨
      (w.step around).1.phase = .exited ∧ ∃ ending, (w.step around).2.ended = some ending := by
  have move := step_move w around
  generalize w.phase = phase, (w.step around).1.phase = next, (w.step around).2.ended = ended
    at move h
  by_cases going : next = .exited
  · cases move with
    | heeded => exact absurd going (afterWait_ne_exited _)
    | deliveredAll => exact .inr ⟨rfl, _, rfl⟩
    | rests => exact absurd rfl h
    | _ => cases going
  · exact .inl ⟨going, (move.going going).2⟩

theorem panicked_exited_iff (w : Worker) (sessions : List Session) (text : String) :
    (w.panicked sessions text).phase = .exited ↔ w.phase = .exited := by
  unfold panicked
  split
  · rename_i possible
    constructor
    · rintro ⟨⟩
    · intro exited
      simp [MayLeave, isLooping, exited] at possible
  · rfl

theorem Phase.Unstopped.panicked {w : Worker} (h : w.phase.Unstopped) (sessions : List Session)
    (text : String) : (w.panicked sessions text).phase.Unstopped := by
  unfold Worker.panicked
  split
  · trivial
  · exact h

@[simp] theorem waits_panicked (w : Worker) (sessions : List Session) (text : String) :
    (w.panicked sessions text).waits = w.waits := by
  unfold panicked
  split <;> rfl

end Worker

/-! ## What becomes of the status -/

/-- The ways in which the state goes. -/
inductive ServiceState.Moves : ServiceState → ServiceState → Prop where
  | start : Moves .idle .running
  | request : Moves .running .stopRequested
  | stop : Moves .stopRequested .stopped
  | failRunning : Moves .running .failed
  | failRequested : Moves .stopRequested .failed

def ServiceState.Final : ServiceState → Prop
  | .stopped | .failed => True
  | .idle | .running | .stopRequested => False

/-- The status stays, or the state moves and a failure comes with the failed state. -/
inductive Status.Advances : Status → Status → Prop where
  | stays (s : Status) : Advances s s
  | moves {state next : ServiceState} (move : state.Moves next) (well : next ≠ .failed) :
    Advances ⟨state, none⟩ ⟨next, none⟩
  | fails {state : ServiceState} (move : state.Moves .failed) (e : WatchError) :
    Advances ⟨state, none⟩ ⟨.failed, some e⟩

namespace Status

theorem Advances.state {s t : Status} (h : s.Advances t) :
    t.state = s.state ∨ s.state.Moves t.state := by
  cases h with
  | stays => exact .inl rfl
  | moves move | fails move => exact .inr move

theorem Advances.failure {s t : Status} (h : s.Advances t) {e : WatchError}
    (failed : s.failure = some e) : t.failure = some e := by
  cases h with
  | stays => exact failed
  | moves | fails => cases failed

theorem Advances.final {s t : Status} (h : s.Advances t) (final : s.state.Final) :
    t.state = s.state := by
  cases h with
  | stays => rfl
  | moves move | fails move => cases move <;> exact final.elim

theorem Advances.ne_idle {s t : Status} (h : s.Advances t) (going : s.state ≠ .idle) :
    t.state ≠ .idle := by
  cases h with
  | stays => exact going
  | moves move | fails move => cases move <;> simp

end Status

/-- The status and the worker of a service belong together. -/
inductive Service.Sound : Status → Option Worker → Prop where
  | idle : Sound ⟨.idle, none⟩ none
  | running {w : Worker} (quiet : w.waits = .start) (unstopped : w.phase.Unstopped) :
    Sound ⟨.running, none⟩ (some w)
  | stopRequested {w : Worker} (going : w.phase ≠ .exited) : Sound ⟨.stopRequested, none⟩ (some w)
  | stopped {worker : Option Worker} (exited : ∀ w, worker = some w → w.phase = .exited) :
    Sound ⟨.stopped, none⟩ worker
  | failed {worker : Option Worker} (exited : ∀ w, worker = some w → w.phase = .exited) (e : WatchError) :
    Sound ⟨.failed, some e⟩ worker

namespace Service

theorem Sound.failure {status : Status} {worker : Option Worker} (h : Sound status worker) :
    status.failure.isSome = true ↔ status.state = .failed := by
  cases h <;> simp

theorem Sound.alter {status : Status} {worker : Option Worker} (h : Sound status worker)
    {f : Worker → Worker} (exited : ∀ w, (f w).phase = .exited ↔ w.phase = .exited)
    (unstopped : ∀ w, w.phase.Unstopped → (f w).phase.Unstopped)
    (waits : ∀ w, (f w).waits = w.waits) : Sound status (worker.map f) := by
  have still {worker : Option Worker} (gone : ∀ w, worker = some w → w.phase = .exited) :
      ∀ w, worker.map f = some w → w.phase = .exited := by
    intro w hw
    obtain ⟨v, hv, rfl⟩ := Option.map_eq_some_iff.mp hw
    exact (exited v).mpr (gone v hv)
  cases h with
  | idle => exact .idle
  | @running w quiet here =>
    rw [Option.map_some]
    exact .running (by rw [waits, quiet]) (unstopped w here)
  | @stopRequested w going =>
    rw [Option.map_some]
    exact .stopRequested fun gone => going ((exited w).mp gone)
  | stopped gone => exact .stopped (still gone)
  | failed gone e => exact .failed (still gone) e

theorem Sound.map {status : Status} {worker : Option Worker} (h : Sound status worker)
    {f : Worker → Worker} (phase : ∀ w, (f w).phase = w.phase) (waits : ∀ w, (f w).waits = w.waits) :
    Sound status (worker.map f) :=
  h.alter (fun w => by rw [phase]) (fun w here => by rwa [phase]) waits

theorem Sound.panicked {status : Status} {worker : Option Worker} (h : Sound status worker)
    (sessions : List Session) (text : String) :
    Sound status (worker.map fun w => w.panicked sessions text) :=
  h.alter (Worker.panicked_exited_iff · sessions text) (fun _ here => here.panicked sessions text)
    (Worker.waits_panicked · sessions text)

/-- A service goes on to be another that is sound, and its status stays or advances. -/
def Proceeds (s t : Service) : Prop := Sound t.status t.worker ∧ s.status.Advances t.status

variable {s : Service}

theorem proceeds_start {State : Type} (h : Sound s.status s.worker) (backend : Backend State)
    (disk : Disk) (state : State) : Proceeds s (s.start backend disk state).2.1 := by
  unfold start
  split
  · exact ⟨h, .stays _⟩
  · rename_i fresh
    have fresh : s.status.state = .idle := Decidable.not_not.mp fresh
    split
    · exact ⟨h, .stays _⟩
    · split
      · exact ⟨h, .stays _⟩
      · obtain ⟨paths, config, status, queue, worker⟩ := s
        cases h with
        | idle => exact ⟨.running rfl trivial, .moves .start (by decide)⟩
        | _ => cases fresh

theorem proceeds_requestStop (h : Sound s.status s.worker) : Proceeds s s.requestStop := by
  unfold requestStop
  split
  · rename_i live
    obtain ⟨paths, config, status, queue, worker⟩ := s
    cases h with
    | @running w quiet unstopped =>
      refine ⟨.stopRequested ?_, .moves .request (by decide)⟩
      intro exited
      rw [show w.stop.phase = w.phase from rfl] at exited
      simp [exited, Worker.Phase.Unstopped] at unstopped
    | _ => cases live
  · exact ⟨h, .stays _⟩

theorem joinable_cases (h : Sound s.status s.worker) (joinable : s.isJoinable = true) :
    s.status = ⟨.idle, none⟩ ∨ s.status = ⟨.stopped, none⟩ ∨ ∃ e, s.status = ⟨.failed, some e⟩ := by
  obtain ⟨paths, config, status, queue, worker⟩ := s
  cases h with
  | idle => exact .inl rfl
  | @running w quiet unstopped =>
    rw [isJoinable, Option.all_some, Worker.isExited_iff] at joinable
    simp [joinable, Worker.Phase.Unstopped] at unstopped
  | @stopRequested w going =>
    rw [isJoinable, Option.all_some, Worker.isExited_iff] at joinable
    exact absurd joinable going
  | stopped => exact .inr (.inl rfl)
  | failed _ e => exact .inr (.inr ⟨e, rfl⟩)

theorem proceeds_joined (h : Sound s.status s.worker) (joinable : s.isJoinable = true) :
    Proceeds s s.joined := by
  refine ⟨?_, .stays _⟩
  change Sound s.status none
  obtain h | h | ⟨e, h⟩ := joinable_cases h joinable <;> rw [h]
  · exact .idle
  · exact .stopped (by simp)
  · exact .failed (by simp) e

theorem proceeds_work (h : Sound s.status s.worker) (around : Surroundings) :
    Proceeds s (s.work around).1 := by
  obtain ⟨paths, config, status, queue, worker⟩ := s
  cases worker with
  | none => exact ⟨h, .stays _⟩
  | some w =>
    simp only [Proceeds, work, heed]
    cases h with
    | running quiet unstopped =>
      obtain ⟨still, ⟨going, unended⟩ | ⟨exited, e, ended⟩⟩ :=
        Worker.step_unstopped quiet unstopped around
      · rw [unended]
        exact ⟨.running still going, .stays _⟩
      · rw [ended]
        exact ⟨.failed (by simp [exited]) e, .fails .failRunning e⟩
    | stopRequested going =>
      obtain ⟨going, unended⟩ | ⟨exited, ending, ended⟩ := Worker.step_going going around
      · rw [unended]
        exact ⟨.stopRequested going, .stays _⟩
      · rw [ended]
        cases ending with
        | ok => exact ⟨.stopped (by simp [exited]), .moves .stop (by decide)⟩
        | error e => exact ⟨.failed (by simp [exited]) e, .fails .failRequested e⟩
    | stopped exited =>
      rw [Worker.step_exited (exited w rfl)]
      exact ⟨.stopped exited, .stays _⟩
    | failed exited e =>
      rw [Worker.step_exited (exited w rfl)]
      exact ⟨.failed exited e, .stays _⟩

theorem proceeds_brokenOff {w : Worker} (h : Sound s.status s.worker) (there : s.worker = some w)
    (going : w.phase ≠ .exited) (text : String) : Proceeds s (s.brokenOff text) := by
  obtain ⟨paths, config, status, queue, worker⟩ := s
  cases there
  cases h with
  | running => exact ⟨.failed (by simp [brokenOff]) _, .fails .failRunning _⟩
  | stopRequested => exact ⟨.failed (by simp [brokenOff]) _, .fails .failRequested _⟩
  | stopped exited | failed exited => exact absurd (exited w rfl) going

theorem rethrow_eq_error_iff (e : WatchError) :
    s.rethrow = .error e ↔ s.status.failure = some e := by
  unfold rethrow
  cases s.status.failure <;> simp

theorem start_eq_ok {State : Type} {backend : Backend State} {disk : Disk} {state : State}
    (h : (s.start backend disk state).1 = .ok ()) :
    s.state = .idle ∧ (s.start backend disk state).2.1.state = .running := by
  unfold start at h ⊢
  split at h
  · cases h
  · rename_i fresh
    split at h
    · cases h
    · split at h
      · cases h
      · rw [if_neg fresh]
        exact ⟨Decidable.not_not.mp fresh, rfl⟩

theorem Sound.follow {State : Type} (h : Sound s.status s.worker) (backend : Backend State)
    (state : State) : Sound (s.follow backend state).status (s.follow backend state).worker :=
  h.map (fun _ => rfl) (fun _ => rfl)

end Service

namespace World

open Service (Sound Proceeds)

variable {State : Type} {backend : Backend State} {w : World State}

theorem proceeds_call (h : Sound w.service.status w.service.worker) (c : Call) :
    Proceeds w.service (w.call backend c).1.service := by
  cases c with
  | start disk => exact Service.proceeds_start h backend disk w.backend
  | requestStop | stop | drop => exact Service.proceeds_requestStop h
  | state | rethrow | pop => exact ⟨h, .stays _⟩

theorem proceeds_join (h : Sound w.service.status w.service.worker) :
    Proceeds w.service w.join.1.service := by
  unfold join
  split
  · rename_i joinable
    cases w.caller with
    | free | gone => exact ⟨h, .stays _⟩
    | stopping | dropping => exact Service.proceeds_joined h joinable
  · exact ⟨h, .stays _⟩

theorem proceeds_work (h : Sound w.service.status w.service.worker) (around : Surroundings) :
    Proceeds w.service (w.work backend around).service := by
  have worked := Service.proceeds_work h around
  unfold work
  generalize w.service.work around = result at worked ⊢
  obtain ⟨service, closed⟩ := result
  cases closed with
  | none => exact worked
  | some handle => exact ⟨worked.1.follow backend _, worked.2⟩

/-- Whatever happens to a service, its status stays or advances. -/
theorem proceeds_act (h : Sound w.service.status w.service.worker) (a : Act State) :
    Proceeds w.service (w.act backend a).1.service := by
  cases a with
  | call c =>
    simp only [act]
    split
    · exact proceeds_call h c
    · exact ⟨h, .stays _⟩
  | join => exact proceeds_join h
  | work around => exact proceeds_work h around
  | send ticket m => exact ⟨h.map (fun _ => rfl) (fun _ => rfl), .stays _⟩
  | change state => exact ⟨h.follow backend state, .stays _⟩
  | panic left text => exact ⟨h.panicked left text, .stays _⟩

/-! ## Along a run -/

theorem sound_make (paths : List Path) (config : Config) (state : State) :
    Sound (make paths config state).service.status (make paths config state).service.worker :=
  .idle

theorem sound_run (h : Sound w.service.status w.service.worker) (acts : List (Act State)) :
    Sound (w.run backend acts).service.status (w.run backend acts).service.worker := by
  induction acts using List.reverseRecOn with
  | nil => exact h
  | append_singleton acts a ih =>
    rw [run_snoc]
    exact (proceeds_act ih a).1

theorem keeps_run {P : Status → Prop} (keeps : ∀ s t, s.Advances t → P s → P t)
    (h : Sound w.service.status w.service.worker) (hp : P w.service.status) (acts : List (Act State)) :
    P (w.run backend acts).service.status := by
  induction acts using List.reverseRecOn with
  | nil => exact hp
  | append_singleton acts a ih =>
    rw [run_snoc]
    exact keeps _ _ (proceeds_act (sound_run h acts) a).2 ih

/-! ## Answers -/

theorem start_ok {disk : Disk}
    (h : (w.act backend (.call (.start disk))).2 = some (.ending (.ok ()))) :
    w.caller = .free ∧ w.state = .idle ∧ (w.act backend (.call (.start disk))).1.state = .running := by
  simp only [act] at h ⊢
  split at h
  · rename_i free
    obtain ⟨idle, running⟩ := Service.start_eq_ok (Answer.ending.inj (Option.some.inj h))
    rw [if_pos free]
    exact ⟨free, idle, running⟩
  · cases h

theorem start_refused (going : w.state ≠ .idle) (free : w.caller = .free) (disk : Disk) :
    w.act backend (.call (.start disk)) = (w, some (.ending (.error .alreadyStarted))) := by
  rw [act, if_pos free, call, Service.start_of_not_idle going]

theorem rethrow_answer {result : Ending}
    (h : (w.act backend (.call .rethrow)).2 = some (.ending result)) : result = w.service.rethrow := by
  simp only [act] at h
  split at h
  · cases h
    rfl
  · cases h

theorem join_answer {result : Ending} (h : (w.act backend .join).2 = some (.ending result)) :
    w.service.isJoinable = true ∧ (w.act backend .join).1.service = w.service.joined ∧
      result = w.service.joined.rethrow := by
  simp only [act, join] at h ⊢
  split at h
  · rename_i joinable
    rw [if_pos joinable]
    cases caller : w.caller with
    | stopping =>
      rw [caller] at h
      cases h
      exact ⟨joinable, rfl, rfl⟩
    | free | gone | dropping =>
      rw [caller] at h
      cases h
  · cases h

/-! ## The life of a service -/

/-- What the life of a service that starts in a world is like, whatever acts come in it. -/
structure Lifecycle (backend : Backend State) (w : World State) : Prop where
  moves (acts : List (Act State)) (a : Act State) :
    (w.run backend (acts ++ [a])).state = (w.run backend acts).state ∨
      (w.run backend acts).state.Moves (w.run backend (acts ++ [a])).state
  /-- Stopped and failed are never left. -/
  final (acts more : List (Act State)) : (w.run backend acts).state.Final →
    (w.run backend (acts ++ more)).state = (w.run backend acts).state
  failure (acts : List (Act State)) :
    (w.run backend acts).service.status.failure.isSome = true ↔ (w.run backend acts).state = .failed
  /-- An error that was thrown once is thrown again each time. -/
  rethrown (acts more : List (Act State)) (e : WatchError) (result : Ending) :
    w.answer backend acts (.call .rethrow) = some (.ending (.error e)) →
    w.answer backend (acts ++ more) (.call .rethrow) = some (.ending result) → result = .error e
  /-- After a start that went well no other does. -/
  once (acts more : List (Act State)) (disk disk' : Disk) :
    w.answer backend acts (.call (.start disk)) = some (.ending (.ok ())) →
    w.answer backend (acts ++ .call (.start disk) :: more) (.call (.start disk')) ≠
      some (.ending (.ok ()))
  /-- A start that comes too late changes nothing. -/
  refused (acts : List (Act State)) (disk : Disk) :
    (w.run backend acts).state ≠ .idle → (w.run backend acts).caller = .free →
    (w.run backend acts).act backend (.call (.start disk)) =
      (w.run backend acts, some (.ending (.error .alreadyStarted)))
  /-- When a stop comes to its end, nothing was ever started, or the service is at its end. -/
  stopped (acts : List (Act State)) (result : Ending) :
    w.answer backend acts .join = some (.ending result) →
    ((w.run backend (acts ++ [.join])).state = .idle ∧
        (∀ before disk after, acts = before ++ .call (.start disk) :: after →
          w.answer backend before (.call (.start disk)) ≠ some (.ending (.ok ()))) ∨
      (w.run backend (acts ++ [.join])).state.Final) ∧
    ((∃ e, result = .error e) ↔ (w.run backend (acts ++ [.join])).state = .failed)

theorem ne_idle_of_started (h : Sound w.service.status w.service.worker) {acts : List (Act State)}
    {disk : Disk} (ok : w.answer backend acts (.call (.start disk)) = some (.ending (.ok ())))
    (more : List (Act State)) :
    (w.run backend (acts ++ .call (.start disk) :: more)).state ≠ .idle := by
  rw [List.append_cons, run_append]
  refine keeps_run (P := fun s => s.state ≠ .idle) (fun _ _ => Status.Advances.ne_idle)
    (sound_run h _) ?_ more
  obtain ⟨_, _, running⟩ := start_ok ok
  change (w.run backend (acts ++ [.call (.start disk)])).state ≠ .idle
  rw [run_snoc, running]
  decide

/-- **Lifecycle.** Whatever its caller, its worker and its backend do, and in whatever order, a new
service has such a life. -/
theorem lifecycle (backend : Backend State) (paths : List Path) (config : Config) (state : State) :
    Lifecycle backend (.make paths config state) := by
  generalize hw : make paths config state = w
  have start : Sound w.service.status w.service.worker := hw ▸ sound_make paths config state
  have sound (acts : List (Act State)) :
      Sound (w.run backend acts).service.status (w.run backend acts).service.worker :=
    sound_run start acts
  constructor
  case moves =>
    intro acts a
    rw [run_snoc]
    exact (proceeds_act (sound acts) a).2.state
  case final =>
    intro acts more final
    rw [run_append]
    refine keeps_run (P := fun s => s.state = (w.run backend acts).state) ?_ (sound acts) rfl more
    intro s t advances same
    rw [← same] at final
    rw [advances.final final, same]
  case failure => exact fun acts => (sound acts).failure
  case rethrown =>
    intro acts more e result thrown again
    rw [rethrow_answer again, Service.rethrow_eq_error_iff, run_append]
    refine keeps_run (P := fun s => s.failure = some e) ?_ (sound acts) ?_ more
    · exact fun s t advances => advances.failure
    · rw [← Service.rethrow_eq_error_iff, ← rethrow_answer thrown]
  case once =>
    intro acts more disk disk' ok again
    exact ne_idle_of_started start ok more (start_ok again).2.1
  case refused =>
    intro acts disk going free
    exact start_refused going free disk
  case stopped =>
    intro acts result answered
    obtain ⟨joinable, after, rfl⟩ := join_answer answered
    have same : (w.run backend (acts ++ [.join])).state = (w.run backend acts).service.status.state := by
      rw [run_snoc, World.state, after]
      rfl
    simp only [Service.rethrow_eq_error_iff, Service.joined]
    rw [same]
    obtain h | h | ⟨e, h⟩ := Service.joinable_cases (sound acts) joinable
    · refine ⟨.inl ⟨by rw [h], ?_⟩, by simp [h]⟩
      rintro before disk rest rfl ok
      exact ne_idle_of_started start ok rest (congrArg Status.state h)
    · exact ⟨.inr (by rw [h]; trivial), by simp [h]⟩
    · exact ⟨.inr (by rw [h]; trivial), by simp [h]⟩

/-- A stop that is asked for while a session is read comes to its end with the service stopped, and one
that is asked for after the root went away with the service failed. -/
example :
    let backend : Backend Nat :=
      ⟨"plain", true, fun _ root _ n => (.ok (.make root n true), n + 1), fun _ n => n, fun _ _ => true⟩
    let disk (here : Bool) : Disk := ⟨.ok, fun _ => here, fun _ => here, fun _ => .ok []⟩
    let w : World Nat := make [⟨[0x2F, 0x61]⟩] ⟨.zero, true, []⟩ 0
    let work (here : Bool) : Act Nat := .work ⟨disk here, .origin, .origin, .handle 0⟩
    let acts (here : Bool) : List (Act Nat) :=
      [.call (.start (disk true)), work here, work here, .call .stop, .join] ++
        List.replicate 9 (work here) ++ [.join]
    ((w.run backend (acts true)).state, (w.run backend (acts true)).caller) = (.stopped, .free) ∧
    ((w.run backend (acts false)).state, (w.run backend (acts false)).caller) = (.failed, .free) := by
  decide +kernel

end World

end DirectoryWatch
