import DirectoryWatch.Program
import DirectoryWatch.Proofs.Service.Ending

/-!
# What a run prints

A run polls its service while the worker, the senders and the backend go on, in whatever order. No
step of the run loses a line or writes one twice, and the run is done only when the worker has ended
and nothing is left in the queue: by then all that the worker pushed was written, and only then a
failure is told.
-/

namespace DirectoryWatch

open Native (Backend Message)

/-- A run, the service that it polls, and the backend of the service. What the worker puts out is kept
on record. -/
structure Watching (State : Type) where
  run : Run
  service : Service
  backend : State
  pushed : List Event
  endings : List Ending

namespace Watching

inductive Act (State : Type) where
  /-- The run takes a step, at a moment of its clock. -/
  | step (now : Moment)
  /-- What goes on beside the run. -/
  | meanwhile (act : World.Act State)
  /-- The run has waited for a thread that panicked before it could tell how it ended. -/
  | breakOff (text : String)

variable {State : Type}

/-- A run whose service was just told to start. -/
def begin (backend : Backend State) (disk : Disk) (line : CommandLine) (config : Config) (state : State)
    (run : Run) : Watching State :=
  let (_, service, state) := (Service.make line.paths config).start backend disk state
  ⟨run, service, state, [], []⟩

/-- The run is the caller of its service. -/
def world (w : Watching State) : World State :=
  ⟨w.service, w.backend, match w.run.phase with | .joining => .stopping | _ => .free⟩

def follow (w : Watching State) (v : World State) : Watching State :=
  { w with service := v.service, backend := v.backend }

def breakOff (w : Watching State) (text : String) : Watching State :=
  { w with
    run := { w.run with phase := .emptying (w.service.brokenOff text).rethrow }
    service := w.service.brokenOff text
    endings := w.endings ++ [.error (.workerPanicked text)] }

/-- What the worker does to others in an act. -/
def effect (w : Watching State) : World.Act State → Worker.Effect
  | .work around => w.service.worker.elim Worker.noEffect fun v => (v.step around).2
  | .call _ | .join | .send _ _ | .change _ | .panic _ _ => Worker.noEffect

/-- Nobody but the run calls the service. -/
def act (backend : Backend State) (w : Watching State) : Act State → Watching State
  | .step now =>
    let (run, service) := w.run.step w.service now
    { w with run, service }
  | .meanwhile a =>
    if a.calls then w
    else
      { w.follow (w.world.act backend a).1 with
        pushed := w.pushed ++ (w.effect a).pushed
        endings := w.endings ++ (w.effect a).ended.toList }
  | .breakOff text =>
    match w.run.phase with
    | .joining => if w.service.isJoinable then w else w.breakOff text
    | .checking | .timing | .polling | .stopping | .emptying _ | .done _ => w

def goOn (backend : Backend State) (w : Watching State) (acts : List (Act State)) : Watching State :=
  acts.foldl (act backend) w

variable {backend : Backend State} {w : Watching State}

theorem goOn_append (acts more : List (Act State)) :
    w.goOn backend (acts ++ more) = (w.goOn backend acts).goOn backend more :=
  List.foldl_append

theorem goOn_snoc (acts : List (Act State)) (a : Act State) :
    w.goOn backend (acts ++ [a]) = (w.goOn backend acts).act backend a :=
  goOn_append acts [a]

/-! ## The service -/

theorem proceeds_step (h : Service.Sound w.service.status w.service.worker) (now : Moment) :
    w.service.Proceeds (w.act backend (.step now)).service := by
  unfold act Run.step
  cases w.run.phase with
  | checking | timing | polling | emptying | done => exact ⟨h, .stays _⟩
  | stopping => exact Service.proceeds_requestStop h
  | joining =>
    dsimp only
    split
    · exact Service.proceeds_joined h ‹_›
    · exact ⟨h, .stays _⟩

theorem act_quiet {a : World.Act State} (others : a.calls = false) (quiet : w.effect a = Worker.noEffect) :
    w.act backend (.meanwhile a) = w.follow (w.world.act backend a).1 := by
  simp [act, others, quiet, Worker.noEffect, follow]

theorem proceeds_meanwhile (h : Service.Sound w.service.status w.service.worker) (a : World.Act State) :
    w.service.Proceeds (w.act backend (.meanwhile a)).service := by
  simp only [act]
  split
  · exact ⟨h, .stays _⟩
  · exact World.proceeds_act (w := w.world) h a

theorem run_meanwhile (a : World.Act State) : (w.act backend (.meanwhile a)).run = w.run := by
  simp only [act]
  split <;> rfl

theorem going_of_not_joinable {s : Service} (waits : ¬ s.isJoinable = true) :
    ∃ v, s.worker = some v ∧ v.phase ≠ .exited := by
  cases there : s.worker with
  | none => simp [Service.isJoinable, there] at waits
  | some v =>
    rw [Service.isJoinable, there, Option.all_some, Worker.isExited_iff] at waits
    exact ⟨v, rfl, waits⟩

theorem act_breakOff (text : String) :
    w.act backend (.breakOff text) = w ∨ w.run.phase = .joining ∧ ¬ w.service.isJoinable = true ∧
      w.act backend (.breakOff text) = w.breakOff text := by
  unfold act
  cases w.run.phase with
  | checking | timing | polling | stopping | emptying | done => exact .inl rfl
  | joining =>
    dsimp only
    split
    · exact .inl rfl
    · exact .inr ⟨rfl, ‹_›, rfl⟩

theorem proceeds_act (h : Service.Sound w.service.status w.service.worker) (a : Act State) :
    w.service.Proceeds (w.act backend a).service := by
  cases a with
  | step now => exact proceeds_step h now
  | meanwhile a => exact proceeds_meanwhile h a
  | breakOff text =>
    obtain same | ⟨_, waits, same⟩ := @act_breakOff _ backend w text <;> rw [same]
    · exact ⟨h, .stays _⟩
    · obtain ⟨v, there, going⟩ := going_of_not_joinable waits
      exact Service.proceeds_brokenOff h there going text

/-! ## The end as a caller sees it -/

theorem endings_of_joinable {s : Service} (sound : Service.Sound s.status s.worker)
    (begun : s.state ≠ .idle) (joinable : s.isJoinable = true) : s.status.endings = [s.rethrow] := by
  obtain idle | stopped | ⟨e, failed⟩ := Service.joinable_cases sound joinable
  · exact absurd (congrArg Status.state idle) begun
  · simp [Status.endings, Service.rethrow, stopped]
  · simp [Status.endings, Service.rethrow, failed]

theorem endings_requestStop (s : Service) : s.requestStop.status.endings = s.status.endings := by
  unfold Service.requestStop
  split
  · rename_i running
    simp [Status.endings, show s.status.state = .running from running]
  · rfl

/-! ## What every act keeps -/

/-- Once the run has waited for the worker there is none, and the run knows how it ended; once the run
is done the queue is empty. -/
def Waited (w : Watching State) : Prop :=
  match w.run.phase with
  | .emptying ending => w.service.worker = none ∧ w.endings = [ending]
  | .done ending =>
    w.service.worker = none ∧ w.endings = [ending] ∧ w.service.queue.buffered = []
  | .checking | .timing | .polling | .stopping | .joining => True

/-- What the run has written and what waits in the queue is what the worker has pushed, and the status
tells how the worker ended. -/
structure Told (w : Watching State) : Prop where
  sound : Service.Sound w.service.status w.service.worker
  begun : w.service.state ≠ .idle
  written : w.run.written ++ Report.lines w.run.format w.service.queue.buffered =
    Report.lines w.run.format w.pushed
  endings : w.service.status.endings = w.endings
  waited : w.Waited

theorem begun_act (h : w.Told) (a : Act State) : (w.act backend a).service.state ≠ .idle :=
  (proceeds_act h.sound a).2.ne_idle h.begun

/-- A step of the run moves lines from the queue to what is written, or leaves both as they are. -/
theorem written_act_step (now : Moment) :
    (w.act backend (.step now)).run.format = w.run.format ∧
    (w.act backend (.step now)).run.written ++
        Report.lines w.run.format (w.act backend (.step now)).service.queue.buffered =
      w.run.written ++ Report.lines w.run.format w.service.queue.buffered := by
  unfold act Run.step
  cases phase : w.run.phase with
  | checking | timing | done => exact ⟨rfl, rfl⟩
  | polling | emptying =>
    refine ⟨rfl, ?_⟩
    simp [Run.empty, Run.write, Service.pop, EventQueue.pop, EventQueue.empty, Report.lines]
  | stopping =>
    refine ⟨rfl, ?_⟩
    simp only [Service.requestStop]
    split <;> rfl
  | joining =>
    dsimp only
    split <;> exact ⟨rfl, rfl⟩

theorem waited_act_step (h : w.Told) (now : Moment) : (w.act backend (.step now)).Waited := by
  have waited := h.waited
  unfold act Run.step
  cases phase : w.run.phase with
  | checking => by_cases running : w.service.isRunning = true <;> simp [Waited, running]
  | timing => by_cases up : w.run.isOver now = true <;> simp [Waited, up]
  | polling | stopping => trivial
  | emptying ending =>
    simp only [Waited, phase] at waited
    exact ⟨waited.1, waited.2, rfl⟩
  | done =>
    unfold Waited at waited ⊢
    rw [phase] at waited ⊢
    exact waited
  | joining =>
    dsimp only
    by_cases joinable : w.service.isJoinable = true
    · rw [if_pos joinable]
      refine ⟨rfl, ?_⟩
      rw [← endings_of_joinable h.sound h.begun joinable, h.endings]
    · rw [if_neg joinable]
      simp [Waited, phase]

theorem status_act_step (now : Moment) :
    (w.act backend (.step now)).service.status.endings = w.service.status.endings := by
  unfold act Run.step
  cases w.run.phase with
  | checking | timing | polling | emptying | done => rfl
  | stopping => exact endings_requestStop w.service
  | joining =>
    dsimp only
    split <;> rfl

theorem told_step (h : w.Told) (now : Moment) : (w.act backend (.step now)).Told := by
  obtain ⟨format, kept⟩ := @written_act_step _ backend w now
  constructor
  case sound => exact (proceeds_act h.sound _).1
  case begun => exact begun_act h _
  case written =>
    rw [format, kept]
    exact h.written
  case endings =>
    rw [status_act_step]
    exact h.endings
  case waited => exact waited_act_step h now

theorem work_of_no_worker (none : w.service.worker = none) (around : Surroundings) :
    w.act backend (.meanwhile (.work around)) = w := by
  rw [act_quiet rfl (by simp [effect, none])]
  simp [follow, world, World.act, World.work, Service.work, none]

theorem told_work (h : w.Told) (around : Surroundings) :
    (w.act backend (.meanwhile (.work around))).Told := by
  cases hv : w.service.worker with
  | none =>
    rw [work_of_no_worker hv]
    exact h
  | some v =>
    have work := Service.work_eq hv around
    have service : (w.act backend (.meanwhile (.work around))).service.queue =
          w.service.queue.push (v.step around).2.pushed ∧
        (w.act backend (.meanwhile (.work around))).service.status =
          (v.step around).2.ended.elim w.service.status w.service.status.finish := by
      cases closed : (v.step around).2.closed <;>
        simp [act, World.Act.calls, follow, world, World.act, World.work, work, closed, World.change,
          Service.follow]
    have effect : w.effect (.work around) = (v.step around).2 := by simp [Watching.effect, hv]
    constructor
    case sound => exact (proceeds_act h.sound _).1
    case begun => exact begun_act h _
    case written =>
      change w.run.written ++
          Report.lines w.run.format (w.act backend (.meanwhile (.work around))).service.queue.buffered =
        Report.lines w.run.format (w.pushed ++ (w.effect (.work around)).pushed)
      rw [service.1, EventQueue.buffered_push, effect, Report.lines_append, Report.lines_append,
        ← h.written, List.append_assoc]
    case endings =>
      change (w.act backend (.meanwhile (.work around))).service.status.endings =
        w.endings ++ (w.effect (.work around)).ended.toList
      rw [service.2, effect, ← h.endings]
      exact World.endings_work (w := w.world) h.sound hv around
    case waited =>
      -- A worker is there, so the run has not waited for it.
      have waited := h.waited
      change Waited { w with service := _, backend := _, pushed := _, endings := _ }
      unfold Waited at waited ⊢
      cases phase : w.run.phase with
      | checking | timing | polling | stopping | joining => trivial
      | emptying | done =>
        rw [phase, hv] at waited
        cases waited.1

theorem told_map (h : w.Told) {f : Worker → Worker}
    (sound : Service.Sound w.service.status (w.service.worker.map f)) (state : State) :
    Told { w with service := { w.service with worker := w.service.worker.map f }, backend := state } := by
  refine ⟨sound, h.begun, h.written, h.endings, ?_⟩
  have waited := h.waited
  unfold Waited at waited ⊢
  cases phase : w.run.phase with
  | checking | timing | polling | stopping | joining => trivial
  | emptying | done =>
    rw [phase] at waited
    simpa using waited

theorem told_meanwhile (h : w.Told) (a : World.Act State) : (w.act backend (.meanwhile a)).Told := by
  cases a with
  | call | join => exact h
  | work around => exact told_work h around
  | send ticket m =>
    rw [act_quiet rfl rfl]
    exact told_map (f := fun v => v.onHandle ticket fun handle => handle.send m) h
      (h.sound.map (fun _ => rfl) fun _ => rfl) w.backend
  | change state =>
    rw [act_quiet rfl rfl]
    exact told_map (f := fun v => { v with sessions := v.sessions.map (Session.follow backend state) }) h
      (h.sound.map (fun _ => rfl) fun _ => rfl) state
  | panic left text =>
    rw [act_quiet rfl rfl]
    exact told_map h (h.sound.panicked left text) w.backend

theorem told_breakOff (h : w.Told) (text : String) : (w.act backend (.breakOff text)).Told := by
  have sound := (@proceeds_act _ backend _ h.sound (.breakOff text)).1
  have begun := @begun_act _ backend _ h (.breakOff text)
  obtain same | ⟨_, waits, same⟩ := @act_breakOff _ backend w text <;> rw [same] at sound begun ⊢
  · exact h
  · obtain ⟨v, there, going⟩ := going_of_not_joinable waits
    have here := h.sound
    rw [there] at here
    obtain ⟨none, finish⟩ := here.endings_eq_nil going
    have endings : (w.service.brokenOff text).status.endings = (w.breakOff text).endings := by
      simp [breakOff, ← h.endings, none, Service.brokenOff, finish]
    refine ⟨sound, begun, h.written, endings, rfl, ?_⟩
    rw [← endings]
    exact endings_of_joinable sound begun rfl

theorem told_act (h : w.Told) (a : Act State) : (w.act backend a).Told := by
  cases a with
  | step now => exact told_step h now
  | meanwhile a => exact told_meanwhile h a
  | breakOff text => exact told_breakOff h text

theorem told_goOn (h : w.Told) (acts : List (Act State)) : (w.goOn backend acts).Told := by
  induction acts using List.reverseRecOn with
  | nil => exact h
  | append_singleton acts a ih =>
    rw [goOn_snoc]
    exact told_act ih a

theorem format_goOn (acts : List (Act State)) :
    (w.goOn backend acts).run.format = w.run.format := by
  induction acts using List.reverseRecOn with
  | nil => rfl
  | append_singleton acts a ih =>
    rw [goOn_snoc, ← ih]
    cases a with
    | step now => exact (@written_act_step _ backend _ now).1
    | meanwhile a => rw [run_meanwhile]
    | breakOff text =>
      obtain same | ⟨_, _, same⟩ := @act_breakOff _ backend (w.goOn backend acts) text <;> rw [same]
      rfl

/-! ## The end of a run -/

theorem still_act (h : w.Told) {ending : Ending} (done : w.run.phase = .done ending) (a : Act State) :
    (w.act backend a).run = w.run ∧ (w.act backend a).pushed = w.pushed := by
  have waited := h.waited
  rw [Waited, done] at waited
  cases a with
  | step now => simp [act, Run.step, done]
  | meanwhile a =>
    refine ⟨run_meanwhile a, ?_⟩
    cases a with
    | call | join => rfl
    | work around => rw [work_of_no_worker waited.1]
    | send | change | panic =>
      rw [act_quiet rfl rfl]
      rfl
  | breakOff text => simp [act, done]

theorem still_goOn (h : w.Told) {ending : Ending} (done : w.run.phase = .done ending)
    (acts : List (Act State)) :
    (w.goOn backend acts).run = w.run ∧ (w.goOn backend acts).pushed = w.pushed := by
  induction acts using List.reverseRecOn with
  | nil => exact ⟨rfl, rfl⟩
  | append_singleton acts a ih =>
    obtain ⟨run, pushed⟩ := still_act (told_goOn h acts) (by rw [ih.1]; exact done) a
    rw [goOn_snoc]
    exact ⟨run.trans ih.1, pushed.trans ih.2⟩

/-- The steps that a run takes at most, once its worker has ended. -/
def stepsLeft : Run.Phase → Nat
  | .timing => 6
  | .polling => 5
  | .checking => 4
  | .stopping => 3
  | .joining => 2
  | .emptying _ => 1
  | .done _ => 0

def Act.isStep : Act State → Bool
  | .step _ => true
  | .meanwhile _ | .breakOff _ => false

theorem joinable_of_final {s : Service} (sound : Service.Sound s.status s.worker)
    (final : s.status.state.Final) : s.isJoinable = true := by
  unfold Service.isJoinable
  cases hv : s.worker with
  | none => rfl
  | some v =>
    rw [hv] at sound
    rw [Option.all_some, Worker.isExited_iff]
    exact sound.exited final

theorem stepsLeft_step (h : w.Told) (final : w.service.state.Final) (now : Moment) :
    stepsLeft (w.act backend (.step now)).run.phase ≤ stepsLeft w.run.phase - 1 := by
  have halted : w.service.isRunning = false := by
    unfold Service.isRunning
    cases state : w.service.state <;> simp_all [ServiceState.Final]
  unfold act Run.step
  cases phase : w.run.phase with
  | checking => simp [halted, stepsLeft]
  | timing => by_cases up : w.run.isOver now = true <;> simp [up, stepsLeft]
  | polling | emptying | stopping => simp [Run.empty, stepsLeft]
  | joining => simp [joinable_of_final h.sound final, stepsLeft]
  | done => simp [phase, stepsLeft]

theorem stepsLeft_act (h : w.Told) (final : w.service.state.Final) (a : Act State) :
    stepsLeft (w.act backend a).run.phase ≤ stepsLeft w.run.phase - [a].countP Act.isStep := by
  rw [List.countP_singleton]
  cases a with
  | step now => exact stepsLeft_step h final now
  | meanwhile a =>
    rw [run_meanwhile]
    exact Nat.le_refl _
  | breakOff text =>
    obtain same | ⟨joining, _, same⟩ := @act_breakOff _ backend w text <;> rw [same]
    · exact Nat.le_refl _
    · simp [joining, breakOff, stepsLeft, Act.isStep]

theorem stepsLeft_goOn (h : w.Told) (final : w.service.state.Final) (acts : List (Act State)) :
    (w.goOn backend acts).service.state.Final ∧
    stepsLeft (w.goOn backend acts).run.phase ≤ stepsLeft w.run.phase - acts.countP Act.isStep := by
  induction acts using List.reverseRecOn with
  | nil => exact ⟨final, Nat.le_refl _⟩
  | append_singleton acts a ih =>
    have told : (w.goOn backend acts).Told := told_goOn h acts
    have still :
        ((w.goOn backend acts).act backend a).service.state = (w.goOn backend acts).service.state :=
      (proceeds_act told.sound a).2.final ih.1
    have one := @stepsLeft_act _ backend _ told ih.1 a
    rw [goOn_snoc, still, List.countP_append]
    exact ⟨ih.1, by omega⟩

theorem done_of_stepsLeft {phase : Run.Phase} (none : stepsLeft phase = 0) :
    ∃ ending, phase = .done ending := by
  cases phase with
  | done ending => exact ⟨ending, rfl⟩
  | checking | timing | polling | stopping | joining | emptying => cases none

/-- How the program ends with the lines that it has written, once its worker has ended. -/
def concluded (written : List String) : Ending → Outcome
  | .ok () => .shown written
  | .error e => .failed written (.watching e)

theorem outcome_eq_some_iff (r : Run) (o : Outcome) :
    r.outcome? = some o ↔ ∃ ending, r.phase = .done ending ∧ o = concluded r.written ending := by
  unfold Run.outcome?
  cases phase : r.phase with
  | checking | timing | polling | stopping | joining | emptying => simp
  | done ending => cases ending <;> simp [concluded, eq_comm]

/-- What a run prints, whatever acts come and in whatever order. -/
structure Printed (backend : Backend State) (w : Watching State) : Prop where
  /-- What was written and what waits in the queue is what the worker has pushed. -/
  along (acts : List (Act State)) :
    (w.goOn backend acts).run.written ++
        Report.lines w.run.format (w.goOn backend acts).service.queue.buffered =
      Report.lines w.run.format (w.goOn backend acts).pushed
  /-- A run that gives its outcome has written all that was pushed, and it fails if the worker did. -/
  outcome (acts : List (Act State)) (o : Outcome) : (w.goOn backend acts).run.outcome? = some o →
    ∃ ending, (w.goOn backend acts).endings = [ending] ∧
      o = concluded (Report.lines w.run.format (w.goOn backend acts).pushed) ending
  /-- Nothing is written or pushed later. -/
  last (acts more : List (Act State)) (o : Outcome) : (w.goOn backend acts).run.outcome? = some o →
    (w.goOn backend (acts ++ more)).run = (w.goOn backend acts).run ∧
      (w.goOn backend (acts ++ more)).pushed = (w.goOn backend acts).pushed
  /-- Once the worker has ended, a few steps bring the run to its outcome. -/
  returns (acts more : List (Act State)) : (w.goOn backend acts).service.state.Final →
    6 ≤ more.countP Act.isStep → ∃ o, (w.goOn backend (acts ++ more)).run.outcome? = some o

theorem fresh_of_start {line : CommandLine} {now : Moment} {run : Run}
    (begun : Run.start line now = .ok run) : run.written = [] ∧ run.phase = .checking := by
  unfold Run.start at begun
  cases limit : line.duration with
  | none =>
    rw [limit] at begun
    cases begun
    exact ⟨rfl, rfl⟩
  | some seconds =>
    simp only [limit] at begun
    cases up : now.add? (.ofSeconds seconds) with
    | none =>
      rw [up] at begun
      cases begun
    | some deadline =>
      rw [up] at begun
      cases begun
      exact ⟨rfl, rfl⟩

theorem told_begin {line : CommandLine} {config : Config} {disk : Disk} {now : Moment} {state : State}
    {run : Run} (begun : Run.start line now = .ok run)
    (started : ((Service.make line.paths config).start backend disk state).1 = .ok ()) :
    (begin backend disk line config state run).Told := by
  have sound := (Service.proceeds_start (s := .make line.paths config) .idle backend disk state).1
  obtain ⟨sessions, _, _, same⟩ := Service.service_of_start_ok started
  obtain ⟨unwritten, checking⟩ := fresh_of_start begun
  constructor
  case sound => exact sound
  case begun => simp [begin, same, Service.state]
  case written =>
    simp only [begin, same, unwritten, List.nil_append]
    rfl
  case endings => simp [begin, same, Status.endings]
  case waited => simp [Waited, begin, checking]

/-- **What a run prints.** -/
theorem printed (backend : Backend State) (disk : Disk) (line : CommandLine) (config : Config)
    (now : Moment) (state : State) {run : Run} (begun : Run.start line now = .ok run)
    (started : ((Service.make line.paths config).start backend disk state).1 = .ok ()) :
    Printed backend (begin backend disk line config state run) := by
  have start : (begin backend disk line config state run).Told := told_begin begun started
  generalize begin backend disk line config state run = w at start
  have told (acts : List (Act State)) : (w.goOn backend acts).Told := told_goOn start acts
  have along (acts : List (Act State)) := (told acts).written
  simp only [format_goOn] at along
  constructor
  case along => exact along
  case outcome =>
    intro acts o given
    obtain ⟨ending, done, rfl⟩ := (outcome_eq_some_iff _ o).mp given
    have waited := (told acts).waited
    have written := along acts
    rw [Waited, done] at waited
    rw [waited.2.2, Report.lines, List.map_nil, List.append_nil] at written
    exact ⟨ending, waited.2.1, by rw [written]⟩
  case last =>
    intro acts more o given
    obtain ⟨ending, done, _⟩ := (outcome_eq_some_iff _ o).mp given
    rw [goOn_append]
    exact still_goOn (told acts) done more
  case returns =>
    intro acts more final enough
    obtain ⟨_, left⟩ := @stepsLeft_goOn _ backend _ (told acts) final more
    have most : stepsLeft (w.goOn backend acts).run.phase ≤ 6 := by
      cases (w.goOn backend acts).run.phase <;> simp [stepsLeft]
    rw [← goOn_append] at left
    have none : stepsLeft (w.goOn backend (acts ++ more)).run.phase = 0 := by omega
    obtain ⟨ending, done⟩ := done_of_stepsLeft none
    exact ⟨_, (outcome_eq_some_iff _ _).mpr ⟨ending, done, rfl⟩⟩

/-- The native layer fails while a change is still in its batch: the change is printed, and then the
run fails. -/
theorem printed_failed :
    let backend : Backend Nat :=
      ⟨"plain", true, fun _ root _ n => (.ok (.make root n true), n + 1), fun _ n => n, fun _ _ => true⟩
    let disk : Disk := ⟨.ok, fun _ => true, fun _ => true, fun _ => .ok []⟩
    let a : Path := ⟨[0x2F, 0x61]⟩
    let line : CommandLine := { CommandLine.blank with paths := [a], duration := some 5 }
    let error : Native.Error := ⟨.tooManyWatches, []⟩
    let work : Act Nat := .meanwhile (.work ⟨disk, .origin, .origin, .handle 0⟩)
    let send (m : Message) : Act Nat := .meanwhile (.send 0 m)
    let step : Act Nat := .step .origin
    let run : Run := ⟨.human, some ⟨5, ⟨0, by decide⟩⟩, .checking, []⟩
    let acts : List (Act Nat) :=
      [send (.record ⟨.create, [a], false⟩), work, work, work, work, work, step, step, step,
        send (.error error), work, work, step, step, work, work, step, step, step, step, step]
    Run.start line .origin = .ok run ∧
    ((Service.make line.paths .default).start backend disk 0).1 = .ok () ∧
    ((begin backend disk line .default 0 run).goOn backend acts).run.outcome? =
      some (.failed [Report.humanLine ⟨a, .created, .origin⟩] (.watching (.native a error))) ∧
    Printed backend (begin backend disk line .default 0 run) := by
  intro backend disk a line error work send step run acts
  have begun : Run.start line .origin = .ok run := by rfl
  have started : ((Service.make line.paths .default).start backend disk 0).1 = .ok () := by rfl
  refine ⟨begun, started, by decide +kernel, ?_⟩
  exact printed backend disk line .default .origin 0 begun started

end Watching

end DirectoryWatch
