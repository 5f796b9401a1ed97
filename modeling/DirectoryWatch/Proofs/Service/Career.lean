import DirectoryWatch.Proofs.Service.Start
import DirectoryWatch.Proofs.Worker.Ending

/-!
# The worker among others

What happens to a service is, to the worker that it started, a history: its own steps, the messages,
the stop, and the sending sides that operations of the backend take away. A panic that the worker
catches breaks the history in two. What the worker puts out along it is what the caller has taken from
the queue and what still waits there.
-/

namespace DirectoryWatch

open Native (Backend Handle)

/-! ## Sending sides that go away -/

namespace Worker

variable {State : Type} {w : Worker}

/-- The sending sides that an operation of the backend takes away from a worker. -/
def lost (backend : Backend State) (state : State) (w : Worker) : List Occurrence :=
  ((w.handles.map Handle.ticket).filter fun ticket => !backend.holds state ticket).map .severed

theorem run_severed (tickets : List Nat) :
    w.run (tickets.map .severed) =
      { w with
        sessions := w.sessions.map fun s =>
          if s.handle.ticket ∈ tickets then { s with handle := s.handle.disconnect } else s } := by
  induction tickets using List.reverseRecOn with
  | nil => simp [run]
  | append_singleton tickets ticket ih =>
    rw [List.map_append, List.map_singleton, run_snoc, ih]
    simp only [undergo, onHandle, List.map_map, mk.injEq, and_true]
    apply List.map_congr_left
    intro s _
    by_cases mine : s.handle.ticket = ticket <;> by_cases among : s.handle.ticket ∈ tickets <;>
      simp_all [Handle.disconnect]

theorem run_lost (backend : Backend State) (state : State) (w : Worker) :
    w.run (w.lost backend state) =
      { w with sessions := w.sessions.map (Session.follow backend state) } := by
  rw [lost, run_severed]
  congr 1
  apply List.map_congr_left
  intro s hs
  have mem : s.handle.ticket ∈ w.handles.map Handle.ticket := by
    unfold handles
    exact List.mem_map_of_mem (List.mem_map_of_mem hs)
  unfold Session.follow Handle.follow
  cases held : backend.holds state s.handle.ticket <;> simp [List.mem_filter, mem, held]

theorem outside_of_mem_lost {backend : Backend State} {state : State} {o : Occurrence}
    (h : o ∈ w.lost backend state) (around : Surroundings) : o ≠ .step around := by
  obtain ⟨ticket, _, rfl⟩ := List.mem_map.mp h
  simp

theorem noted_outside {history : List Occurrence}
    (outside : ∀ o ∈ history, ∀ around, o ≠ .step around) :
    noted next outputOf w history = [] ∧ noted next endingOf w history = [] := by
  induction history generalizing w with
  | nil => exact ⟨rfl, rfl⟩
  | cons o rest ih =>
    obtain ⟨output, endings⟩ :=
      ih (w := (w.undergo o).1) fun o mem => outside o (List.mem_cons_of_mem _ mem)
    rw [noted, noted, output, endings]
    cases o with
    | step around => exact absurd rfl (outside _ List.mem_cons_self around)
    | sent | severed | stop | signalLost => exact ⟨rfl, rfl⟩

end Worker

/-! ## The end as the status tells it -/

/-- How the worker ended. -/
def Status.endings (s : Status) : List Ending :=
  match s.state with
  | .stopped => [.ok ()]
  | .failed => (s.failure.map Except.error).toList
  | .idle | .running | .stopRequested => []

namespace Service

variable {status : Status} {v : Worker}

theorem Sound.endings_eq_nil (h : Sound status (some v)) (going : v.phase ≠ .exited) :
    status.endings = [] ∧ ∀ ending, (status.finish ending).endings = [ending] := by
  cases h with
  | running | stopRequested =>
    refine ⟨rfl, fun ending => ?_⟩
    cases ending <;> rfl
  | stopped exited | failed exited => exact absurd (exited v rfl) going

theorem Sound.ne_idle (h : Sound status (some v)) : status.state ≠ .idle := by
  cases h <;> simp

theorem work_eq {s : Service} (hv : s.worker = some v) (around : Surroundings) :
    s.work around =
      ({ s with
          worker := some (v.step around).1
          queue := s.queue.push (v.step around).2.pushed
          status := (v.step around).2.ended.elim s.status s.status.finish },
        (v.step around).2.closed) := by
  simp [work, hv, heed]

end Service

namespace World

open Service (Sound)
open Worker (Occurrence Outset outputOf endingOf)

variable {State : Type} {backend : Backend State} {w : World State} {v : Worker}

/-! ## What acts are to the worker -/

def Call.stops : Call → Bool
  | .requestStop | .stop | .drop => true
  | .start _ | .state | .rethrow | .pop => false

/-- What an act is to the worker. -/
def occurring (backend : Backend State) (w : World State) (a : Act State) : List Occurrence :=
  match w.service.worker with
  | none => []
  | some v =>
    match a with
    | .work around =>
      .step around ::
        (v.step around).2.closed.elim [] fun h =>
          (v.step around).1.lost backend (backend.release h w.backend)
    | .send ticket m => [.sent ticket m]
    | .change state => v.lost backend state
    | .call c => if w.caller = .free ∧ c.stops = true ∧ w.state = .running then [.stop] else []
    | .join | .panic _ _ => []

/-- The history of the worker along some acts. -/
def history (backend : Backend State) (w : World State) (acts : List (Act State)) : List Occurrence :=
  noted (next backend) (occurring backend) w acts

def poppedOf (backend : Backend State) (w : World State) (a : Act State) : List Event :=
  match (w.act backend a).2 with
  | some (.events events) => events
  | some .done | some (.ending _) | some (.state _) | none => []

/-- What the caller has taken from the queue, and what waits there. -/
def delivered (backend : Backend State) (w : World State) (acts : List (Act State)) : List Event :=
  noted (next backend) (poppedOf backend) w acts ++ (w.run backend acts).service.queue.buffered

/-! ## An act and the worker -/

/-- The worker catches no panic. -/
def Act.Calm (v : Worker) : Act State → Prop
  | .panic left _ => ¬ v.MayLeave left
  | .call _ | .join | .work _ | .send _ _ | .change _ => True

theorem calm_of_closing {a : Act State} (closing : v.phase.Closing) : a.Calm v := by
  cases a with
  | panic => exact fun possible => Worker.open_of_looping possible.1 closing
  | call | join | work | send | change => trivial

theorem caught_of_not_calm {a : Act State} (h : ¬ a.Calm v) :
    ∃ left text, a = .panic left text ∧ v.MayLeave left := by
  cases a with
  | panic left text => exact ⟨left, text, rfl, Decidable.not_not.mp h⟩
  | call | join | work | send | change => exact absurd trivial h

/-- The worker goes through its part of an act, or was waited for at its end. -/
structure Undergone (backend : Backend State) (w : World State) (v : Worker) (a : Act State) : Prop where
  worker : (w.act backend a).1.service.worker = some (v.run (w.occurring backend a)) ∨
    (w.act backend a).1.service.worker = none ∧ v.phase = .exited ∧ w.occurring backend a = []
  output : w.poppedOf backend a ++ (w.act backend a).1.service.queue.buffered =
    w.service.queue.buffered ++ noted Worker.next outputOf v (w.occurring backend a)
  endings : (w.act backend a).1.service.status.endings =
    w.service.status.endings ++ noted Worker.next endingOf v (w.occurring backend a)

theorem endings_work (h : Sound w.service.status w.service.worker) (hv : w.service.worker = some v)
    (around : Surroundings) :
    ((v.step around).2.ended.elim w.service.status w.service.status.finish).endings =
      w.service.status.endings ++ (v.step around).2.ended.toList := by
  rw [hv] at h
  by_cases gone : v.phase = .exited
  · rw [Worker.step_exited gone]
    simp [Worker.noEffect]
  · obtain ⟨none, finish⟩ := h.endings_eq_nil gone
    cases (v.step around).2.ended with
    | none => simp
    | some ending => simp [none, finish]

theorem undergone_work (h : Sound w.service.status w.service.worker) (hv : w.service.worker = some v)
    (around : Surroundings) : Undergone backend w v (.work around) := by
  have ended := endings_work h hv around
  have work := Service.work_eq hv around
  cases closed : (v.step around).2.closed with
  | none =>
    have one : w.occurring backend (.work around) = [.step around] := by simp [occurring, hv, closed]
    constructor
    · left
      rw [one]
      simp [act, World.work, work, closed, Worker.run, Worker.next, Worker.undergo]
    · rw [one]
      simp [act, poppedOf, World.work, work, closed, noted, outputOf, Worker.undergo]
    · rw [one]
      simpa [act, World.work, work, closed, noted, endingOf, Worker.undergo] using ended
  | some handle =>
    -- The backend releases the watch, and that may take sending sides away.
    generalize hs : backend.release handle w.backend = state
    have all : w.occurring backend (.work around) =
        .step around :: (v.step around).1.lost backend state := by simp [occurring, hv, closed, hs]
    obtain ⟨output, endings⟩ := Worker.noted_outside (w := (v.step around).1)
      fun o (mem : o ∈ (v.step around).1.lost backend state) => Worker.outside_of_mem_lost mem
    have run := Worker.run_lost backend state (v.step around).1
    constructor
    · left
      rw [all, ← List.singleton_append, Worker.run_append]
      simp [act, World.work, work, closed, hs, change, Service.follow, Worker.run, Worker.next,
        Worker.undergo] at run ⊢
      exact run.symm
    · rw [all, noted, Worker.next, Worker.undergo, output]
      simp [act, poppedOf, World.work, work, closed, change, Service.follow, outputOf, Worker.undergo]
    · rw [all, noted, Worker.next, Worker.undergo, endings, List.append_nil]
      simpa [act, World.work, work, closed, change, Service.follow, endingOf, Worker.undergo] using ended

/-- Nothing happens to the worker, the queue or the status. -/
structure Still (backend : Backend State) (w : World State) (a : Act State) : Prop where
  worker : (w.act backend a).1.service.worker = w.service.worker
  output : w.poppedOf backend a ++ (w.act backend a).1.service.queue.buffered =
    w.service.queue.buffered
  status : (w.act backend a).1.service.status = w.service.status

theorem still_of_service {a : Act State} (same : (w.act backend a).1.service = w.service)
    (unpopped : w.poppedOf backend a = []) : Still backend w a := by
  constructor
  · rw [same]
  · rw [same, unpopped, List.nil_append]
  · rw [same]

theorem still_pop (free : w.caller = .free) : Still backend w (.call .pop) := by
  constructor
  · simp [act, free, call, Service.pop]
  · simp [poppedOf, act, free, call, Service.pop, EventQueue.pop, EventQueue.empty]
  · simp [act, free, call, Service.pop]

theorem undergone_of_still {a : Act State} (hv : w.service.worker = some v)
    (nothing : w.occurring backend a = []) (still : Still backend w a) : Undergone backend w v a := by
  constructor
  · left
    rw [still.worker, hv, nothing, Worker.run, List.foldl_nil]
  · rw [nothing, still.output, noted, List.append_nil]
  · rw [nothing, still.status, noted, List.append_nil]

theorem undergone_stops (hv : w.service.worker = some v) (free : w.caller = .free) {c : Call}
    (stops : c.stops = true) (same : (w.act backend (.call c)).1.service = w.service.requestStop)
    (unpopped : w.poppedOf backend (.call c) = []) : Undergone backend w v (.call c) := by
  by_cases running : w.state = .running
  · have one : w.occurring backend (.call c) = [.stop] := by simp [occurring, hv, free, stops, running]
    have requested : w.service.requestStop =
        { w.service with
          status := { w.service.status with state := .stopRequested }, worker := some v.stop } := by
      simp [Service.requestStop, show w.service.state = .running from running, hv]
    have unended : w.service.status.endings = [] := by
      simp [Status.endings, show w.service.status.state = .running from running]
    constructor
    · left
      rw [same, requested, one, Worker.run, List.foldl_cons, List.foldl_nil, Worker.next,
        Worker.undergo]
    · rw [same, requested, one, unpopped]
      simp [noted, outputOf, Worker.undergo, Worker.noEffect]
    · rw [same, requested, one, unended]
      simp [Status.endings, noted, endingOf, Worker.undergo, Worker.noEffect]
  · have nothing : w.occurring backend (.call c) = [] := by simp [occurring, hv, running]
    rw [Service.requestStop_of_not_running running] at same
    exact undergone_of_still hv nothing (still_of_service same unpopped)

theorem undergone_call (h : Sound w.service.status w.service.worker) (hv : w.service.worker = some v)
    (c : Call) : Undergone backend w v (.call c) := by
  have going : w.service.state ≠ .idle := (hv ▸ h).ne_idle
  by_cases free : w.caller = .free
  · cases c with
    | requestStop | stop | drop =>
      exact undergone_stops hv free rfl (by simp [act, free, call]) (by simp [poppedOf, act, free, call])
    | start disk =>
      have refused : w.act backend (.call (.start disk)) = _ := start_refused going free disk
      apply undergone_of_still hv (by simp [occurring, hv, Call.stops])
      exact still_of_service (by rw [refused]) (by simp [poppedOf, refused])
    | state | rethrow =>
      apply undergone_of_still hv (by simp [occurring, hv, Call.stops])
      apply still_of_service <;> simp [act, free, call, poppedOf]
    | pop => exact undergone_of_still hv (by simp [occurring, hv, Call.stops]) (still_pop free)
  · apply undergone_of_still hv (by simp [occurring, hv, free])
    apply still_of_service <;> simp [act, free, poppedOf]

theorem undergone_join (hv : w.service.worker = some v) : Undergone backend w v .join := by
  have nothing : w.occurring backend .join = [] := by simp [occurring, hv]
  by_cases joinable : w.service.isJoinable = true
  · have exited : v.phase = .exited := by
      rwa [Service.isJoinable, hv, Option.all_some, Worker.isExited_iff] at joinable
    cases caller : w.caller with
    | free | gone =>
      apply undergone_of_still hv nothing
      apply still_of_service <;> simp [act, join, joinable, caller, poppedOf]
    | stopping | dropping =>
      constructor
      · right
        exact ⟨by simp [act, join, joinable, caller, Service.joined], exited, nothing⟩
      · rw [nothing]
        simp [act, join, joinable, caller, poppedOf, Service.joined, noted]
      · rw [nothing]
        simp [act, join, joinable, caller, Service.joined, noted]
  · apply undergone_of_still hv nothing
    apply still_of_service <;> simp [act, join, joinable, poppedOf]

theorem undergone_act (h : Sound w.service.status w.service.worker) (hv : w.service.worker = some v)
    {a : Act State} (calm : a.Calm v) : Undergone backend w v a := by
  cases a with
  | panic left text =>
    have same : v.panicked left text = v := by rw [Worker.panicked, if_neg calm]
    apply undergone_of_still hv (by simp [occurring, hv])
    apply still_of_service
    · change { w.service with worker := w.service.worker.map fun (v : Worker) => v.panicked left text } = _
      rw [hv, Option.map_some, same, ← hv]
    · simp [poppedOf, act]
  | call c => exact undergone_call h hv c
  | join => exact undergone_join hv
  | work around => exact undergone_work h hv around
  | send ticket m =>
    have one : w.occurring backend (.send ticket m) = [.sent ticket m] := by simp [occurring, hv]
    constructor
    · left
      rw [one]
      simp [act, Service.deliver, hv, Worker.run, Worker.next, Worker.undergo]
    · rw [one]
      simp [act, poppedOf, Service.deliver, noted, outputOf, Worker.undergo, Worker.noEffect]
    · rw [one]
      simp [act, Service.deliver, noted, endingOf, Worker.undergo, Worker.noEffect]
  | change state =>
    have all : w.occurring backend (.change state) = v.lost backend state := by simp [occurring, hv]
    obtain ⟨output, endings⟩ :=
      Worker.noted_outside (w := v) fun o (mem : o ∈ v.lost backend state) =>
        Worker.outside_of_mem_lost mem
    constructor
    · left
      rw [all, Worker.run_lost]
      simp [act, change, Service.follow, hv]
    · rw [all, output]
      simp [act, poppedOf, change, Service.follow]
    · rw [all, endings]
      simp [act, change, Service.follow]

/-! ## An act without a worker -/

theorem ne_running_of_no_worker (h : Sound w.service.status w.service.worker)
    (none : w.service.worker = none) : w.service.state ≠ .running := by
  rw [none] at h
  generalize hs : w.service.status = status at h
  cases h <;> simp [Service.state, hs]

theorem still_or_started (backend : Backend State) (h : Sound w.service.status w.service.worker)
    (none : w.service.worker = none) (a : Act State) :
    Still backend w a ∨
      ∃ disk, a = .call (.start disk) ∧ (w.act backend a).2 = some (.ending (.ok ())) := by
  have unstopped := Service.requestStop_of_not_running (ne_running_of_no_worker h none)
  cases a with
  | join =>
    left
    cases caller : w.caller <;> constructor <;>
      simp [act, join, caller, Service.isJoinable, none, Service.joined, poppedOf]
  | work around =>
    left
    apply still_of_service <;> simp [act, World.work, Service.work, none, poppedOf]
  | send | panic =>
    left
    constructor <;> simp [act, Service.deliver, Service.panicked, none, poppedOf]
  | change state =>
    left
    constructor <;> simp [act, change, Service.follow, none, poppedOf]
  | call c =>
    by_cases free : w.caller = .free
    · cases c with
      | requestStop | stop | drop =>
        left
        apply still_of_service <;> simp [act, free, call, unstopped, poppedOf]
      | state | rethrow =>
        left
        apply still_of_service <;> simp [act, free, call, poppedOf]
      | pop => exact .inl (still_pop free)
      | start disk =>
        cases result : (w.service.start backend disk w.backend).1 with
        | ok => exact .inr ⟨disk, rfl, by simp [act, free, call, result]⟩
        | error e =>
          left
          have same := Service.service_of_start_error result
          apply still_of_service <;> simp [act, free, call, same, poppedOf]
    · left
      apply still_of_service <;> simp [act, free, poppedOf]

theorem paths_act (a : Act State) : (w.act backend a).1.service.paths = w.service.paths := by
  cases a with
  | call c =>
    by_cases free : w.caller = .free
    · cases c with
      | requestStop | stop | drop =>
        simp only [act, if_pos free, call, Service.requestStop]
        split <;> rfl
      | state | rethrow | pop => simp [act, free, call, Service.pop]
      | start disk =>
        simp only [act, if_pos free, call]
        cases result : (w.service.start backend disk w.backend).1 with
        | ok =>
          obtain ⟨_, _, _, started⟩ := Service.service_of_start_ok result
          rw [started]
        | error => rw [Service.service_of_start_error result]
    · simp [act, free]
  | join =>
    simp only [act, join]
    split
    · cases w.caller <;> rfl
    · rfl
  | work around =>
    cases hv : w.service.worker with
    | none => simp [act, World.work, Service.work, hv]
    | some v =>
      have work := Service.work_eq hv around
      cases closed : (v.step around).2.closed <;>
        simp [act, World.work, work, closed, change, Service.follow]
  | send | change | panic => rfl

/-! ## The career of a worker -/

/-- The panic with which a history begins is one of the acts. -/
def Panicked (backend : Backend State) (w : World State) (acts : List (Act State)) : Outset → Prop
  | .started _ => True
  | .caught _ before left text _ => ∃ earlier later, acts = earlier ++ .panic left text :: later ∧
    w.history backend earlier = before

/-- The life of the worker that was started along some acts: a history of fresh sessions, broken in two
if it caught a panic, from which come the worker as it is, all that was put into the queue, and the end
that the status tells. -/
structure Career (backend : Backend State) (w : World State) (acts : List (Act State))
    (outset : Outset) (history : List Occurrence) : Prop where
  fresh : ∀ s ∈ outset.sessions, s.Fresh
  length : outset.sessions.length = w.service.paths.length
  begun : ∃ before disk after, acts = before ++ .call (.start disk) :: after ∧
    w.answer backend before (.call (.start disk)) = some (.ending (.ok ())) ∧
    (w.run backend (before ++ [.call (.start disk)])).service.worker = some (.start outset.sessions)
  panicked : w.Panicked backend acts outset
  whole : w.history backend acts = outset.before ++ history
  worker : (w.run backend acts).service.worker = some (outset.worker.run history) ∨
    (w.run backend acts).service.worker = none ∧ (outset.worker.run history).phase = .exited
  output : w.delivered backend acts = outset.along outputOf history
  endings : (w.run backend acts).service.status.endings = outset.along endingOf history

theorem delivered_snoc (acts : List (Act State)) (a : Act State) :
    w.delivered backend (acts ++ [a]) =
      noted (next backend) (poppedOf backend) w acts ++ ((w.run backend acts).poppedOf backend a ++
        ((w.run backend acts).act backend a).1.service.queue.buffered) := by
  rw [delivered, noted_snoc, ← run, run_snoc, List.append_assoc]

theorem paths_run (acts : List (Act State)) : (w.run backend acts).service.paths = w.service.paths := by
  induction acts using List.reverseRecOn with
  | nil => rfl
  | append_singleton acts a ih => rw [run_snoc, paths_act, ih]

theorem history_snoc (acts : List (Act State)) (a : Act State) :
    w.history backend (acts ++ [a]) =
      w.history backend acts ++ (w.run backend acts).occurring backend a := by
  rw [history, noted_snoc, ← run, history]

variable {acts : List (Act State)} {outset : Outset} {history : List Occurrence}

theorem Panicked.append (h : w.Panicked backend acts outset) (more : List (Act State)) :
    w.Panicked backend (acts ++ more) outset := by
  cases outset with
  | started => trivial
  | caught =>
    obtain ⟨earlier, later, rfl, same⟩ := h
    exact ⟨earlier, later ++ more, by simp, same⟩

theorem Career.worker_eq (h : Career backend w acts outset history) {v : Worker}
    (hv : (w.run backend acts).service.worker = some v) : v = outset.worker.run history := by
  rcases h.worker with present | ⟨none, _⟩
  · exact Option.some.inj (hv.symm.trans present)
  · rw [none] at hv
    cases hv

theorem Career.undergo (h : Career backend w acts outset history) {v : Worker} {a : Act State}
    (hv : (w.run backend acts).service.worker = some v)
    (undergone : Undergone backend (w.run backend acts) v a) :
    Career backend w (acts ++ [a]) outset (history ++ (w.run backend acts).occurring backend a) := by
  obtain ⟨before, disk, after, cut, ok, started⟩ := h.begun
  obtain rfl := h.worker_eq hv
  constructor
  case fresh => exact h.fresh
  case length => exact h.length
  case begun => exact ⟨before, disk, after ++ [a], by simp [cut], ok, started⟩
  case panicked => exact h.panicked.append [a]
  case whole => rw [history_snoc, h.whole, List.append_assoc]
  case worker =>
    rw [run_snoc, Worker.run_append]
    rcases undergone.worker with present | ⟨none, exited, nothing⟩
    · exact .inl present
    · rw [nothing]
      exact .inr ⟨none, exited⟩
  case output =>
    rw [delivered_snoc, undergone.output, ← List.append_assoc, ← delivered, h.output,
      Outset.along_append]
  case endings => rw [run_snoc, undergone.endings, h.endings, Outset.along_append]

theorem Career.still (h : Career backend w acts outset history) {a : Act State}
    (none : (w.run backend acts).service.worker = none) (still : Still backend (w.run backend acts) a) :
    Career backend w (acts ++ [a]) outset (history ++ (w.run backend acts).occurring backend a) := by
  obtain ⟨before, disk, after, cut, ok, started⟩ := h.begun
  obtain ⟨_, exited⟩ := h.worker.resolve_left (by simp [none])
  rw [show (w.run backend acts).occurring backend a = [] by rw [occurring, none], List.append_nil]
  constructor
  case fresh => exact h.fresh
  case length => exact h.length
  case begun => exact ⟨before, disk, after ++ [a], by simp [cut], ok, started⟩
  case panicked => exact h.panicked.append [a]
  case whole => rw [history_snoc, occurring, none, List.append_nil, h.whole]
  case worker => exact .inr ⟨by rw [run_snoc, still.worker, none], exited⟩
  case output => rw [delivered_snoc, still.output, ← h.output, delivered]
  case endings => rw [run_snoc, still.status, h.endings]

theorem Career.caught {sessions : List Session} (h : Career backend w acts (.started sessions) history)
    (hv : (w.run backend acts).service.worker = some ((Worker.start sessions).run history))
    {left : List Session} (possible : ((Worker.start sessions).run history).MayLeave left)
    (text : String) :
    Career backend w (acts ++ [.panic left text]) (.caught sessions history left text possible) [] := by
  obtain ⟨before, disk, after, cut, ok, started⟩ := h.begun
  constructor
  case fresh => exact h.fresh
  case length => exact h.length
  case begun => exact ⟨before, disk, after ++ [.panic left text], by simp [cut], ok, started⟩
  case panicked => exact ⟨acts, [], rfl, h.whole⟩
  case whole =>
    rw [history_snoc, h.whole]
    simp [occurring, hv, Outset.before]
  case worker =>
    left
    rw [run_snoc]
    simp [act, Service.panicked, hv, Outset.worker, Worker.run]
  case output =>
    have same := h.output
    rw [delivered_snoc, Outset.along_caught, noted, List.append_nil]
    simpa [delivered, act, poppedOf, Service.panicked] using same
  case endings =>
    have same := h.endings
    rw [run_snoc, Outset.along_caught, noted, List.append_nil]
    simpa [act, Service.panicked] using same

theorem Career.act (h : Career backend w acts outset history)
    (sound : Sound w.service.status w.service.worker) {a : Act State}
    (calm : a.Calm (outset.worker.run history)) :
    Career backend w (acts ++ [a]) outset (history ++ (w.run backend acts).occurring backend a) := by
  have here : Sound (w.run backend acts).service.status (w.run backend acts).service.worker :=
    sound_run sound acts
  cases hv : (w.run backend acts).service.worker with
  | some v =>
    obtain rfl := h.worker_eq hv
    exact h.undergo hv (undergone_act here hv calm)
  | none =>
    rcases still_or_started backend here hv a with still | ⟨disk, rfl, ok⟩
    · exact h.still hv still
    · -- No start goes well after another one.
      obtain ⟨before, _, after, rfl, first, _⟩ := h.begun
      exact absurd (start_ok ok).2.1 (ne_idle_of_started sound first after)

theorem Career.append (h : Career backend w acts outset history)
    (sound : Sound w.service.status w.service.worker)
    (closing : (outset.worker.run history).phase.Closing) (more : List (Act State)) :
    Career backend w (acts ++ more) outset (history ++ (w.run backend acts).history backend more) := by
  induction more using List.reverseRecOn with
  | nil =>
    rw [List.append_nil, show (w.run backend acts).history backend [] = [] from rfl, List.append_nil]
    exact h
  | append_singleton more a ih =>
    have later :
        (outset.worker.run (history ++ (w.run backend acts).history backend more)).phase.Closing := by
      rw [Worker.run_append]
      exact Worker.closing_run closing _
    rw [← List.append_assoc, history_snoc, ← run_append, ← List.append_assoc]
    exact ih.act sound (calm_of_closing later)

theorem Career.go_on (h : Career backend w acts outset history)
    (sound : Sound w.service.status w.service.worker) (a : Act State) :
    ∃ outset history, Career backend w (acts ++ [a]) outset history := by
  by_cases calm : a.Calm (outset.worker.run history)
  · exact ⟨_, _, h.act sound calm⟩
  · obtain ⟨left, text, rfl, possible⟩ := caught_of_not_calm calm
    obtain ⟨sessions, rfl⟩ := Outset.started_of_looping possible.1
    rcases h.worker with hv | ⟨_, exited⟩
    · exact ⟨_, _, h.caught hv possible text⟩
    · exact absurd (by rw [exited]; trivial) (Worker.open_of_looping possible.1)

theorem career_of_start {disk : Disk}
    (nothing : w.history backend (acts ++ [.call (.start disk)]) = [])
    (empty : w.delivered backend acts = [])
    (ok : ((w.run backend acts).act backend (.call (.start disk))).2 = some (.ending (.ok ()))) :
    ∃ sessions, Career backend w (acts ++ [.call (.start disk)]) (.started sessions) [] := by
  obtain ⟨free, _, _⟩ := start_ok ok
  have result : ((w.run backend acts).service.start backend disk (w.run backend acts).backend).1 =
      .ok () := by
    simpa [act, free, call] using ok
  obtain ⟨sessions, fresh, length, started⟩ := Service.service_of_start_ok result
  have service : (w.run backend (acts ++ [.call (.start disk)])).service =
      { (w.run backend acts).service with
        status := { (w.run backend acts).service.status with state := .running }
        worker := some (.start sessions) } := by
    rw [run_snoc, act, if_pos free, call]
    exact started
  refine ⟨sessions, ?_⟩
  constructor
  case fresh => exact fresh
  case length => rw [Outset.sessions, length, paths_run]
  case begun => exact ⟨acts, disk, [], rfl, ok, by rw [service, Outset.sessions]⟩
  case panicked => trivial
  case whole => rw [nothing, Outset.before, List.append_nil]
  case worker =>
    left
    rw [service, Worker.run, List.foldl_nil, Outset.worker]
  case output =>
    rw [delivered, noted_snoc, ← run, service, poppedOf, ok, List.append_nil, Outset.along_started, noted]
    exact empty
  case endings =>
    rw [service, Outset.along_started, noted]
    rfl

/-- A service is idle, with nothing put into its queue, or its worker has a career. -/
theorem idle_or_career (backend : Backend State) (paths : List Path) (config : Config) (state : State)
    (acts : List (Act State)) :
    ((make paths config state).run backend acts).state = .idle ∧
        (make paths config state).history backend acts = [] ∧
        (make paths config state).delivered backend acts = [] ∨
      ∃ outset history, Career backend (make paths config state) acts outset history := by
  generalize hw : make paths config state = w
  have sound (acts : List (Act State)) :
      Sound (w.run backend acts).service.status (w.run backend acts).service.worker :=
    sound_run (hw ▸ sound_make paths config state) acts
  induction acts using List.reverseRecOn with
  | nil =>
    subst hw
    exact .inl ⟨rfl, rfl, rfl⟩
  | append_singleton acts a ih =>
    rcases ih with ⟨idle, silent, empty⟩ | ⟨outset, history, career⟩
    · have none : (w.run backend acts).service.worker = none := by
        by_contra some
        obtain ⟨v, hv⟩ := Option.ne_none_iff_exists'.mp some
        exact (hv ▸ sound acts).ne_idle idle
      have nothing : w.history backend (acts ++ [a]) = [] := by
        rw [history_snoc, silent, occurring, none, List.append_nil]
      rcases still_or_started backend (sound acts) none a with still | ⟨disk, rfl, ok⟩
      · left
        refine ⟨?_, nothing, ?_⟩
        · rw [run_snoc, World.state, Service.state, still.status]
          exact idle
        · rw [delivered_snoc, still.output, ← delivered, empty]
      · obtain ⟨sessions, career⟩ := career_of_start nothing empty ok
        exact .inr ⟨_, _, career⟩
    · exact .inr (career.go_on (sound []) a)

end World

end DirectoryWatch
