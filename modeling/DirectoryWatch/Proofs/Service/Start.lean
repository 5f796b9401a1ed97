import DirectoryWatch.Proofs.Service.Lifecycle
import DirectoryWatch.Proofs.Worker.Windows

/-!
# Starting

A start attaches a watch to every path, or leaves nothing attached. What a backend was asked is told by
recording it: a recording backend gives the same answers, and keeps a list of what it was asked beside
its state.
-/

namespace DirectoryWatch

/-! ## What a backend is asked -/

namespace Native

/-- What tells a handle from others. -/
def Handle.identity (h : Handle) : Path × Nat := (h.root, h.ticket)

inductive Dealing where
  | attached (root : Path) (handle : Path × Nat)
  | refused (root : Path) (error : Error)
  | released (handle : Path × Nat)
  deriving DecidableEq

def Backend.recorded {State : Type} (backend : Backend State) : Backend (State × List Dealing) :=
  ⟨backend.name, backend.recursion,
    fun disk root recursive (state, log) =>
      match backend.attach disk root recursive state with
      | (.ok h, state) => (.ok h, state, log ++ [.attached root h.identity])
      | (.error e, state) => (.error e, state, log ++ [.refused root e]),
    fun h (state, log) => (backend.release h state, log ++ [.released h.identity]),
    fun (state, _) => backend.holds state⟩

end Native

open Native (Backend Dealing Handle)

variable {State : Type} {backend : Backend State} {disk : Disk} {config : Config} {state after : State}

/-! ## One session -/

namespace Session

/-- What attaching a watch to a root asks of the backend. -/
def dealings (backend : Backend State) (disk : Disk) (root : Path) (config : Config) (state : State) :
    List Dealing :=
  (attach backend.recorded disk root config (state, [])).2.2

theorem attach_recorded (root : Path) (log : List Dealing) :
    attach backend.recorded disk root config (state, log) =
      ((attach backend disk root config state).1, (attach backend disk root config state).2,
        log ++ dealings backend disk root config state) := by
  have prepared : prepare backend.recorded disk root config = prepare backend disk root config := rfl
  unfold dealings attach
  rw [prepared]
  cases prepare backend disk root config with
  | error e => simp
  | ok resolved =>
    simp only [Native.Backend.recorded]
    rcases backend.attach disk resolved.1 config.recursive state with ⟨_ | h, after⟩ <;> simp

/-- A session owns the one handle that was attached, or nothing was attached. -/
inductive Outcome (backend : Backend State) (disk : Disk) (root : Path) (config : Config) (state : State) :
    Except WatchError Session × State → List Dealing → Prop where
  | unprepared {e : WatchError} (ill : prepare backend disk root config = .error e) :
    Outcome backend disk root config state (.error e, state) []
  | refused {path : Path} {filter : Option Ignore.Filter} {e : Native.Error} {after : State}
      (well : prepare backend disk root config = .ok (path, filter))
      (ill : backend.attach disk path config.recursive state = (.error e, after)) :
    Outcome backend disk root config state (.error (.setup path (.refused e)), after) [.refused path e]
  | attached {s : Session} {after : State}
      (well : prepare backend disk root config = .ok (s.root, s.filter))
      (owns : backend.attach disk s.root config.recursive state = (.ok s.handle, after)) :
    Outcome backend disk root config state (.ok s, after) [.attached s.root s.handle.identity]

theorem outcome_of_attach (backend : Backend State) (disk : Disk) (root : Path) (config : Config)
    (state : State) :
    Outcome backend disk root config state (attach backend disk root config state)
      (dealings backend disk root config state) := by
  have prepared : prepare backend.recorded disk root config = prepare backend disk root config := rfl
  unfold dealings attach
  rw [prepared]
  cases well : prepare backend disk root config with
  | error e => exact .unprepared well
  | ok resolved =>
    obtain ⟨path, filter⟩ := resolved
    simp only [Native.Backend.recorded]
    cases asked : backend.attach disk path config.recursive state with
    | mk result after =>
      cases result with
      | error e => exact .refused well asked
      | ok h =>
        exact .attached (s := ⟨path, config.recursive, config.latency, filter, h, .empty, none, []⟩)
          well asked

theorem dealings_of_error {root : Path} {e : WatchError}
    (h : (attach backend disk root config state).1 = .error e) :
    dealings backend disk root config state = [] ∨
      ∃ path error, dealings backend disk root config state = [.refused path error] := by
  have outcome := outcome_of_attach backend disk root config state
  generalize attach backend disk root config state = result,
    dealings backend disk root config state = dealt at h outcome ⊢
  cases outcome with
  | unprepared => exact .inl rfl
  | refused => exact .inr ⟨_, _, rfl⟩
  | attached => cases h

/-- What is on record for a session, when its watch is attached and when it is released. -/
def attachment (s : Session) : Dealing := .attached s.root s.handle.identity

def release (s : Session) : Dealing := .released s.handle.identity

theorem release_follow (s : Session) : (s.follow backend state).release = s.release := by
  unfold release follow Handle.follow
  split <;> rfl

end Session

/-! ## Every path -/

/-- Watches are attached to some paths one after the other. -/
inductive Opened (backend : Backend State) (disk : Disk) (config : Config) :
    State → List Path → List Session → State → Prop where
  | nil (state : State) : Opened backend disk config state [] [] state
  | cons {state mid after : State} {path : Path} {rest : List Path} {s : Session} {others : List Session}
      (first : Session.attach backend disk path config state = (.ok s, mid))
      (then_ : Opened backend disk config mid rest others after) :
    Opened backend disk config state (path :: rest) (s :: others) after

namespace Service

theorem releaseAll_recorded (sessions : List Session) (log : List Dealing) :
    releaseAll backend.recorded sessions (state, log) =
      (releaseAll backend sessions state, log ++ sessions.map Session.release) := by
  induction sessions generalizing state log with
  | nil => simp [releaseAll]
  | cons s rest ih =>
    have step : releaseAll backend.recorded (s :: rest) (state, log) =
        releaseAll backend.recorded rest (backend.release s.handle state, log ++ [s.release]) := rfl
    rw [step, ih]
    simp [releaseAll]

theorem follow_recorded (state : State) (log : List Dealing) :
    Session.follow backend.recorded (state, log) = Session.follow backend state := rfl

/-- A path that cannot be watched is the first of them. On record are the watches attached before it,
what was asked for the path itself, and then all watches, with those attached earlier, as released. -/
theorem attachAll_error {paths : List Path} {sessions : List Session} {e : WatchError}
    (h : attachAll backend disk config paths sessions state = (.error e, after)) :
    ∃ done path rest opened mid, paths = done ++ path :: rest ∧
      Opened backend disk config state done opened mid ∧
      (Session.attach backend disk path config mid).1 = .error e ∧
      ∀ log, attachAll backend.recorded disk config paths sessions (state, log) =
        (.error e, after, log ++ opened.map Session.attachment ++
          Session.dealings backend disk path config mid ++ (sessions ++ opened).map Session.release) := by
  induction paths generalizing sessions state with
  | nil => cases h
  | cons path rest ih =>
    unfold attachAll at h ⊢
    have outcome := Session.outcome_of_attach backend disk path config state
    cases attached : Session.attach backend disk path config state with
    | mk result mid =>
      rw [attached] at h outcome
      cases result with
      | error found =>
        cases h
        refine ⟨[], path, rest, [], state, rfl, .nil state, by rw [attached], fun log => ?_⟩
        simp [Session.attach_recorded, attached, releaseAll_recorded]
      | ok s =>
        obtain ⟨done, failing, others, opened, last, rfl, opens, fails, recorded⟩ := ih h
        refine ⟨path :: done, failing, others, s :: opened, last, rfl, .cons attached opens, fails,
          fun log => ?_⟩
        simp only [Session.attach_recorded, attached, follow_recorded, recorded]
        generalize Session.dealings backend disk path config state = dealt at outcome
        cases outcome
        simp [Session.attachment, Session.release_follow, Function.comp_def]

theorem attachAll_ok {paths : List Path} {sessions attached : List Session}
    (h : attachAll backend disk config paths sessions state = (.ok attached, after)) :
    ∃ opened, Opened backend disk config state paths opened after ∧
      ∀ log, attachAll backend.recorded disk config paths sessions (state, log) =
        (.ok attached, after, log ++ opened.map Session.attachment) := by
  induction paths generalizing sessions state with
  | nil =>
    cases h
    exact ⟨[], .nil _, by simp [attachAll]⟩
  | cons path rest ih =>
    unfold attachAll at h ⊢
    have outcome := Session.outcome_of_attach backend disk path config state
    cases attached : Session.attach backend disk path config state with
    | mk result mid =>
      rw [attached] at h outcome
      cases result with
      | error found => cases h
      | ok s =>
        obtain ⟨opened, opens, recorded⟩ := ih h
        refine ⟨s :: opened, .cons attached opens, fun log => ?_⟩
        simp only [Session.attach_recorded, attached, follow_recorded, recorded]
        generalize Session.dealings backend disk path config state = dealt at outcome
        cases outcome
        simp [Session.attachment]

/-! ## What a start leaves -/

section Starting

variable {s : Service}

theorem service_of_start_error {e : WatchError} (h : (s.start backend disk state).1 = .error e) :
    (s.start backend disk state).2.1 = s := by
  unfold start at h ⊢
  split
  · rfl
  · rename_i idle
    rw [if_neg idle] at h
    split
    · rfl
    · rename_i valid
      rw [valid] at h
      split
      · rfl
      · rename_i attached
        rw [attached] at h
        cases h

theorem length_of_attachAll {paths : List Path} {sessions attached : List Session}
    (h : attachAll backend disk config paths sessions state = (.ok attached, after)) :
    attached.length = sessions.length + paths.length := by
  induction paths generalizing sessions state with
  | nil =>
    cases h
    simp
  | cons path rest ih =>
    unfold attachAll at h
    split at h
    · cases h
    · rw [ih h]
      simp
      omega

theorem service_of_start_ok (h : (s.start backend disk state).1 = .ok ()) :
    ∃ sessions : List Session, (∀ t ∈ sessions, t.Fresh) ∧ sessions.length = s.paths.length ∧
      (s.start backend disk state).2.1 =
        { s with
          status := { s.status with state := .running }, worker := some (.start sessions) } := by
  unfold start at h ⊢
  split at h
  · cases h
  · rename_i idle
    split at h
    · cases h
    · split at h
      · cases h
      · rename_i attached
        rw [if_neg idle]
        refine ⟨_, fresh_of_attachAll attached (by simp), ?_, rfl⟩
        simpa using length_of_attachAll attached

end Starting

/-! ## What a start asks -/

def dealings (s : Service) (backend : Backend State) (disk : Disk) (state : State) : List Dealing :=
  (s.start backend.recorded disk (state, [])).2.2.2

theorem start_recorded (s : Service) (log : List Dealing) :
    s.start backend.recorded disk (state, log) =
      ((s.start backend disk state).1, (s.start backend disk state).2.1,
        (s.start backend disk state).2.2, log ++ s.dealings backend disk state) := by
  unfold dealings start
  split
  · simp
  · cases s.config.validate with
    | error e => simp
    | ok =>
      cases attached : attachAll backend disk s.config s.paths [] state with
      | mk result after =>
        cases result with
        | error e =>
          obtain ⟨_, _, _, _, _, _, _, _, recorded⟩ := attachAll_error attached
          simp [recorded]
        | ok sessions =>
          obtain ⟨_, _, recorded⟩ := attachAll_ok attached
          simp [recorded]

/-- Why a start went wrong, and what it asked of the backend. -/
inductive Undone (s : Service) (backend : Backend State) (disk : Disk) (state : State) (e : WatchError) :
    Prop where
  /-- The configuration is refused, and the backend is asked nothing. -/
  | invalid (ill : s.config.validate = .error e) (same : (s.start backend disk state).2.2 = state)
      (silent : s.dealings backend disk state = [])
  /-- The paths before the first that cannot be watched are attached, and then released again. -/
  | unopened {done : List Path} {path : Path} {rest : List Path} {opened : List Session} {mid : State}
      {refusal : List Dealing} (well : s.config.validate = .ok ())
      (cut : s.paths = done ++ path :: rest)
      (opens : Opened backend disk s.config state done opened mid)
      (fails : (Session.attach backend disk path s.config mid).1 = .error e)
      (nothing : refusal = [] ∨ ∃ root error, refusal = [.refused root error])
      (dealt : s.dealings backend disk state =
        opened.map Session.attachment ++ refusal ++ opened.map Session.release)

theorem undone_of_start {s : Service} {e : WatchError} (idle : s.state = .idle)
    (h : (s.start backend disk state).1 = .error e) : Undone s backend disk state e := by
  cases valid : s.config.validate with
  | error found =>
    obtain rfl : found = e := by simpa [start, idle, valid] using h
    exact .invalid valid (by simp [start, idle, valid]) (by simp [dealings, start, idle, valid])
  | ok =>
    cases attached : attachAll backend disk s.config s.paths [] state with
    | mk result after =>
      cases result with
      | ok sessions => simp [start, idle, valid, attached] at h
      | error found =>
        obtain rfl : found = e := by simpa [start, idle, valid, attached] using h
        obtain ⟨done, path, rest, opened, mid, cut, opens, fails, recorded⟩ := attachAll_error attached
        have nothing := Session.dealings_of_error fails
        exact .unopened valid cut opens fails nothing (by simp [dealings, start, idle, valid, recorded])

-- The backend refuses the second of three paths, and is not asked for the third.
example :
    let a : Path := ⟨[0x2F, 0x61]⟩
    let b : Path := ⟨[0x2F, 0x62]⟩
    let full : Native.Error := ⟨.tooManyWatches, []⟩
    let backend : Backend Nat :=
      ⟨"plain", true, fun _ root _ n => (if root = b then .error full else .ok (.make root n true), n + 1),
        fun _ n => n, fun _ _ => true⟩
    let disk : Disk := ⟨.ok, fun _ => true, fun _ => true, fun _ => .ok []⟩
    (make [a, b, a] ⟨.ofSeconds 1, true, []⟩).dealings backend disk 7 =
      [.attached a (a, 7), .refused b full, .released (a, 7)] := by
  decide +kernel

end Service

/-! ## A start among other acts -/

namespace World

open Service (Sound Undone)

variable {w : World State}

theorem service_of_idle_act {paths : List Path} {config : Config} {a : Act State}
    (new : w.service = .make paths config) (idle : (w.act backend a).1.state = .idle) :
    (w.act backend a).1.service = .make paths config := by
  cases a with
  | join =>
    simp only [act, join, new]
    split
    · cases w.caller <;> first | exact new | rfl
    · exact new
  | work around => simp [act, work, new, Service.work, Service.make]
  | send ticket m => simp [act, new, Service.deliver, Service.make]
  | change here => simp [act, change, new, Service.follow, Service.make]
  | panic left text => simp [act, new, Service.panicked, Service.make]
  | call c =>
    by_cases free : w.caller = .free
    · cases c with
      | requestStop | stop | drop =>
        have unstopped : w.service.requestStop = w.service :=
          Service.requestStop_of_not_running (by rw [new]; simp [Service.make, Service.state])
        simpa [act, free, call, unstopped] using new
      | state | rethrow => simpa [act, free, call] using new
      | pop => simp [act, free, call, new, Service.pop, Service.make, EventQueue.pop, EventQueue.empty]
      | start disk =>
        cases result : (w.service.start backend disk w.backend).1 with
        | error e => simpa [act, free, call, Service.service_of_start_error result] using new
        | ok =>
          have running := (Service.start_eq_ok result).2
          simp only [act, if_pos free, call] at idle
          rw [World.state, running] at idle
          cases idle
    · simpa [act, free] using new

theorem service_of_idle (paths : List Path) (config : Config) (state : State) (acts : List (Act State))
    (idle : ((make paths config state).run backend acts).state = .idle) :
    ((make paths config state).run backend acts).service = .make paths config := by
  induction acts using List.reverseRecOn with
  | nil => rfl
  | append_singleton acts a ih =>
    rw [run_snoc] at idle ⊢
    have before : ((make paths config state).run backend acts).state = .idle := by
      by_contra going
      have sound := sound_make paths config state
      exact (proceeds_act (sound_run sound acts) a).2.ne_idle going idle
    exact service_of_idle_act (ih before) idle

theorem start_error {acts : List (Act State)} {disk : Disk} {e : WatchError}
    (h : w.answer backend acts (.call (.start disk)) = some (.ending (.error e))) :
    (w.run backend acts).caller = .free ∧
      ((w.run backend acts).service.start backend disk (w.run backend acts).backend).1 = .error e := by
  simp only [answer, act] at h
  split at h
  · rename_i free
    exact ⟨free, Answer.ending.inj (Option.some.inj h)⟩
  · cases h

theorem fresh_of_start_error {paths : List Path} {config : Config} {disk : Disk} {e : WatchError}
    (new : w.service = .make paths config) (free : w.caller = .free)
    (failed : (w.service.start backend disk w.backend).1 = .error e) :
    (w.act backend (.call (.start disk))).1 =
      make paths config (w.act backend (.call (.start disk))).1.backend := by
  have same := Service.service_of_start_error failed
  rw [new] at same
  obtain ⟨service, here, caller⟩ := w
  simp only at new free same
  simp [act, free, call, make, new, same]

/-- What a start that goes wrong leaves. -/
structure AllOrNothing (backend : Backend State) (paths : List Path) (config : Config) (state : State) :
    Prop where
  /-- The cause is the configuration or the first path that cannot be watched; nothing stays attached. -/
  undone (acts : List (Act State)) (disk : Disk) (e : WatchError) :
    ((make paths config state).run backend acts).state = .idle →
    (make paths config state).answer backend acts (.call (.start disk)) = some (.ending (.error e)) →
    Undone (.make paths config) backend disk ((make paths config state).run backend acts).backend e
  /-- Everything later is as with a new service. -/
  fresh (acts : List (Act State)) (disk : Disk) (e : WatchError) :
    ((make paths config state).run backend acts).state = .idle →
    (make paths config state).answer backend acts (.call (.start disk)) = some (.ending (.error e)) →
    (make paths config state).run backend (acts ++ [.call (.start disk)]) =
      make paths config ((make paths config state).run backend (acts ++ [.call (.start disk)])).backend
  /-- Recording what a backend is asked changes nothing about its answers. -/
  recorded (s : Service) (disk : Disk) (here : State) (log : List Dealing) :
    s.start backend.recorded disk (here, log) =
      ((s.start backend disk here).1, (s.start backend disk here).2.1,
        (s.start backend disk here).2.2, log ++ s.dealings backend disk here)
  /-- A session owns the handle that was attached for it, or nothing was attached. -/
  session (disk : Disk) (root : Path) (here : State) :
    Session.Outcome backend disk root config here (Session.attach backend disk root config here)
      (Session.dealings backend disk root config here)

end World

end DirectoryWatch
