import DirectoryWatch.Proofs.Service.Start
import DirectoryWatch.Session.Waiting

/-!
# Errors of the set-up and of the run

A start tells of errors of the set-up. Errors of the run come from reading, or from a panic; the
worker takes the first of them to its end, and from there on the service keeps it. Threads that are
refused, and threads that panic where nobody catches it, keep to the same division.
-/

namespace DirectoryWatch

open Native (Backend)

/-- An ending that is no error, or an error of the run. -/
def OfRun (ending : Ending) : Prop := ∀ e, ending = .error e → e.isRuntime = true

theorem ofRun_ok : OfRun (.ok ()) := by
  intro e h
  cases h

/-! ## Sessions -/

namespace Session

variable {s : Session} {fault : Fault}

theorem isRuntime_of_outcome {disk : Disk} {read : Except Native.ReadFault Nat} {recorded : Nat}
    (h : s.outcome disk read recorded = .error fault) : fault.failure.isRuntime = true := by
  unfold outcome at h
  split at h
  · cases h
    rfl
  · cases h
    rfl
  · split at h
    · cases h
    · cases h
      rfl

theorem isRuntime_of_ingest {disk : Disk} {now observed : Moment}
    (h : (s.ingest disk now observed).1 = .error fault) : fault.failure.isRuntime = true := by
  unfold ingest at h
  simp only at h
  split at h
  · cases h
    rfl
  · exact isRuntime_of_outcome h

theorem takeFull_ne_fault (s : Session) (now : Moment) : (s.takeFull now).1 ≠ some (.fault fault) := by
  unfold takeFull
  split <;> simp

theorem isRuntime_of_turn {t : Turn} (h : (s.turn t).1 = some (.fault fault)) :
    fault.failure.isRuntime = true := by
  unfold turn at h
  split at h
  · cases h
  · exact absurd h (s.takeFull_ne_fault _)
  · split at h
    · rename_i ill
      cases h
      exact isRuntime_of_ingest (by rw [ill])
    · exact absurd h (takeFull_ne_fault _ _)

theorem isRuntime_of_nextBatch {turns : List Turn} (h : (s.nextBatch turns).1 = some (.fault fault)) :
    fault.failure.isRuntime = true := by
  induction turns generalizing s with
  | nil => cases h
  | cons t rest ih =>
    unfold nextBatch at h
    split at h
    · rename_i arrived
      cases h
      exact isRuntime_of_turn (by rw [arrived])
    · exact ih h

variable {State : Type} {backend : Backend State} {disk : Disk} {config : Config} {e : WatchError}

/-- What a path that cannot be watched is blamed for. -/
inductive Unwatched : WatchError → Prop where
  | setup (path : Path) (fault : SetupFault) : Unwatched (.setup path fault)
  | unsupported (backend : String) : Unwatched (.unsupportedConfiguration backend)
  | patterns (fault : Ignore.BuildFault) : Unwatched (.invalidConfiguration (.badPatterns fault))

theorem Unwatched.isRuntime (h : Unwatched e) : e.isRuntime = false := by
  cases h <;> rfl

theorem unwatched_of_resolveRoot {root : Path} (h : resolveRoot disk root = .error e) : Unwatched e := by
  unfold resolveRoot at h
  split at h
  · cases h
    exact .setup _ _
  · split at h
    · cases h
    · cases h
      exact .setup _ _

theorem bind_error {α β : Type} {x : Except WatchError α} {f : α → Except WatchError β}
    (h : (x >>= f) = .error e) : x = .error e ∨ ∃ a, x = .ok a ∧ f a = .error e := by
  cases x with
  | error found =>
    cases h
    exact .inl rfl
  | ok a => exact .inr ⟨a, rfl, h⟩

theorem unwatched_of_prepare {root : Path} (h : prepare backend disk root config = .error e) :
    Unwatched e := by
  unfold prepare at h
  rcases bind_error h with unresolved | ⟨path, -, h⟩
  · exact unwatched_of_resolveRoot unresolved
  split at h
  · cases h
    exact .unsupported _
  rcases bind_error h with unbuilt | ⟨filter, -, h⟩
  · cases built : Ignore.Filter.build path config.ignore with
    | error fault =>
      rw [built] at unbuilt
      cases unbuilt
      exact .patterns fault
    | ok filter =>
      rw [built] at unbuilt
      cases unbuilt
  · cases h

theorem unwatched_of_attach {root : Path} {state : State}
    (h : (attach backend disk root config state).1 = .error e) : Unwatched e := by
  unfold attach at h
  split at h
  · rename_i ill
    cases h
    exact unwatched_of_prepare ill
  · split at h
    · cases h
      exact .setup _ _
    · cases h

theorem setup_of_attach {root : Path} {state : State}
    (h : (attach backend disk root config state).1 = .error e) : e.isRuntime = false :=
  (unwatched_of_attach h).isRuntime

end Session

/-! ## Starts -/

namespace Service

variable {State : Type} {backend : Backend State} {disk : Disk} {state : State} {e : WatchError}

theorem setup_of_validate {config : Config} (h : config.validate = .error e) : e.isRuntime = false := by
  unfold Config.validate at h
  split at h
  · cases h
    rfl
  · cases h

theorem unwatched_of_attachAll {config : Config} {paths : List Path} {sessions : List Session}
    (h : (attachAll backend disk config paths sessions state).1 = .error e) : Session.Unwatched e := by
  induction paths generalizing sessions state with
  | nil => cases h
  | cons path rest ih =>
    unfold attachAll at h
    split at h
    · rename_i ill
      cases h
      exact Session.unwatched_of_attach (by rw [ill])
    · exact ih h

theorem setup_of_start {s : Service} (h : (s.start backend disk state).1 = .error e) :
    e.isRuntime = false := by
  unfold start at h
  split at h
  · cases h
    rfl
  · split at h
    · rename_i ill
      cases h
      exact setup_of_validate ill
    · split at h
      · rename_i ill
        cases h
        exact (unwatched_of_attachAll (by rw [ill])).isRuntime
      · cases h

theorem setup_of_startOn {s : Service} {thread : Except SystemError Unit}
    (h : (s.startOn thread backend disk state).1 = .error e) : e.isRuntime = false := by
  unfold startOn at h
  split at h
  · cases h
    rfl
  · exact setup_of_start h

end Service

/-! ## The worker -/

namespace Worker

/-- The error that a worker takes to its end is one of the run. -/
def Phase.OfRun : Phase → Prop
  | .delivering ending _ => DirectoryWatch.OfRun ending
  | .waiting | .reading _ | .timing | .sweeping _ _ | .draining _ | .exited => True

theorem ofRun_afterWait (outcome : Option Native.WaitSet.Outcome) : (afterWait outcome).OfRun := by
  rcases outcome with _ | _ | _ | _ <;> trivial

theorem ofRun_failure {fault : Fault} (h : fault.failure.isRuntime = true) :
    DirectoryWatch.OfRun (.error fault.failure) := by
  intro e same
  cases same
  exact h

theorem Phase.OfRun.panicked {w : Worker} (h : w.phase.OfRun) (sessions : List Session) (text : String) :
    (w.panicked sessions text).phase.OfRun := by
  unfold Worker.panicked
  split
  · rintro e ⟨⟩
    rfl
  · exact h

theorem ofRun_step {w : Worker} (h : w.phase.OfRun) (around : Surroundings) :
    (w.step around).1.phase.OfRun ∧
      ∀ ending, (w.step around).2.ended = some ending → DirectoryWatch.OfRun ending := by
  have move := step_move w around
  generalize w.phase = phase, (w.step around).1.phase = next, (w.step around).2.ended = ended
    at move h ⊢
  cases move with
  | heeded => exact ⟨ofRun_afterWait _, by simp⟩
  | read | timed | swept | sweptAll | drained | rests => exact ⟨trivial, by simp⟩
  | readFailed _ ill | drainFailed _ ill =>
    exact ⟨ofRun_failure (Session.isRuntime_of_ingest ill), by simp⟩
  | nothingToRead => exact ⟨ofRun_failure rfl, by simp⟩
  | drainedAll => exact ⟨ofRun_ok, by simp⟩
  | delivered => exact ⟨h, by simp⟩
  | deliveredAll =>
    refine ⟨trivial, ?_⟩
    rintro _ ⟨⟩
    exact h

end Worker

/-! ## The service -/

namespace Service

/-- What a service keeps of errors, and what its worker is about to tell, are errors of the run. -/
structure Blames (s : Service) : Prop where
  stored : ∀ e, s.status.failure = some e → e.isRuntime = true
  worker : ∀ w, s.worker = some w → w.phase.OfRun

variable {s : Service}

theorem Blames.rethrow (h : s.Blames) : OfRun s.rethrow := by
  intro e thrown
  exact h.stored e ((rethrow_eq_error_iff e).mp thrown)

theorem stored_finish {status : Status} {ending : Ending}
    (stored : ∀ e, status.failure = some e → e.isRuntime = true) (told : OfRun ending) :
    ∀ e, (status.finish ending).failure = some e → e.isRuntime = true := by
  intro e kept
  cases ending with
  | ok => exact stored e kept
  | error found =>
    -- The first failure is kept, and there may be one already.
    cases first : status.failure with
    | none =>
      simp only [Status.finish, first, Option.orElse_eq_orElse, Option.orElse_eq_or, Option.none_or,
        Option.some.injEq] at kept
      rw [← kept]
      exact told found rfl
    | some other =>
      simp only [Status.finish, first, Option.orElse_eq_orElse, Option.orElse_eq_or, Option.some_or,
        Option.some.injEq] at kept
      rw [← kept]
      exact stored other first

theorem blames_make (paths : List Path) (config : Config) : (make paths config).Blames := by
  constructor <;> simp [make]

theorem Blames.start {State : Type} (h : s.Blames) (backend : Backend State) (disk : Disk)
    (state : State) : (s.start backend disk state).2.1.Blames := by
  cases result : (s.start backend disk state).1 with
  | error e => rwa [service_of_start_error result]
  | ok =>
    obtain ⟨sessions, _, _, same⟩ := service_of_start_ok result
    rw [same]
    refine ⟨h.stored, ?_⟩
    rintro w ⟨⟩
    trivial

theorem Blames.startOn {State : Type} (h : s.Blames) (thread : Except SystemError Unit)
    (backend : Backend State) (disk : Disk) (state : State) :
    (s.startOn thread backend disk state).2.1.Blames := by
  unfold Service.startOn
  split
  · exact h
  · exact h.start backend disk state

theorem Blames.map (h : s.Blames) {f : Worker → Worker}
    (kept : ∀ w, w.phase.OfRun → (f w).phase.OfRun) : Blames { s with worker := s.worker.map f } := by
  refine ⟨h.stored, fun v hv => ?_⟩
  obtain ⟨w, hw, rfl⟩ := Option.map_eq_some_iff.mp hv
  exact kept w (h.worker w hw)

theorem Blames.requestStop (h : s.Blames) : s.requestStop.Blames := by
  unfold Service.requestStop
  split
  · exact ⟨h.stored, (h.map (f := Worker.stop) fun _ => id).worker⟩
  · exact h

theorem Blames.joined (h : s.Blames) : s.joined.Blames := ⟨h.stored, by simp [Service.joined]⟩

theorem Blames.brokenOff (h : s.Blames) (text : String) : (s.brokenOff text).Blames := by
  refine ⟨stored_finish h.stored ?_, by simp [Service.brokenOff]⟩
  rintro e ⟨⟩
  rfl

theorem Blames.work (h : s.Blames) (around : Surroundings) : (s.work around).1.Blames := by
  unfold Service.work
  split
  · exact h
  · rename_i w hw
    obtain ⟨phase, told⟩ := Worker.ofRun_step (h.worker w hw) around
    constructor
    · simp only [heed]
      cases ended : (w.step around).2.ended with
      | none => exact h.stored
      | some ending => exact stored_finish h.stored (told ending ended)
    · rintro v ⟨⟩
      exact phase

end Service

/-! ## What callers are told -/

namespace World

variable {State : Type} {backend : Backend State} {w : World State}

/-- An act, or one of the ways in which a thread goes wrong. -/
inductive Incident (State : Type) where
  | act (act : Act State)
  /-- A start to which the system refuses a thread. -/
  | unspawned (disk : Disk) (error : SystemError)
  /-- A stop or a drop that has waited for a thread that panicked. -/
  | brokenOff (text : String)

def meet (backend : Backend State) (w : World State) : Incident State → World State × Option Answer
  | .act a => w.act backend a
  | .unspawned disk error =>
    if w.caller = .free then
      let (result, service, state) := w.service.startOn (.error error) backend disk w.backend
      ({ w with service, backend := state }, some (.ending result))
    else (w, none)
  | .brokenOff text =>
    match w.service.worker, w.caller with
    | some _, .stopping =>
      ({ w with service := w.service.brokenOff text, caller := .free },
        some (.ending (w.service.brokenOff text).rethrow))
    | some _, .dropping =>
      ({ w with service := w.service.brokenOff text, caller := .gone }, some .done)
    | _, _ => (w, none)

def meetAll (backend : Backend State) (w : World State) (incidents : List (Incident State)) :
    World State :=
  incidents.foldl (fun w i => (w.meet backend i).1) w

/-- Somebody starts the service. -/
def Incident.starts : Incident State → Bool
  | .act (.call (.start _)) | .unspawned _ _ => true
  | .act _ | .brokenOff _ => false

theorem blames_call (h : w.service.Blames) (c : Call) : (w.call backend c).1.service.Blames := by
  cases c with
  | start disk => exact h.start backend disk w.backend
  | requestStop | stop | drop => exact h.requestStop
  | state | rethrow => exact h
  | pop => exact ⟨h.stored, h.worker⟩

theorem blames_join (h : w.service.Blames) : w.join.1.service.Blames := by
  unfold join
  split
  · cases w.caller with
    | free | gone => exact h
    | stopping | dropping => exact h.joined
  · exact h

theorem blames_work (h : w.service.Blames) (around : Surroundings) :
    (w.work backend around).service.Blames := by
  have worked := h.work around
  unfold work
  generalize w.service.work around = result at worked ⊢
  obtain ⟨service, closed⟩ := result
  cases closed with
  | none => exact worked
  | some handle => exact worked.map fun _ => id

theorem blames_meet (h : w.service.Blames) (i : Incident State) :
    (w.meet backend i).1.service.Blames := by
  cases i with
  | act a =>
    cases a with
    | call c =>
      simp only [meet, act]
      split
      · exact blames_call h c
      · exact h
    | join => exact blames_join h
    | work around => exact blames_work h around
    | send ticket m => exact h.map fun _ => id
    | change state => exact h.map fun _ => id
    | panic left text => exact h.map fun _ here => here.panicked left text
  | unspawned disk error =>
    simp only [meet]
    split
    · exact h.startOn (.error error) backend disk w.backend
    · exact h
  | brokenOff text =>
    simp only [meet]
    split
    · exact h.brokenOff text
    · exact h.brokenOff text
    · exact h

theorem blames_meetAll (h : w.service.Blames) (incidents : List (Incident State)) :
    (w.meetAll backend incidents).service.Blames := by
  induction incidents using List.reverseRecOn with
  | nil => exact h
  | append_singleton incidents i ih =>
    rw [meetAll, List.foldl_append]
    exact blames_meet ih i

theorem ofRun_of_told (h : w.service.Blames) {i : Incident State} (other : i.starts = false)
    {ending : Ending} (told : (w.meet backend i).2 = some (.ending ending)) : OfRun ending := by
  cases i with
  | act a =>
    cases a with
    | call c =>
      cases c with
      | start => cases other
      | rethrow => rw [rethrow_answer told]; exact h.rethrow
      | requestStop | stop | state | pop | drop =>
        simp only [meet, act, call] at told
        split at told <;> cases told
    | join =>
      obtain ⟨_, _, same⟩ := @join_answer _ backend _ _ told
      rw [same]
      exact h.joined.rethrow
    | work | send | change | panic => cases told
  | unspawned => cases other
  | brokenOff text =>
    simp only [meet] at told
    split at told
    · cases told
      exact (h.brokenOff text).rethrow
    · cases told
    · cases told

theorem setup_of_told {i : Incident State} (starts : i.starts = true) {e : WatchError}
    (told : (w.meet backend i).2 = some (.ending (.error e))) : e.isRuntime = false := by
  cases i with
  | act a =>
    cases a with
    | call c =>
      cases c with
      | start disk =>
        simp only [meet, act] at told
        split at told
        · exact Service.setup_of_start (Answer.ending.inj (Option.some.inj told))
        · cases told
      | requestStop | stop | state | rethrow | pop | drop => cases starts
    | join | work | send | change | panic => cases starts
  | unspawned disk error =>
    simp only [meet] at told
    split at told
    · exact Service.setup_of_startOn (Answer.ending.inj (Option.some.inj told))
    · cases told
  | brokenOff => cases starts

/-- Errors of the set-up and of the run keep to their own ways. -/
structure Division (backend : Backend State) (paths : List Path) (config : Config) (state : State) :
    Prop where
  /-- A start, in whatever state the service is. -/
  start (s : Service) (thread : Except SystemError Unit) (disk : Disk) (here : State) (e : WatchError) :
    (s.startOn thread backend disk here).1 = .error e → e.isRuntime = false
  attach (disk : Disk) (root : Path) (here : State) (e : WatchError) :
    (Session.attach backend disk root config here).1 = .error e → e.isRuntime = false
  ingest (s : Session) (disk : Disk) (now observed : Moment) (e : WatchError) :
    (s.ingest disk now observed).1 = .error (.error e) → e.isRuntime = true
  nextBatch (s : Session) (turns : List Session.Turn) (e : WatchError) :
    (s.nextBatch turns).1 = some (.fault (.error e)) → e.isRuntime = true
  stored (incidents : List (Incident State)) (e : WatchError) :
    ((make paths config state).meetAll backend incidents).service.status.failure = some e →
    e.isRuntime = true
  /-- Whoever starts a service is told of the set-up, and every other caller of the run. -/
  told (incidents : List (Incident State)) (i : Incident State) (e : WatchError) :
    (((make paths config state).meetAll backend incidents).meet backend i).2 = some (.ending (.error e)) →
    e.isRuntime = !i.starts

/-- **Division.** -/
theorem division (backend : Backend State) (paths : List Path) (config : Config) (state : State) :
    Division backend paths config state := by
  have blames (incidents : List (Incident State)) :
      ((make paths config state).meetAll backend incidents).service.Blames :=
    blames_meetAll (Service.blames_make paths config) incidents
  constructor
  case start => exact fun s thread disk here e => Service.setup_of_startOn
  case attach => exact fun disk root here e => Session.setup_of_attach
  case ingest => exact fun s disk now observed e => Session.isRuntime_of_ingest
  case nextBatch => exact fun s turns e => Session.isRuntime_of_nextBatch
  case stored => exact fun incidents => (blames incidents).stored
  case told =>
    intro incidents i e told
    cases starts : i.starts with
    | true => exact setup_of_told starts told
    | false => exact ofRun_of_told (blames incidents) starts told e rfl

end World

end DirectoryWatch
