import DirectoryWatch.Proofs.Native.StopSignal
import DirectoryWatch.Proofs.Session.FixedWindow
import DirectoryWatch.Session.Waiting

/-!
# Waiting for the next batch

A session that waits for its next batch looks at the stop signal and asks the selector, reads when its
handle is ready, and takes the batch when that is due, time and again. Others send messages and stop
between any two of these steps. Only a batch that is due and has come to something is given out; after a
stop and after a fault the batch in place is all that was absorbed since one was last taken, and its
window is where it was.
-/

namespace DirectoryWatch.Session

open Native (Message WaitSet)
open Native.WaitSet (Deed Report Waiter)
open Native.WaitSet.Waiter (Signalled Tracks)

theorem takeFull_eq (s : Session) (now : Moment) :
    s.takeFull now =
      (match (s.takeDue now).1 with
        | some (e :: events) => some (.batch (e :: events))
        | some [] | none => none,
      (s.takeDue now).2) := by
  unfold takeFull
  rcases s.takeDue now with ⟨_ | _ | _, _⟩ <;> rfl

/-! ## Steps -/

inductive Harvest.Stage where
  /-- Looks at the stop signal, after a report. A wait begins as after one of the stop signal. -/
  | looking (report : Report)
  | selecting
  | reading
  | taking
  | ended (arrival : Arrival)
  deriving DecidableEq

/-- A session that waits for its next batch. -/
structure Harvest where
  session : Session
  waits : WaitSet
  stage : Harvest.Stage

namespace Harvest

inductive Act where
  | sent (message : Message)
  /-- The sending side of the handle goes away. -/
  | severed
  | signal (deed : Deed)
  | look
  | select (report : Report)
  /-- The selector reports that the time is up. -/
  | expire
  | read (disk : Disk) (now observed : Moment)
  | take (now : Moment)

def Act.deed? : Act → Option Deed
  | .signal deed => some deed
  | _ => none

/-- What was done with the signals. -/
def signals (acts : List Act) : List Deed := acts.filterMap Act.deed?

def begin (s : Session) (w : WaitSet) : Harvest := ⟨s, w, .looking .stop⟩

/-- What is to be done when a wait has come to an outcome, or goes on. -/
def Stage.after : Option WaitSet.Outcome → Stage
  | none => .selecting
  | some .stopped => .ended .stopped
  | some (.ready _) => .reading
  | some .timedOut => .taking

/-- What an act does. Who has ended does nothing more, and nothing more happens to the session. -/
def next (h : Harvest) (a : Act) : Harvest :=
  match h.stage, a with
  | _, .signal deed => { h with waits := deed.apply h.waits }
  | .ended _, _ => h
  | _, .sent message => { h with session := h.session.after (.sent message) }
  | _, .severed => { h with session := h.session.after .severed }
  | .looking report, .look =>
    { h with waits := (h.waits.heed report).2, stage := .after (h.waits.heed report).1 }
  | .selecting, .select report => { h with stage := .looking report }
  | .selecting, .expire => { h with stage := .taking }
  | .reading, .read disk now observed =>
    { h with
      session := h.session.after (.ingest disk now observed)
      stage := match (h.session.ingest disk now observed).1 with
        | .error fault => .ended (.fault fault)
        | .ok _ => .taking }
  | .taking, .take now =>
    { h with
      session := (h.session.takeFull now).2
      stage := (h.session.takeFull now).1.elim (.looking .stop) .ended }
  | _, _ => h

def run (h : Harvest) (acts : List Act) : Harvest := acts.foldl next h

/-- What happens to the session with an act. -/
def happenings (h : Harvest) (a : Act) : List Happening :=
  match h.stage, a with
  | .ended _, _ => []
  | _, .sent message => [.sent message]
  | _, .severed => [.severed]
  | .reading, .read disk now observed => [.ingest disk now observed]
  | .taking, .take now => [.takeDue now]
  | _, _ => []

def course (h : Harvest) (acts : List Act) : List Happening := noted next happenings h acts

theorem run_append (h : Harvest) (acts more : List Act) : h.run (acts ++ more) = (h.run acts).run more :=
  List.foldl_append

theorem run_snoc (h : Harvest) (acts : List Act) (a : Act) : h.run (acts ++ [a]) = (h.run acts).next a :=
  List.foldl_append

theorem course_append (h : Harvest) (acts more : List Act) :
    h.course (acts ++ more) = h.course acts ++ (h.run acts).course more :=
  noted_append acts more

theorem course_snoc (h : Harvest) (acts : List Act) (a : Act) :
    h.course (acts ++ [a]) = h.course acts ++ (h.run acts).happenings a := by
  rw [course_append]
  exact congrArg _ (List.append_nil _)

/-! ## What an act can do -/

/-- The wait has not ended. -/
def IsOpen (h : Harvest) : Prop := ∀ arrival, h.stage ≠ .ended arrival

inductive Step (h : Harvest) : Act → List Happening → Harvest → Prop where
  | signal (deed : Deed) : Step h (.signal deed) [] { h with waits := deed.apply h.waits }
  | sent (message : Message) (isOpen : h.IsOpen) :
    Step h (.sent message) [.sent message] { h with session := h.session.after (.sent message) }
  | severed (isOpen : h.IsOpen) :
    Step h .severed [.severed] { h with session := h.session.after .severed }
  | stopped (isOpen : h.IsOpen) (stopped : h.waits.isStopped.1 = true) :
    Step h .look [] { h with waits := h.waits.isStopped.2, stage := .ended .stopped }
  | looked {report : Report} (isOpen : h.IsOpen) :
    Step h .look [] { h with stage := .after report.outcome? }
  | selected {report : Report} (isOpen : h.IsOpen) :
    Step h (.select report) [] { h with stage := .looking report }
  | expired (isOpen : h.IsOpen) : Step h .expire [] { h with stage := .taking }
  | read {disk : Disk} {now observed : Moment} (isOpen : h.IsOpen) :
    Step h (.read disk now observed) [.ingest disk now observed]
      { h with session := h.session.after (.ingest disk now observed), stage := .taking }
  | failed {disk : Disk} {now observed : Moment} {fault : Fault} (isOpen : h.IsOpen)
      (failed : (h.session.ingest disk now observed).1 = .error fault) :
    Step h (.read disk now observed) [.ingest disk now observed]
      { h with
        session := h.session.after (.ingest disk now observed)
        stage := .ended (.fault fault) }
  | taken {now : Moment} {batch : List Event} (isOpen : h.IsOpen) (full : batch ≠ [])
      (due : (h.session.takeDue now).1 = some batch) :
    Step h (.take now) [.takeDue now]
      { h with session := h.session.after (.takeDue now), stage := .ended (.batch batch) }
  | passed {now : Moment} (isOpen : h.IsOpen)
      (nothing : ∀ batch, (h.session.takeDue now).1 = some batch → batch = []) :
    Step h (.take now) [.takeDue now]
      { h with session := h.session.after (.takeDue now), stage := .looking .stop }
  /-- The wait is not where the act belongs. -/
  | rests {a : Act} (silent : a.deed? = none) : Step h a [] h

theorem look_step (h : Harvest) (report : Report) (isOpen : h.IsOpen) :
    Step h .look []
      { h with waits := (h.waits.heed report).2, stage := .after (h.waits.heed report).1 } := by
  rw [WaitSet.heed_eq]
  cases stopped : h.waits.isStopped.1 with
  | true => exact .stopped isOpen stopped
  | false =>
    rw [WaitSet.isStopped_of_quiet stopped]
    exact .looked isOpen

theorem take_step (h : Harvest) (now : Moment) (isOpen : h.IsOpen) :
    Step h (.take now) [.takeDue now]
      { h with
        session := (h.session.takeFull now).2
        stage := (h.session.takeFull now).1.elim (.looking .stop) .ended } := by
  rw [takeFull_eq]
  cases due : (h.session.takeDue now).1 with
  | none => exact .passed isOpen (by simp [due])
  | some batch =>
    cases batch with
    | nil => exact .passed isOpen (by simp [due])
    | cons e events => exact .taken isOpen (by simp) due

theorem read_step (h : Harvest) (disk : Disk) (now observed : Moment) (isOpen : h.IsOpen) :
    Step h (.read disk now observed) [.ingest disk now observed]
      { h with
        session := h.session.after (.ingest disk now observed)
        stage := match (h.session.ingest disk now observed).1 with
          | .error fault => .ended (.fault fault)
          | .ok _ => .taking } := by
  cases result : (h.session.ingest disk now observed).1 with
  | error fault => exact .failed isOpen result
  | ok n => exact .read isOpen

theorem act_step (h : Harvest) (a : Act) : Step h a (h.happenings a) (h.next a) := by
  obtain ⟨session, waits, stage⟩ := h
  have isOpen (unended : ∀ arrival, stage ≠ .ended arrival) : IsOpen ⟨session, waits, stage⟩ := unended
  cases a with
  | signal deed => cases stage <;> exact .signal deed
  | sent message =>
    cases stage with
    | ended => exact .rests rfl
    | looking | selecting | reading | taking => exact .sent message (isOpen (by simp))
  | severed =>
    cases stage with
    | ended => exact .rests rfl
    | looking | selecting | reading | taking => exact .severed (isOpen (by simp))
  | look =>
    cases stage with
    | looking report => exact look_step _ report (isOpen (by simp))
    | selecting | reading | taking | ended => exact .rests rfl
  | select report =>
    cases stage with
    | selecting => exact .selected (isOpen (by simp))
    | looking | reading | taking | ended => exact .rests rfl
  | expire =>
    cases stage with
    | selecting => exact .expired (isOpen (by simp))
    | looking | reading | taking | ended => exact .rests rfl
  | read disk now observed =>
    cases stage with
    | reading => exact read_step _ disk now observed (isOpen (by simp))
    | looking | selecting | taking | ended => exact .rests rfl
  | take now =>
    cases stage with
    | taking => exact take_step _ now (isOpen (by simp))
    | looking | selecting | reading | ended => exact .rests rfl

/-! ## The session -/

theorem session_next (h : Harvest) (a : Act) : (h.next a).session = h.session.run (h.happenings a) := by
  have step := h.act_step a
  generalize h.happenings a = course, h.next a = after at step ⊢
  cases step <;> rfl

theorem session_run (h : Harvest) (acts : List Act) :
    (h.run acts).session = h.session.run (h.course acts) := by
  induction acts using List.reverseRecOn with
  | nil => rfl
  | append_singleton acts a ih =>
    rw [run_snoc, session_next, ih, course_snoc]
    exact List.foldl_append.symm

variable {s₀ : Session} {before : List Happening} {w : WaitSet} {past : List Deed}

theorem session_of_begin (s₀ : Session) (before : List Happening) (w : WaitSet) (acts : List Act) :
    ((begin (s₀.run before) w).run acts).session =
      s₀.run (before ++ (begin (s₀.run before) w).course acts) := by
  rw [session_run]
  exact List.foldl_append.symm

/-! ## What every act keeps -/

theorem signals_snoc (acts : List Act) (a : Act) :
    signals (acts ++ [a]) = signals acts ++ a.deed?.toList := by
  unfold signals
  rw [List.filterMap_append]
  cases deed : a.deed? <;> simp [deed]

theorem tracks_next {h : Harvest} (tracks : Tracks h.waits past) (a : Act) :
    Tracks (h.next a).waits (past ++ a.deed?.toList) := by
  have step := h.act_step a
  generalize h.happenings a = course, h.next a = after at step ⊢
  cases step with
  | signal deed => exact tracks.apply deed
  | stopped => simpa [Act.deed?] using tracks.looked
  | sent | severed | looked | selected | expired | read | failed | taken | passed =>
    simpa [Act.deed?] using tracks
  | rests silent => simpa [silent] using tracks

theorem tracks_run (tracks : Tracks w past) (s : Session) (acts : List Act) :
    Tracks ((begin s w).run acts).waits (past ++ signals acts) := by
  induction acts using List.reverseRecOn with
  | nil =>
    rw [signals, List.filterMap_nil, List.append_nil]
    exact tracks
  | append_singleton acts a ih =>
    rw [run_snoc, signals_snoc, ← List.append_assoc]
    exact tracks_next ih a

/-- How an arrival comes about, with what happened to the session in the wait until then. -/
inductive Brought (s₀ : Session) (before : List Happening) (past : List Deed) :
    List Happening → Arrival → Prop where
  /-- The window is over and its changes have come to something: all of it. -/
  | batch {front : List Happening} {now : Moment}
      (isOver : (s₀.windowAfter (before ++ front)).IsOver s₀.latency now)
      (full : (s₀.windowAfter (before ++ front)).content ≠ []) :
    Brought s₀ before past (front ++ [.takeDue now])
      (.batch (s₀.windowAfter (before ++ front)).content)
  | stopped {course : List Happening} (signalled : Signalled past) :
    Brought s₀ before past course .stopped
  /-- The last read fails. -/
  | fault {front : List Happening} {disk : Disk} {now observed : Moment} {fault : Fault}
      (failed : ((s₀.run (before ++ front)).ingest disk now observed).1 = .error fault) :
    Brought s₀ before past (front ++ [.ingest disk now observed]) (.fault fault)

theorem Brought.later {course : List Happening} {arrival : Arrival}
    (h : Brought s₀ before past course arrival) (more : List Deed) :
    Brought s₀ before (past ++ more) course arrival := by
  cases h with
  | batch isOver full => exact .batch isOver full
  | stopped signalled => exact .stopped (signalled.append more)
  | fault failed => exact .fault failed

theorem brought_of_step (fresh : s₀.Fresh) {acts : List Act} {a : Act} {arrival : Arrival}
    (tracks : Tracks ((begin (s₀.run before) w).run acts).waits past)
    (isOpen : ((begin (s₀.run before) w).run acts).IsOpen)
    (ended : ((begin (s₀.run before) w).run (acts ++ [a])).stage = .ended arrival) :
    Brought s₀ before past ((begin (s₀.run before) w).course (acts ++ [a])) arrival := by
  have session := session_of_begin s₀ before w acts
  have holds := fresh.holds_after (before ++ (begin (s₀.run before) w).course acts)
  rw [← session] at holds
  rw [run_snoc] at ended
  rw [course_snoc]
  have step := ((begin (s₀.run before) w).run acts).act_step a
  generalize ((begin (s₀.run before) w).run acts).happenings a = course,
    ((begin (s₀.run before) w).run acts).next a = after at step ended ⊢
  cases step with
  | signal | sent | severed | rests => exact absurd ended (isOpen arrival)
  | selected | expired | read | passed => cases ended
  | stopped _ stopped =>
    cases ended
    exact .stopped (tracks.raised.mp stopped)
  | @looked report =>
    have none := Waiter.outcome?_ne_stopped report
    cases means : report.outcome? with
    | none => simp [means, Stage.after] at ended
    | some outcome => cases outcome <;> simp_all [Stage.after]
  | failed _ failed =>
    cases ended
    rw [session] at failed
    exact .fault failed
  | taken _ full due =>
    cases ended
    obtain ⟨isOver, rfl⟩ := holds.isOver_of_takeDue due
    exact .batch isOver full

theorem isOpen_begin (s : Session) (w : WaitSet) : (begin s w).IsOpen := by simp [IsOpen, begin]

theorem next_of_ended {h : Harvest} {arrival : Arrival} (ended : h.stage = .ended arrival) (a : Act) :
    (h.next a).stage = .ended arrival ∧ h.happenings a = [] := by
  have step := h.act_step a
  generalize h.happenings a = course, h.next a = after at step ⊢
  cases step with
  | signal | rests => exact ⟨ended, rfl⟩
  | sent _ isOpen | severed isOpen | stopped isOpen | looked isOpen | selected isOpen | expired isOpen
  | read isOpen | failed isOpen | taken isOpen | passed isOpen => exact absurd ended (isOpen arrival)

theorem brought_run (fresh : s₀.Fresh) (tracks : Tracks w past) (acts : List Act) {arrival : Arrival}
    (ended : ((begin (s₀.run before) w).run acts).stage = .ended arrival) :
    Brought s₀ before (past ++ signals acts) ((begin (s₀.run before) w).course acts) arrival := by
  induction acts using List.reverseRecOn with
  | nil => exact absurd ended (isOpen_begin _ w arrival)
  | append_singleton acts a ih =>
    rw [signals_snoc, ← List.append_assoc]
    cases stage : ((begin (s₀.run before) w).run acts).stage with
    | ended other =>
      obtain ⟨same, nothing⟩ := next_of_ended stage a
      rw [run_snoc, same] at ended
      rw [course_snoc, nothing, List.append_nil]
      exact (ih (stage.trans ended)).later _
    | looking | selecting | reading | taking =>
      have isOpen : ((begin (s₀.run before) w).run acts).IsOpen := by simp [IsOpen, stage]
      exact (brought_of_step fresh (tracks_run tracks _ acts) isOpen ended).later _

theorem taken_run (s : Session) (w : WaitSet) (acts : List Act) {batch : List Event}
    (taken : .taken batch ∈ s.ledger ((begin s w).course acts)) (full : batch ≠ []) :
    ((begin s w).run acts).stage = .ended (.batch batch) := by
  induction acts using List.reverseRecOn with
  | nil => cases taken
  | append_singleton acts a ih =>
    have session : ((begin s w).run acts).session = s.run ((begin s w).course acts) :=
      session_run (begin s w) acts
    rw [run_snoc]
    rw [course_snoc, ledger_append, List.mem_append] at taken
    rcases taken with old | new
    · exact (next_of_ended (ih old) a).1
    · rw [← session] at new
      have step := ((begin s w).run acts).act_step a
      generalize ((begin s w).run acts).happenings a = course, ((begin s w).run acts).next a = after
        at step new ⊢
      cases step with
      | signal | stopped | looked | selected | expired | rests => cases new
      | sent | severed | read | failed => simp [ledger, noted, entries] at new
      | @taken now found _ _ due =>
        have there : batch = found := by simpa [ledger, noted, entries, due] using new
        rw [there]
      | @passed now _ nothing =>
        have there : (((begin s w).run acts).session.takeDue now).1 = some batch := by
          simpa [ledger, noted, entries] using new
        exact absurd (nothing batch there) full

/-! ## Waits in one go -/

theorem turn_run (s : Session) (w : WaitSet) (t : Turn) :
    ∃ acts, run ⟨s, w, .after (some t.outcome)⟩ acts =
      ⟨(s.turn t).2, w, (s.turn t).1.elim (.looking .stop) .ended⟩ := by
  unfold turn
  cases t.outcome with
  | stopped => exact ⟨[], rfl⟩
  | timedOut => exact ⟨[.take t.later], rfl⟩
  | ready =>
    cases result : s.ingest t.disk t.now t.observed with
    | mk answer after =>
      have session : s.after (.ingest t.disk t.now t.observed) = after := congrArg Prod.snd result
      cases answer with
      | error fault =>
        refine ⟨[.read t.disk t.now t.observed], ?_⟩
        simp [run, next, Stage.after, session, result]
      | ok n =>
        refine ⟨[.read t.disk t.now t.observed, .take t.later], ?_⟩
        simp [run, next, Stage.after, session, result]

theorem next_look (s : Session) (w : WaitSet) (report : Report) :
    next ⟨s, w, .looking report⟩ .look =
      ⟨s, w.isStopped.2, .after (if w.isStopped.1 then some .stopped else report.outcome?)⟩ := by
  simp only [next, WaitSet.heed_eq]

theorem look_of_quiet (s : Session) {w : WaitSet} (quiet : w.isStopped.1 = false) (report : Report) :
    next ⟨s, w, .looking report⟩ .look = ⟨s, w, .after report.outcome?⟩ := by
  rw [next_look, quiet, WaitSet.isStopped_of_quiet quiet]
  rfl

theorem outcome_run (s : Session) {w : WaitSet} (quiet : w.isStopped.1 = false)
    (outcome : WaitSet.Outcome) :
    ∃ acts after, (begin s w).run acts = ⟨s, after, .after (some outcome)⟩ ∧
      (outcome ≠ .stopped → after = w) := by
  have selecting : (begin s w).run [.look] = ⟨s, w, .selecting⟩ := look_of_quiet s quiet .stop
  cases outcome with
  | ready position =>
    refine ⟨[.look, .select (.handle position), .look], w, ?_, fun _ => rfl⟩
    exact (congrArg (run · [.select (.handle position), .look]) selecting).trans
      (look_of_quiet s quiet (.handle position))
  | timedOut =>
    refine ⟨[.look, .expire], w, ?_, fun _ => rfl⟩
    exact congrArg (run · [.expire]) selecting
  | stopped =>
    have alive : w.signals ≠ 0 := by
      intro none
      rw [WaitSet.isStopped_fst, WaitSet.isRaised, none] at quiet
      simp at quiet
    have raised : w.stop.isStopped.1 = true := by
      rw [Waiter.isStopped_iff, WaitSet.stop, if_neg alive]
      exact .inr (.inl rfl)
    refine ⟨[.signal .stop, .look], w.stop.isStopped.2, ?_, fun other => absurd rfl other⟩
    have looked := next_look s w.stop .stop
    rw [raised] at looked
    exact looked

theorem nextBatch_run {turns : List Turn} {s left : Session} {arrival : Arrival}
    (quiet : w.isStopped.1 = false) (arrived : s.nextBatch turns = (some arrival, left)) :
    ∃ acts after, (begin s w).run acts = ⟨left, after, .ended arrival⟩ := by
  induction turns generalizing s with
  | nil => cases arrived
  | cons t rest ih =>
    obtain ⟨waiting, after, waited, still⟩ := outcome_run s quiet t.outcome
    obtain ⟨acting, acted⟩ := turn_run s after t
    have both : (begin s w).run (waiting ++ acting) =
        ⟨(s.turn t).2, after, (s.turn t).1.elim (.looking .stop) .ended⟩ := by
      rw [run_append, waited, acted]
    unfold nextBatch at arrived
    cases turn : s.turn t with
    | mk answer next =>
      rw [turn] at arrived both
      cases answer with
      | some found =>
        cases arrived
        exact ⟨_, after, both⟩
      | none =>
        have went : t.outcome ≠ .stopped := by
          intro stopped
          simp [Session.turn, stopped] at turn
        obtain rfl := still went
        obtain ⟨more, last, ended⟩ := ih arrived
        refine ⟨waiting ++ acting ++ more, last, ?_⟩
        rw [run_append, both]
        exact ended

theorem waitWithin_run (s : Session) {handles : List Native.Handle} {deadline : Option Moment}
    {jumps : Nat} {t after : WaitSet.Timeline} {outcome : WaitSet.Outcome}
    (waited : WaitSet.Timeline.waitWithin handles deadline jumps t = (some outcome, after)) :
    ∃ acts, run ⟨s, t.waits, .selecting⟩ acts = ⟨s, after.waits, .after (some outcome)⟩ := by
  induction jumps generalizing t with
  | zero => cases waited
  | succ jumps ih =>
    have fired (moment : Moment) (waited : WaitSet.Timeline.waitWithin handles deadline jumps
        (t.fire moment) = (some outcome, after)) :
        ∃ acts, run ⟨s, t.waits, .selecting⟩ acts = ⟨s, after.waits, .after (some outcome)⟩ := by
      obtain ⟨acts, ended⟩ := ih waited
      exact ⟨.signal .stop :: .signal .drop :: acts, ended⟩
    unfold WaitSet.Timeline.waitWithin at waited
    split at waited
    · rename_i report _
      refine ⟨[.select report, .look], ?_⟩
      cases heeded : t.waits.heed report with
      | mk found waits =>
        rw [heeded] at waited
        obtain ⟨rfl, rfl⟩ := Prod.mk.inj waited
        simp [run, next, heeded]
    · split at waited
      · split at waited
        · exact fired _ waited
        · exact ih (t := t.reach _) waited
      · exact fired _ waited
      · exact ih (t := t.reach _) waited
      · cases waited

theorem wait_run (s : Session) {handles : List Native.Handle} {deadline : Option Moment}
    {t after : WaitSet.Timeline} {outcome : WaitSet.Outcome}
    (waited : t.wait handles deadline = (some outcome, after)) :
    ∃ acts, (begin s t.waits).run acts = ⟨s, after.waits, .after (some outcome)⟩ := by
  cases stopped : t.waits.isStopped.1 with
  | true =>
    have reported : t.waits.report? handles deadline t.now = some .stop := by
      rw [WaitSet.isStopped_fst] at stopped
      simp [WaitSet.report?, stopped]
    unfold WaitSet.Timeline.wait WaitSet.Timeline.waitWithin at waited
    simp only [reported, WaitSet.heed_eq, stopped, if_true, Prod.mk.injEq, Option.some.injEq] at waited
    obtain ⟨rfl, rfl⟩ := waited
    have looked := next_look s t.waits .stop
    rw [stopped] at looked
    exact ⟨[.look], looked⟩
  | false =>
    obtain ⟨acts, ended⟩ := waitWithin_run s waited
    exact ⟨.look :: acts, (congrArg (run · acts) (look_of_quiet s stopped .stop)).trans ended⟩

theorem awaitWithin_run {disk : Disk} {turns : Nat} {s left : Session} {t after : WaitSet.Timeline}
    {arrival : Arrival} (arrived : awaitWithin disk turns s t = (some arrival, left, after)) :
    ∃ acts, (begin s t.waits).run acts = ⟨left, after.waits, .ended arrival⟩ := by
  induction turns generalizing s t with
  | zero => cases arrived
  | succ turns ih =>
    unfold awaitWithin at arrived
    split at arrived
    · cases arrived
    · rename_i outcome later waited
      obtain ⟨waiting, waited⟩ := wait_run s waited
      obtain ⟨acting, acted⟩ := turn_run s later.waits ⟨outcome, disk, later.now, later.now, later.now⟩
      have both := (congrArg (run · acting) waited).trans acted
      split at arrived
      · rename_i found next turn
        cases arrived
        rw [turn] at both
        exact ⟨waiting ++ acting, (run_append _ _ _).trans both⟩
      · rename_i next turn
        rw [turn] at both
        obtain ⟨more, ended⟩ := ih arrived
        refine ⟨waiting ++ acting ++ more, ?_⟩
        rw [run_append, run_append]
        exact (congrArg (run · more) both).trans ended

/-! ## What a wait gives and leaves -/

/-- What a wait comes to with some acts, `past` having been done with the signals before. -/
structure Harvested (s₀ : Session) (before : List Happening) (past : List Deed) (h : Harvest)
    (acts : List Act) : Prop where
  ended {arrival : Arrival} : (h.run acts).stage = .ended arrival →
    Brought s₀ before (past ++ signals acts) (h.course acts) arrival
  /-- In place is what was absorbed since a batch was last taken, and the window is where it was opened. -/
  left : (h.run acts).session.takeBatch.1 = (s₀.windowAfter (before ++ h.course acts)).content ∧
    (h.run acts).session.opened = (s₀.windowAfter (before ++ h.course acts)).opened
  kept {first more : List Act} {opened : Moment} : acts = first ++ more →
    (h.run first).session.opened = some opened →
    (∀ batch, .taken batch ∉ (h.run first).session.ledger ((h.run first).course more)) →
    (h.run acts).session.opened = some opened
  /-- A window that is over and came to nothing is closed, and the wait goes on. -/
  passed {now : Moment} : (h.run acts).stage = .taking →
    (s₀.windowAfter (before ++ h.course acts)).IsOver s₀.latency now →
    (s₀.windowAfter (before ++ h.course acts)).content = [] →
    h.run (acts ++ [.take now]) =
      ⟨(h.run acts).session.takeBatch.2, (h.run acts).waits, .looking .stop⟩
  early {now : Moment} : (h.run acts).stage = .taking →
    ¬ (s₀.windowAfter (before ++ h.course acts)).IsOver s₀.latency now →
    h.run (acts ++ [.take now]) = ⟨(h.run acts).session, (h.run acts).waits, .looking .stop⟩
  /-- No other batch is taken. -/
  only {batch : List Event} : .taken batch ∈ h.session.ledger (h.course acts) → batch ≠ [] →
    (h.run acts).stage = .ended (.batch batch)

theorem next_take {h : Harvest} {now : Moment} (taking : h.stage = .taking)
    (nothing : (h.session.takeFull now).1 = none) :
    h.next (.take now) = ⟨(h.session.takeDue now).2, h.waits, .looking .stop⟩ := by
  unfold next
  rw [taking]
  simp only [nothing]
  rw [takeFull_eq]
  rfl

theorem harvested (fresh : s₀.Fresh) (before : List Happening) (tracks : Tracks w past) (acts : List Act) :
    Harvested s₀ before past (begin (s₀.run before) w) acts := by
  have session := session_of_begin s₀ before w acts
  have holds := fresh.holds_after (before ++ (begin (s₀.run before) w).course acts)
  rw [← session] at holds
  constructor
  case ended => exact brought_run fresh tracks acts
  case left => exact ⟨holds.events, holds.opened⟩
  case kept =>
    rintro first more opened rfl there untaken
    rw [run_append, session_run, (window_run_of_untaken _ (by simp [there]) untaken).1]
    exact there
  case passed =>
    intro now taking isOver nothing
    have due := holds.takeDue_of_isOver isOver
    rw [run_snoc, next_take taking (by rw [takeFull_eq, due, nothing]), due]
  case early =>
    intro now taking early
    have due := holds.takeDue_of_not_isOver early
    rw [run_snoc, next_take taking (by rw [takeFull_eq, due]), due]
  case only => exact taken_run (s₀.run before) w acts

/-- **Waiting for the next batch.** Whatever happened to a session before, a wait for its next batch gives
out only a batch that is due and not empty, all of it, and ends otherwise only when stop was signalled
or with the fault of its last read. What is not given out stays in place. A wait in turns, and one on a
timeline, is such a wait. -/
theorem next_batch (fresh : s₀.Fresh) (before : List Happening) (now : Moment)
    (earlier : List Waiter.Act) :
    let s := s₀.run before
    let w := ((Waiter.start now).run earlier).waits
    (∀ acts, Harvested s₀ before (Waiter.deeds earlier) (begin s w) acts) ∧
    (∀ turns arrival left, w.isStopped.1 = false → s.nextBatch turns = (some arrival, left) →
      ∃ acts after, (begin s w).run acts = ⟨left, after, .ended arrival⟩) ∧
    ∀ disk t arrival left after, t.waits = w → s.await disk t = (some arrival, left, after) →
      ∃ acts, (begin s w).run acts = ⟨left, after.waits, .ended arrival⟩ := by
  intro s w
  have tracks : Tracks w (Waiter.deeds earlier) := Waiter.tracks_start.run (v := Waiter.start now) earlier
  refine ⟨harvested fresh before tracks, fun turns arrival left => nextBatch_run, ?_⟩
  rintro disk t arrival left after same arrived
  rw [← same]
  exact awaitWithin_run arrived

/-- A file comes and goes, and its window is passed over. Another one comes, and by the time at which the
native layer fails its window is over too: the fault is told, and the batch stays. -/
theorem next_batch_passes :
    let disk : Disk := ⟨.ok, fun _ => true, fun _ => true, fun _ => .ok []⟩
    let root : Path := ⟨[0x2F]⟩
    let x : Path := ⟨[0x2F, 0x78]⟩
    let y : Path := ⟨[0x2F, 0x79]⟩
    let moment (n : Int64) : Moment := ⟨n, ⟨0, by decide⟩⟩
    let error : Native.Error := ⟨.tooManyWatches, []⟩
    let s : Session := ⟨root, true, .ofSeconds 1, none, .make root 0 true, .empty, none, []⟩
    let before : List Happening :=
      [.sent (.record ⟨.create, [x], false⟩), .sent (.record ⟨.remove, [x], false⟩),
        .ingest disk (moment 0) (moment 0)]
    let ready : List Act := [.look, .select (.handle 0), .look]
    let acts : List Act := [.look, .expire, .take (moment 1), .sent (.record ⟨.create, [y], false⟩)] ++
      ready ++ [.read disk (moment 2) (moment 2), .take (moment 2), .sent (.error error)] ++
      ready ++ [.read disk (moment 5) (moment 5)]
    let h := begin (s.run before) .start
    s.Fresh ∧ (s.run before).opened = some (moment 0) ∧
    (h.run (acts.take 3)).session.opened = none ∧
    Brought s before [] (h.course acts) (.fault (.error (.native root error))) ∧
    (h.run acts).session.takeBatch.1 = [⟨y, .created, moment 2⟩] ∧
    (h.run acts).session.opened = some (moment 2) := by
  intro disk root x y moment error s before ready acts h
  have fresh : s.Fresh := ⟨rfl, rfl, rfl⟩
  have harvested := (next_batch fresh before .origin []).1
  have ended : (h.run acts).stage = .ended (.fault (.error (.native root error))) := by decide +kernel
  have taking : (h.run [.look, .expire]).stage = .taking := by decide +kernel
  have isOver : (s.windowAfter (before ++ h.course [.look, .expire])).IsOver s.latency (moment 1) :=
    ⟨moment 0, by decide +kernel, by decide⟩
  have passed := (harvested [.look, .expire]).passed taking isOver (by decide +kernel)
  obtain ⟨batch, opened⟩ := (harvested acts).left
  refine ⟨fresh, by decide +kernel, ?_, (harvested acts).ended ended, ?_, ?_⟩
  · exact congrArg (fun h => h.session.opened) passed
  · exact batch.trans (by decide +kernel)
  · exact opened.trans (by decide +kernel)

end Harvest

end DirectoryWatch.Session
