import DirectoryWatch.Native.WaitSet.Timeline
import DirectoryWatch.Proofs.Trace

/-!
# Waits in small steps

A wait looks at the stop signal and then asks the selector, time and again: after each report of
something that came up it looks at the stop signal once more before it believes the report, and a
time-out ends it. Others send stop, send messages and go away between any two of these steps. A wait
that nobody disturbs ends as `heed` says; the waits on a timeline are courses of these steps too.
-/

namespace DirectoryWatch.Native.WaitSet

/-! ## The stop signal -/

theorem isStopped_fst (w : WaitSet) : w.isStopped.1 = (w.seen || w.isRaised) := by
  unfold isStopped
  cases w.seen <;> cases w.isRaised <;> rfl

theorem isStopped_again (w : WaitSet) : w.isStopped.2.isStopped.1 = w.isStopped.1 := by
  simp only [isStopped_fst]
  unfold isStopped
  split
  · rfl
  · split <;> simp_all

theorem signals_isStopped (w : WaitSet) : w.isStopped.2.signals = w.signals := by
  unfold isStopped
  split
  · rfl
  · split <;> rfl

theorem isStopped_of_quiet {w : WaitSet} (quiet : w.isStopped.1 = false) : w.isStopped.2 = w := by
  rw [isStopped_fst, Bool.or_eq_false_iff] at quiet
  simp [isStopped, quiet.1, quiet.2]

/-- What a report that is believed means for a wait. -/
def Report.outcome? : Report → Option Outcome
  | .stop => none
  | .handle position => some (.ready position)
  | .timeout => some .timedOut

theorem heed_eq (w : WaitSet) (report : Report) :
    w.heed report = (if w.isStopped.1 then some .stopped else report.outcome?, w.isStopped.2) := by
  unfold heed
  cases w.isStopped with
  | mk stopped after => cases stopped <;> cases report <;> rfl

/-! ## Numbers of a selector -/

/-- The numbers that a selector gives to handles that are registered one after the other. -/
def numbers (next : Nat) : List Handle → List Nat
  | [] => []
  | _ :: rest => next :: numbers (next + 1) rest

/-- What a number means. The stop signal was registered first, with the number 0, and then the handles.
A number that none of them has sends the wait back to the selector, as that of the stop signal. -/
def Report.ofNumber (handles : List Handle) (number : Nat) : Report :=
  if number = 0 then .stop
  else match (numbers 1 handles).findIdx? (· == number) with
    | some position => .handle position
    | none => .stop

theorem findIdx?_numbers (handles : List Handle) (next number : Nat) :
    (numbers next handles).findIdx? (· == number) =
      if next ≤ number ∧ number < next + handles.length then some (number - next) else none := by
  induction handles generalizing next with
  | nil => simp [numbers]
  | cons h rest ih =>
    rw [numbers, List.findIdx?_cons, ih, List.length_cons]
    by_cases here : next = number
    · simp [here]
    · simp only [beq_iff_eq, here, if_false]
      split
      · rename_i later
        rw [if_pos (by omega), Option.map_some, show number - next = number - (next + 1) + 1 by omega]
      · rename_i other
        rw [if_neg (by omega), Option.map_none]

theorem ofNumber_eq_handle_iff {handles : List Handle} {number position : Nat} :
    Report.ofNumber handles number = .handle position ↔
      number = position + 1 ∧ position < handles.length := by
  unfold Report.ofNumber
  rw [findIdx?_numbers]
  split
  · simp [*]
  · split
    · rename_i found
      split at found
      · obtain rfl := Option.some.inj found
        simp only [Report.handle.injEq]
        omega
      · cases found
    · rename_i found
      split at found
      · cases found
      · simp only [reduceCtorEq, false_iff]
        omega

/-! ## Steps -/

/-- What a wait was asked for, with its handles in the order in which they were given. -/
structure Call where
  handles : List Handle
  deadline : Option Moment

inductive Stage where
  /-- No wait is under way. -/
  | idle
  /-- A wait asks the selector. -/
  | selecting (call : Call)
  /-- A wait looks at the stop signal, after a report. It begins as after one of the stop signal. -/
  | looking (call : Call) (report : Report)

/-- A wait set in the hands of its owner. -/
structure Waiter where
  waits : WaitSet
  now : Moment
  stage : Stage

/-- What is done with a signal. -/
inductive Deed where
  | stop
  | clone
  | drop
  deriving DecidableEq

def Deed.apply (w : WaitSet) : Deed → WaitSet
  | stop => w.stop
  | clone => w.cloneSignal
  | drop => w.dropSignal

def Call.onHandle (c : Call) (position : Nat) (f : Handle → Handle) : Call :=
  { c with handles := c.handles.modify position f }

def Stage.onHandle (position : Nat) (f : Handle → Handle) : Stage → Stage
  | idle => idle
  | selecting call => selecting (call.onHandle position f)
  | looking call report => looking (call.onHandle position f) report

namespace Waiter

inductive Act where
  | signal (deed : Deed)
  | tick (moment : Moment)
  /-- A message is sent to the handle at a position of the wait under way. -/
  | send (position : Nat) (message : Message)
  | sever (position : Nat)
  /-- The owner asks whether stop was signalled. -/
  | ask
  | wait (handles : List Handle) (deadline : Option Moment)
  | look
  /-- The selector reports what has a number. -/
  | select (number : Nat)
  /-- The selector reports that the time is up. -/
  | expire

def Act.deed? : Act → Option Deed
  | .signal deed => some deed
  | _ => none

inductive Answer where
  | told (stopped : Bool)
  | ended (outcome : Outcome)
  deriving DecidableEq

/-- The wait under way looks at the stop signal. -/
def look (v : Waiter) (call : Call) (report : Report) : Waiter × Option Answer :=
  match v.waits.heed report with
  | (some outcome, waits) => ({ v with waits, stage := .idle }, some (.ended outcome))
  | (none, waits) => ({ v with waits, stage := .selecting call }, none)

/-- An act, and the answer that the owner gets with it. Who waits does nothing else. -/
def act (v : Waiter) (a : Act) : Waiter × Option Answer :=
  match a, v.stage with
  | .signal deed, _ => ({ v with waits := deed.apply v.waits }, none)
  | .tick moment, _ => ({ v with now := if v.now ≤ moment then moment else v.now }, none)
  | .send position m, stage => ({ v with stage := stage.onHandle position fun h => h.send m }, none)
  | .sever position, stage => ({ v with stage := stage.onHandle position Handle.disconnect }, none)
  | .ask, .idle => ({ v with waits := v.waits.isStopped.2 }, some (.told v.waits.isStopped.1))
  | .wait handles deadline, .idle => ({ v with stage := .looking ⟨handles, deadline⟩ .stop }, none)
  | .look, .looking call report => v.look call report
  | .select number, .selecting call =>
    ({ v with stage := .looking call (.ofNumber call.handles number) }, none)
  | .expire, .selecting _ => ({ v with stage := .idle }, some (.ended .timedOut))
  | .ask, _ | .wait _ _, _ | .look, _ | .select _, _ | .expire, _ => (v, none)

def next (v : Waiter) (a : Act) : Waiter := (v.act a).1

def run (v : Waiter) (acts : List Act) : Waiter := acts.foldl next v

/-- The answers that the owner gets, in order. -/
def answers (v : Waiter) (acts : List Act) : List Answer :=
  noted next (fun v a => (v.act a).2.toList) v acts

/-! ## What an act can do -/

inductive Step (v : Waiter) : Act → Waiter → Option Answer → Prop where
  | signal (deed : Deed) : Step v (.signal deed) { v with waits := deed.apply v.waits } none
  | tick (moment : Moment) :
    Step v (.tick moment) { v with now := if v.now ≤ moment then moment else v.now } none
  | send (position : Nat) (m : Message) :
    Step v (.send position m) { v with stage := v.stage.onHandle position fun h => h.send m } none
  | sever (position : Nat) :
    Step v (.sever position) { v with stage := v.stage.onHandle position Handle.disconnect } none
  | asked (idle : v.stage = .idle) :
    Step v .ask { v with waits := v.waits.isStopped.2, stage := .idle }
      (some (.told v.waits.isStopped.1))
  | begun {handles : List Handle} {deadline : Option Moment} (idle : v.stage = .idle) :
    Step v (.wait handles deadline) { v with stage := .looking ⟨handles, deadline⟩ .stop } none
  | stopped {call : Call} {report : Report} (looking : v.stage = .looking call report)
      (stopped : v.waits.isStopped.1 = true) :
    Step v .look { v with waits := v.waits.isStopped.2, stage := .idle } (some (.ended .stopped))
  | passed {call : Call} {report : Report} (looking : v.stage = .looking call report)
      (quiet : v.waits.isStopped.1 = false) (nothing : report.outcome? = none) :
    Step v .look { v with stage := .selecting call } none
  | believed {call : Call} {report : Report} {outcome : Outcome}
      (looking : v.stage = .looking call report) (quiet : v.waits.isStopped.1 = false)
      (means : report.outcome? = some outcome) :
    Step v .look { v with stage := .idle } (some (.ended outcome))
  | selected {call : Call} {number : Nat} (selecting : v.stage = .selecting call) :
    Step v (.select number) { v with stage := .looking call (.ofNumber call.handles number) } none
  | expired {call : Call} (selecting : v.stage = .selecting call) :
    Step v .expire { v with stage := .idle } (some (.ended .timedOut))
  /-- The owner is not where the act belongs. -/
  | rests {a : Act} (silent : a.deed? = none) : Step v a v none

theorem look_step {v : Waiter} {call : Call} {report : Report} (looking : v.stage = .looking call report) :
    Step v .look (v.look call report).1 (v.look call report).2 := by
  unfold look
  rw [heed_eq]
  cases stopped : v.waits.isStopped.1 with
  | true => exact .stopped looking stopped
  | false =>
    have same : v.waits.isStopped.2 = v.waits := isStopped_of_quiet stopped
    cases means : report.outcome? with
    | none =>
      simp only [Bool.false_eq_true, if_false, same]
      exact .passed looking stopped means
    | some outcome =>
      simp only [Bool.false_eq_true, if_false, same]
      exact .believed looking stopped means

theorem act_step (v : Waiter) (a : Act) : Step v a (v.next a) (v.act a).2 := by
  unfold next
  cases a with
  | signal deed => exact .signal deed
  | tick moment => exact .tick moment
  | send position m => exact .send position m
  | sever position => exact .sever position
  | ask =>
    cases stage : v.stage with
    | idle =>
      simp only [act, stage]
      exact .asked stage
    | selecting | looking =>
      simp only [act, stage]
      exact .rests rfl
  | wait handles deadline =>
    cases stage : v.stage with
    | idle =>
      simp only [act, stage]
      exact .begun stage
    | selecting | looking =>
      simp only [act, stage]
      exact .rests rfl
  | look =>
    cases stage : v.stage with
    | looking call report =>
      simp only [act, stage]
      exact look_step stage
    | idle | selecting =>
      simp only [act, stage]
      exact .rests rfl
  | select number =>
    cases stage : v.stage with
    | selecting call =>
      simp only [act, stage]
      exact .selected stage
    | idle | looking =>
      simp only [act, stage]
      exact .rests rfl
  | expire =>
    cases stage : v.stage with
    | selecting call =>
      simp only [act, stage]
      exact .expired stage
    | idle | looking =>
      simp only [act, stage]
      exact .rests rfl

/-! ## Waits in one go -/

/-- What the selector may report: the stop signal at any time, a handle that is ready, and that the time
is up when nothing is ready and the deadline has passed. -/
def Reliable (v : Waiter) : Act → Prop
  | .select number => ∀ call, v.stage = .selecting call →
    v.waits.Truthful call.handles call.deadline v.now (.ofNumber call.handles number)
  | .expire => ∀ call, v.stage = .selecting call →
    v.waits.Truthful call.handles call.deadline v.now .timeout
  | _ => True

variable {v : Waiter} {call : Call} {report : Report}

theorem number_of_truthful {now : Moment} {waits : WaitSet}
    (truthful : waits.Truthful call.handles call.deadline now report) (up : report ≠ .timeout) :
    ∃ number, Report.ofNumber call.handles number = report := by
  cases report with
  | stop => exact ⟨0, rfl⟩
  | timeout => exact absurd rfl up
  | handle position =>
    obtain ⟨h, there, _⟩ := truthful
    have inside : position < call.handles.length := (List.getElem?_eq_some_iff.mp there).1
    exact ⟨position + 1, ofNumber_eq_handle_iff.mpr ⟨rfl, inside⟩⟩

/-- Some acts, with a selector to rely on, the answers that they give, and where they lead. -/
structure Course (v : Waiter) (acts : List Act) (answers : List Answer) (w : Waiter) : Prop where
  reliable : Throughout next Reliable v acts
  answers : v.answers acts = answers
  run : v.run acts = w

theorem Course.append {w x : Waiter} {acts more : List Act} {answers others : List Answer}
    (h : Course v acts answers w) (later : Course w more others x) :
    Course v (acts ++ more) (answers ++ others) x := by
  obtain ⟨reliable, told, rfl⟩ := h
  obtain ⟨further, after, rfl⟩ := later
  refine ⟨(throughout_append acts more).mpr ⟨reliable, further⟩, ?_, List.foldl_append⟩
  rw [← told, ← after]
  exact noted_append acts more

theorem select_look (selecting : v.stage = .selecting call) (number : Nat) :
    let heeded := v.waits.heed (.ofNumber call.handles number)
    v.answers [.select number, .look] = heeded.1.toList.map .ended ∧
    v.run [.select number, .look] =
      ⟨heeded.2, v.now, heeded.1.elim (.selecting call) fun _ => .idle⟩ := by
  have acted : v.act (.select number) =
      ({ v with stage := .looking call (.ofNumber call.handles number) }, none) := by
    simp only [act, selecting]
  have looked (report : Report) : ({ v with stage := .looking call report } : Waiter).act .look =
      v.look call report := rfl
  simp only [answers, noted, run, List.foldl, next, acted, looked, look]
  rcases v.waits.heed (.ofNumber call.handles number) with ⟨_ | outcome, waits⟩ <;> exact ⟨rfl, rfl⟩

theorem heed_course (selecting : v.stage = .selecting call) (unseen : v.waits.seen = false)
    (truthful : v.waits.Truthful call.handles call.deadline v.now report) :
    ∃ acts, Course v acts ((v.waits.heed report).1.toList.map .ended)
      ⟨(v.waits.heed report).2, v.now,
        (v.waits.heed report).1.elim (.selecting call) fun _ => .idle⟩ := by
  by_cases up : report = .timeout
  · subst up
    have quiet : v.waits.isStopped.1 = false := by
      rw [isStopped_fst, unseen, truthful.1]
      rfl
    have heeded : v.waits.heed .timeout = (some .timedOut, v.waits) := by
      rw [heed_eq, quiet, isStopped_of_quiet quiet]
      rfl
    have acted : v.act .expire = ({ v with stage := .idle }, some (.ended .timedOut)) := by
      simp only [act, selecting]
    refine ⟨[.expire], ⟨?_, trivial⟩, ?_, ?_⟩
    · intro other same
      rw [selecting, Stage.selecting.injEq] at same
      rw [← same]
      exact truthful
    · simp [answers, noted, acted, heeded]
    · simp [run, next, acted, heeded]
  · obtain ⟨number, rfl⟩ := number_of_truthful truthful up
    obtain ⟨answers, run⟩ := select_look selecting number
    refine ⟨[.select number, .look], ⟨?_, trivial, trivial⟩, answers, run⟩
    intro other same
    rw [selecting, Stage.selecting.injEq] at same
    rw [← same]
    exact truthful

theorem begin_course (idle : v.stage = .idle) (call : Call) :
    Course v [.wait call.handles call.deadline, .look]
      (if v.waits.isStopped.1 then [.ended .stopped] else [])
      ⟨v.waits.isStopped.2, v.now, if v.waits.isStopped.1 then .idle else .selecting call⟩ := by
  have begun : v.act (.wait call.handles call.deadline) =
      ({ v with stage := .looking call .stop }, none) := by
    simp only [act, idle]
  have looked : ({ v with stage := .looking call .stop } : Waiter).act .look =
      v.look call .stop := rfl
  refine ⟨⟨trivial, trivial, trivial⟩, ?_, ?_⟩
  · simp only [answers, noted, next, begun, looked, look, heed_eq, Report.outcome?]
    cases v.waits.isStopped.1 <;> rfl
  · simp only [run, List.foldl, next, begun, looked, look, heed_eq, Report.outcome?]
    cases v.waits.isStopped.1 <;> rfl

/-! ## On a timeline -/

theorem waitWithin_course {handles : List Handle} {deadline : Option Moment} {jumps : Nat}
    {t after : Timeline} {outcome : Outcome} (unseen : t.waits.seen = false)
    (waited : Timeline.waitWithin handles deadline jumps t = (some outcome, after)) :
    ∃ acts, Course ⟨t.waits, t.now, .selecting ⟨handles, deadline⟩⟩ acts [.ended outcome]
      ⟨after.waits, after.now, .idle⟩ := by
  induction jumps generalizing t with
  | zero => simp [Timeline.waitWithin] at waited
  | succ jumps ih =>
    have fired (moment : Moment)
        (waited : Timeline.waitWithin handles deadline jumps (t.fire moment) = (some outcome, after)) :
        ∃ acts, Course ⟨t.waits, t.now, .selecting ⟨handles, deadline⟩⟩ acts [.ended outcome]
          ⟨after.waits, after.now, .idle⟩ := by
      have still : (t.fire moment).waits.seen = false := by
        change t.waits.stop.seen = false
        by_cases none : t.waits.signals = 0 <;> simp [WaitSet.stop, none, unseen]
      obtain ⟨acts, course⟩ := ih still waited
      have before : Course ⟨t.waits, t.now, .selecting ⟨handles, deadline⟩⟩
          [.tick moment, .signal .stop, .signal .drop] []
          ⟨(t.fire moment).waits, (t.fire moment).now, .selecting ⟨handles, deadline⟩⟩ :=
        ⟨⟨trivial, trivial, trivial, trivial⟩, rfl, rfl⟩
      exact ⟨_, before.append course⟩
    have reached (moment : Moment)
        (waited : Timeline.waitWithin handles deadline jumps (t.reach moment) = (some outcome, after)) :
        ∃ acts, Course ⟨t.waits, t.now, .selecting ⟨handles, deadline⟩⟩ acts [.ended outcome]
          ⟨after.waits, after.now, .idle⟩ := by
      obtain ⟨acts, course⟩ := ih (t := t.reach moment) unseen waited
      have before : Course ⟨t.waits, t.now, .selecting ⟨handles, deadline⟩⟩ [.tick moment] []
          ⟨(t.reach moment).waits, (t.reach moment).now, .selecting ⟨handles, deadline⟩⟩ :=
        ⟨⟨trivial, trivial⟩, rfl, rfl⟩
      exact ⟨_, before.append course⟩
    unfold Timeline.waitWithin at waited
    split at waited
    · rename_i report reported
      obtain ⟨acts, course⟩ := heed_course (v := ⟨t.waits, t.now, .selecting ⟨handles, deadline⟩⟩) rfl
        unseen (report?_truthful reported)
      cases heeded : t.waits.heed report with
      | mk found waits =>
        rw [heeded] at waited
        obtain ⟨rfl, rfl⟩ := Prod.mk.inj waited
        simp only [heeded] at course
        exact ⟨acts, course⟩
    · split at waited
      · split at waited
        · exact fired _ waited
        · exact reached _ waited
      · exact fired _ waited
      · exact reached _ waited
      · cases waited

/-- A wait on a timeline is a course of these steps, in which the clock moves on and stop is sent. -/
theorem wait_course {t after : Timeline} (call : Call) {outcome : Outcome}
    (waited : t.wait call.handles call.deadline = (some outcome, after)) :
    ∃ acts, Course ⟨t.waits, t.now, .idle⟩ (.wait call.handles call.deadline :: acts) [.ended outcome]
      ⟨after.waits, after.now, .idle⟩ := by
  have begins := begin_course (v := ⟨t.waits, t.now, .idle⟩) rfl call
  cases stopped : t.waits.isStopped.1 with
  | true =>
    have reported : t.waits.report? call.handles call.deadline t.now = some .stop := by
      rw [isStopped_fst] at stopped
      simp [report?, stopped]
    unfold Timeline.wait Timeline.waitWithin at waited
    simp only [reported, heed_eq, stopped, if_true, Prod.mk.injEq, Option.some.injEq] at waited
    obtain ⟨rfl, rfl⟩ := waited
    simp only [stopped, if_true] at begins
    exact ⟨[.look], begins⟩
  | false =>
    simp only [stopped, isStopped_of_quiet stopped, Bool.false_eq_true, if_false] at begins
    rw [isStopped_fst, Bool.or_eq_false_iff] at stopped
    obtain ⟨acts, course⟩ := waitWithin_course stopped.1 waited
    exact ⟨_, begins.append course⟩

end Waiter

end DirectoryWatch.Native.WaitSet
