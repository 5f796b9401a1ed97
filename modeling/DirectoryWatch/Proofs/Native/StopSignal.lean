import DirectoryWatch.Proofs.Native.Waiter
import Mathlib.Data.List.Infix
import Mathlib.Data.List.Induction

/-!
# The stop signal

Stop is raised by a message of which a second one is no more, and by the loss of all signals, and the
owner takes the message when he looks. That he looked is kept, so from then on he is told of the stop
each time, whatever is done with the signals.
-/

namespace DirectoryWatch.Native.WaitSet

namespace Waiter

/-! ## What was done with the signals -/

def deeds (acts : List Act) : List Deed := acts.filterMap Act.deed?

theorem deeds_cons (a : Act) (rest : List Act) : deeds (a :: rest) = a.deed?.toList ++ deeds rest := by
  unfold deeds
  cases there : a.deed? <;> simp [there]

/-- All signals were dropped: the first one, and as many as there were clones. -/
def Released (past : List Deed) : Prop :=
  ∃ first, first <+: past ∧ first.count .drop = first.count .clone + 1

def Signalled (past : List Deed) : Prop := .stop ∈ past ∨ Released past

theorem Released.append {past : List Deed} (h : Released past) (more : List Deed) :
    Released (past ++ more) := by
  obtain ⟨first, inside, count⟩ := h
  exact ⟨first, inside.trans (List.prefix_append past more), count⟩

theorem released_snoc {past : List Deed} {d : Deed} :
    Released (past ++ [d]) ↔
      Released past ∨ (past ++ [d]).count .drop = (past ++ [d]).count .clone + 1 := by
  unfold Released
  constructor
  · rintro ⟨first, inside, count⟩
    rcases List.prefix_concat_iff.mp inside with rfl | inside
    · exact .inr count
    · exact .inl ⟨first, inside, count⟩
  · rintro (released | count)
    · exact Released.append released [d]
    · exact ⟨past ++ [d], List.prefix_refl _, count⟩

theorem Signalled.append {past : List Deed} (h : Signalled past) (more : List Deed) :
    Signalled (past ++ more) := by
  rcases h with sent | released
  · exact .inl (List.mem_append_left more sent)
  · exact .inr (released.append more)

theorem isStopped_iff (w : WaitSet) :
    w.isStopped.1 = true ↔ w.seen = true ∨ w.queued = true ∨ w.signals = 0 := by
  simp [isStopped_fst, isRaised]

/-- How a wait set stands to what was done with its signals. -/
structure Tracks (w : WaitSet) (past : List Deed) : Prop where
  alive : ¬ Released past → w.signals + past.count .drop = past.count .clone + 1
  gone : Released past → w.signals = 0
  raised : w.isStopped.1 = true ↔ Signalled past

variable {w : WaitSet} {past : List Deed}

theorem tracks_start : Tracks .start [] := by
  have kept : ¬ Released [] := by
    rintro ⟨first, inside, count⟩
    obtain rfl := List.prefix_nil.mp inside
    simp at count
  exact ⟨fun _ => rfl, fun h => absurd h kept, by simp [Signalled, kept, isStopped_iff, WaitSet.start]⟩

theorem Tracks.looked (h : Tracks w past) : Tracks w.isStopped.2 past :=
  ⟨by rw [signals_isStopped]; exact h.alive, by rw [signals_isStopped]; exact h.gone,
    by rw [isStopped_again]; exact h.raised⟩

theorem Tracks.apply (h : Tracks w past) (d : Deed) : Tracks (d.apply w) (past ++ [d]) := by
  by_cases released : Released past
  · -- Without signals nothing can be done any more.
    have none := h.gone released
    have still : (d.apply w).signals = 0 := by
      cases d <;> simp [Deed.apply, WaitSet.stop, cloneSignal, dropSignal, none]
    refine ⟨fun alive => absurd (released.append [d]) alive, fun _ => still, ?_⟩
    rw [isStopped_iff]
    exact ⟨fun _ => .inr (released.append [d]), fun _ => .inr (.inr still)⟩
  · have alive := h.alive released
    have some : w.signals ≠ 0 := by
      intro none
      exact released ⟨past, List.prefix_refl _, by omega⟩
    have sent : (w.seen = true ∨ w.queued = true) ↔ .stop ∈ past := by
      have raised := h.raised
      simpa [isStopped_iff, Signalled, released, some] using raised
    have count : (d.apply w).signals + (past ++ [d]).count .drop = (past ++ [d]).count .clone + 1 := by
      cases d <;> simp [Deed.apply, WaitSet.stop, cloneSignal, dropSignal, some] <;> omega
    have gone : Released (past ++ [d]) ↔ (d.apply w).signals = 0 := by
      rw [released_snoc]
      simp only [released, false_or]
      omega
    refine ⟨fun _ => count, gone.mp, ?_⟩
    rw [isStopped_iff, Signalled, gone, List.mem_append, ← sent]
    cases d <;> simp [Deed.apply, WaitSet.stop, cloneSignal, dropSignal, some, or_assoc]

theorem Tracks.next {v : Waiter} (h : Tracks v.waits past) (a : Act) :
    Tracks (v.next a).waits (past ++ a.deed?.toList) := by
  have step := act_step v a
  generalize v.next a = u, (v.act a).2 = told at step ⊢
  cases step with
  | signal d => exact h.apply d
  | asked | stopped => simpa [Act.deed?] using h.looked
  | tick | send | sever | begun | passed | believed | selected | expired =>
    simpa [Act.deed?] using h
  | rests silent => simpa [silent] using h

theorem Tracks.run {v : Waiter} (h : Tracks v.waits past) (acts : List Act) :
    Tracks (v.run acts).waits (past ++ deeds acts) := by
  induction acts generalizing v past with
  | nil =>
    rw [deeds, List.filterMap_nil, List.append_nil]
    exact h
  | cons a rest ih =>
    rw [deeds_cons, ← List.append_assoc]
    exact ih (h.next a)

/-- Just made, with no wait under way. -/
def start (now : Moment) : Waiter := ⟨.start, now, .idle⟩

theorem isStopped_run_iff (now : Moment) (acts : List Act) :
    ((start now).run acts).waits.isStopped.1 = true ↔ Signalled (deeds acts) :=
  (tracks_start.run (v := start now) acts).raised

/-! ## A stop that was seen -/

def Answer.SaysStopped : Answer → Prop
  | .told stopped => stopped = true
  | .ended outcome => outcome = .stopped

theorem outcome?_ne_stopped (report : Report) : report.outcome? ≠ some .stopped := by
  cases report <;> simp [Report.outcome?]

/-- Stop was signalled, and a wait under way looks at the signal before anything else. -/
structure Stopping (v : Waiter) : Prop where
  stopped : v.waits.isStopped.1 = true
  first : ∀ call, v.stage ≠ .selecting call

theorem isStopped_apply {w : WaitSet} (stopped : w.isStopped.1 = true) (d : Deed) :
    (d.apply w).isStopped.1 = true := by
  rw [isStopped_iff] at stopped ⊢
  by_cases none : w.signals = 0
  · cases d <;> simp [Deed.apply, WaitSet.stop, cloneSignal, dropSignal, none]
  · cases d <;> simp [Deed.apply, WaitSet.stop, cloneSignal, dropSignal, none] at stopped ⊢
    · exact stopped
    · exact stopped.elim .inl fun queued => .inr (.inl queued)

theorem not_selecting_onHandle {stage : Stage} (first : ∀ call, stage ≠ .selecting call) (position : Nat)
    (f : Handle → Handle) (call : Call) : stage.onHandle position f ≠ .selecting call := by
  cases stage with
  | selecting under => exact absurd rfl (first under)
  | idle | looking => simp [Stage.onHandle]

theorem Stopping.next {v : Waiter} (h : v.Stopping) (a : Act) :
    (v.next a).Stopping ∧ ∀ answer, (v.act a).2 = some answer → answer.SaysStopped := by
  have step := act_step v a
  generalize v.next a = u, (v.act a).2 = told at step ⊢
  obtain ⟨stopped, first⟩ := h
  have seen : v.waits.isStopped.2.isStopped.1 = true := by rw [isStopped_again, stopped]
  cases step with
  | signal d => exact ⟨⟨isStopped_apply stopped d, first⟩, by simp⟩
  | tick | rests => exact ⟨⟨stopped, first⟩, by simp⟩
  | send | sever => exact ⟨⟨stopped, not_selecting_onHandle first _ _⟩, by simp⟩
  | begun => exact ⟨⟨stopped, by simp⟩, by simp⟩
  | asked =>
    refine ⟨⟨seen, by simp⟩, ?_⟩
    rintro _ ⟨⟩
    exact stopped
  | stopped =>
    refine ⟨⟨seen, by simp⟩, ?_⟩
    rintro _ ⟨⟩
    rfl
  | passed _ quiet | believed _ quiet => simp [stopped] at quiet
  | selected selecting | expired selecting => exact absurd selecting (first _)

theorem Stopping.run {v : Waiter} (h : v.Stopping) (acts : List Act) :
    (v.run acts).Stopping ∧ ∀ answer ∈ v.answers acts, answer.SaysStopped := by
  induction acts generalizing v with
  | nil => exact ⟨h, by simp [answers, noted]⟩
  | cons a rest ih =>
    obtain ⟨next, told⟩ := h.next a
    obtain ⟨ends, later⟩ := ih next
    refine ⟨ends, ?_⟩
    unfold answers noted
    intro answer there
    rcases List.mem_append.mp there with now | after
    · exact told answer (Option.mem_toList.mp now)
    · exact later answer after

theorem stopping_of_said {v : Waiter} {a : Act} {answer : Answer} (given : (v.act a).2 = some answer)
    (affirmed : answer.SaysStopped) : (v.next a).Stopping := by
  have step := act_step v a
  generalize v.next a = u, (v.act a).2 = told at step given ⊢
  cases step with
  | asked idle =>
    obtain rfl := Option.some.inj given
    exact ⟨by rw [isStopped_again]; exact affirmed, by simp⟩
  | stopped _ stopped => exact ⟨by rw [isStopped_again]; exact stopped, by simp⟩
  | believed _ _ means =>
    obtain rfl := Option.some.inj given
    exact absurd (affirmed ▸ means) (outcome?_ne_stopped _)
  | expired =>
    obtain rfl := Option.some.inj given
    cases affirmed
  | signal | tick | send | sever | begun | passed | selected | rests => cases given

theorem stopping_of_answers {v : Waiter} {acts : List Act} {answer : Answer}
    (given : answer ∈ v.answers acts) (affirmed : answer.SaysStopped) : (v.run acts).Stopping := by
  induction acts generalizing v with
  | nil => cases given
  | cons a rest ih =>
    unfold answers noted at given
    rcases List.mem_append.mp given with now | after
    · exact ((stopping_of_said (Option.mem_toList.mp now) affirmed).run rest).1
    · exact ih after

theorem look_of_stopped {v : Waiter} (stopped : v.waits.isStopped.1 = true) (call : Call)
    (report : Report) :
    v.look call report = (⟨v.waits.isStopped.2, v.now, .idle⟩, some (.ended .stopped)) := by
  simp [look, heed_eq, stopped]

/-! ## What is done with the signals later -/

/-- Wait sets that both were stopped, and are not told apart any more. -/
structure Alike (v w : Waiter) : Prop where
  stage : v.stage = w.stage
  now : v.now = w.now
  stopped : v.waits.isStopped.1 = true
  stopped_too : w.waits.isStopped.1 = true

theorem Alike.signal {v w : Waiter} (h : Alike v w) (d : Deed) : Alike (v.next (.signal d)) w :=
  ⟨h.stage, h.now, isStopped_apply h.stopped d, h.stopped_too⟩

theorem Alike.act {v w : Waiter} (h : Alike v w) (a : Act) :
    Alike (v.next a) (w.next a) ∧ (v.act a).2 = (w.act a).2 := by
  obtain ⟨waits, now, stage⟩ := v
  obtain ⟨waits', now', stage'⟩ := w
  obtain ⟨rfl, rfl, stopped, stopped_too⟩ := h
  have seen : waits.isStopped.2.isStopped.1 = true := by rw [isStopped_again, stopped]
  have seen_too : waits'.isStopped.2.isStopped.1 = true := by rw [isStopped_again, stopped_too]
  cases a with
  | signal d => exact ⟨⟨rfl, rfl, isStopped_apply stopped d, isStopped_apply stopped_too d⟩, rfl⟩
  | tick | send | sever => exact ⟨⟨rfl, rfl, stopped, stopped_too⟩, rfl⟩
  | ask =>
    cases stage with
    | idle =>
      refine ⟨⟨rfl, rfl, seen, seen_too⟩, ?_⟩
      change some (Answer.told waits.isStopped.1) = some (.told waits'.isStopped.1)
      rw [stopped, stopped_too]
    | selecting | looking => exact ⟨⟨rfl, rfl, stopped, stopped_too⟩, rfl⟩
  | look =>
    cases stage with
    | looking call report =>
      have looked := look_of_stopped (v := ⟨waits, now, .looking call report⟩) stopped call report
      have looked_too := look_of_stopped (v := ⟨waits', now, .looking call report⟩) stopped_too call report
      simp only [next, Waiter.act, looked, looked_too, and_true]
      exact ⟨rfl, rfl, seen, seen_too⟩
    | idle | selecting => exact ⟨⟨rfl, rfl, stopped, stopped_too⟩, rfl⟩
  | wait | select | expire => cases stage <;> exact ⟨⟨rfl, rfl, stopped, stopped_too⟩, rfl⟩

theorem Alike.answers {v w : Waiter} (h : Alike v w) (acts : List Act) :
    v.answers acts = w.answers (acts.filter fun a => a.deed?.isNone) := by
  induction acts generalizing v w with
  | nil => rfl
  | cons a rest ih =>
    cases deed : a.deed? with
    | some d =>
      obtain rfl : a = .signal d := by
        cases a <;> simp_all [Act.deed?]
      have told : v.answers (.signal d :: rest) = (v.next (.signal d)).answers rest := rfl
      rw [told, ih (h.signal d), List.filter_cons_of_neg (by simp [Act.deed?])]
    | none =>
      obtain ⟨alike, same⟩ := h.act a
      simp only [deed, List.filter_cons, Option.isNone_none, if_true]
      unfold Waiter.answers noted
      rw [same]
      exact congrArg _ (ih alike)

/-! ## Exactness -/

/-- What its owner is told of stop next. -/
structure Tells (v : Waiter) (stopped : Prop) : Prop where
  asked : v.stage = .idle → ∃ told, (v.act .ask).2 = some (.told told) ∧ (told = true ↔ stopped)
  looked : ∀ call report, v.stage = .looking call report →
    ((v.act .look).2 = some (.ended .stopped) ↔ stopped)

theorem tells (v : Waiter) : v.Tells (v.waits.isStopped.1 = true) := by
  refine ⟨fun idle => ⟨v.waits.isStopped.1, by simp only [act, idle], Iff.rfl⟩, ?_⟩
  intro call report looking
  have acted : v.act .look = v.look call report := by simp only [act, looking]
  rw [acted, look, heed_eq]
  cases v.waits.isStopped.1 with
  | true => simp
  | false => cases report <;> simp [Report.outcome?]

/-- **The stop signal is exact and sticky.** After any acts, the owner is told of stop, by asking or by
a wait, exactly if stop was sent or all signals were dropped by then. Once he was told so, all that he
is told later is that, and no wait asks the selector any more, though the message was taken. And once
stop was signalled, what is done with the signals makes no difference to what he is told. -/
theorem stop_exact (now : Moment) (acts : List Act) :
    ((start now).run acts).Tells (Signalled (deeds acts)) ∧
    ((∃ answer ∈ (start now).answers acts, answer.SaysStopped) → ∀ more,
      (∀ answer ∈ ((start now).run acts).answers more, answer.SaysStopped) ∧
      ((start now).run (acts ++ more)).Tells True ∧
      ∀ call, ((start now).run (acts ++ more)).stage ≠ .selecting call) ∧
    (Signalled (deeds acts) → ∀ more,
      ((start now).run acts).answers more =
        ((start now).run acts).answers (more.filter fun a => a.deed?.isNone)) := by
  refine ⟨?_, ?_, ?_⟩
  · rw [← isStopped_run_iff now]
    exact tells _
  · rintro ⟨answer, given, affirmed⟩ more
    have stopping := stopping_of_answers given affirmed
    obtain ⟨later, told⟩ := stopping.run more
    have whole : (start now).run (acts ++ more) = ((start now).run acts).run more := List.foldl_append
    rw [whole]
    have tells := tells (((start now).run acts).run more)
    rw [later.stopped, eq_self] at tells
    exact ⟨told, tells, later.first⟩
  · intro signalled more
    rw [← isStopped_run_iff now] at signalled
    exact (Alike.mk rfl rfl signalled signalled).answers more

/-- A stop is sent through a clone while a wait asks the selector, and both signals are dropped after
the wait has ended. -/
theorem stop_exact_raced :
    let h : Handle := (Handle.make ⟨[0x2F]⟩ 0 false).send (.error ⟨.tooManyWatches, []⟩)
    let acts : List Act := [.ask, .signal .clone, .wait [h] none, .look, .signal .stop, .select 1, .look]
    let more : List Act := [.signal .drop, .signal .drop, .ask, .wait [h] none, .look]
    (start .origin).answers acts = [.told false, .ended .stopped] ∧
    ((start .origin).run acts).waits = ⟨false, 2, true⟩ ∧
    ((start .origin).run acts).answers more = [.told true, .ended .stopped] ∧
    ((start .origin).run acts).answers [.ask, .wait [h] none, .look] = [.told true, .ended .stopped] ∧
    ((start .origin).run (acts ++ more)).Tells True := by
  intro h acts more
  obtain ⟨_, sticky, unchanged⟩ := stop_exact .origin acts
  have given : (start .origin).answers acts = [.told false, .ended .stopped] := by decide
  have answers : ((start .origin).run acts).answers more = [.told true, .ended .stopped] := by decide
  refine ⟨given, by decide, answers, ?_, ?_⟩
  · rw [← answers, unchanged (.inl (by decide)) more]
    rfl
  · exact (sticky ⟨.ended .stopped, by rw [given]; decide, rfl⟩ more).2.1

end Waiter

end DirectoryWatch.Native.WaitSet
