import DirectoryWatch.Proofs.Native.StopSignal
import DirectoryWatch.Proofs.Worker.Failure

/-!
# Outcomes of waits

While a wait is under way messages are sent to its handles and nobody reads them, so a handle that was
ready stays so. Stop wins over a ready handle, and a ready handle over the deadline. A position that a
wait answers is that of a handle it was given, and a worker gave it the handles of its sessions.
-/

namespace DirectoryWatch.Native

namespace Handle

/-- A handle some time later, when nobody has read it. -/
structure Later (h k : Handle) : Prop where
  root : k.root = h.root
  ticket : k.ticket = h.ticket
  sent : h.pending <+: k.pending
  severed : h.connected = false → k.connected = false

theorem later_refl (h : Handle) : h.Later h := ⟨rfl, rfl, List.prefix_refl _, id⟩

theorem Later.send {h k : Handle} (l : h.Later k) (m : Message) : h.Later (k.send m) := by
  unfold Handle.send
  split
  · exact ⟨l.root, l.ticket, l.sent.trans (List.prefix_append _ _), l.severed⟩
  · exact l

theorem Later.disconnect {h k : Handle} (l : h.Later k) : h.Later k.disconnect :=
  ⟨l.root, l.ticket, l.sent, fun _ => rfl⟩

theorem Later.ready {h k : Handle} (l : h.Later k) (ready : h.isReady = true) : k.isReady = true := by
  by_contra quiet
  rw [Bool.not_eq_true, isReady_eq_false_iff] at quiet
  obtain ⟨nothing, connected⟩ := quiet
  have sent := l.sent
  rw [nothing, List.prefix_nil] at sent
  have severed := mt l.severed (by simp [connected])
  have still : h.isReady = false := (isReady_eq_false_iff h).mpr ⟨sent, by simpa using severed⟩
  rw [ready] at still
  cases still

end Handle

namespace WaitSet

/-- What a wait was asked for, some time later. -/
structure Call.Later (c d : Call) : Prop where
  deadline : d.deadline = c.deadline
  length : d.handles.length = c.handles.length
  handles : ∀ {i : Nat} {h : Handle}, c.handles[i]? = some h → ∃ k, d.handles[i]? = some k ∧ h.Later k

theorem Call.later_refl (c : Call) : c.Later c :=
  ⟨rfl, rfl, fun there => ⟨_, there, Handle.later_refl _⟩⟩

theorem Call.Later.onHandle {c d : Call} (l : c.Later d) (position : Nat) {f : Handle → Handle}
    (keeps : ∀ {h k : Handle}, h.Later k → h.Later (f k)) : c.Later (d.onHandle position f) := by
  refine ⟨l.deadline, by rw [Call.onHandle, List.length_modify, l.length], ?_⟩
  intro i h there
  obtain ⟨k, found, later⟩ := l.handles there
  rw [Call.onHandle, List.getElem?_modify, found]
  by_cases here : position = i
  · exact ⟨f k, by simp [here], keeps later⟩
  · exact ⟨k, by simp [here], later⟩

theorem Call.Later.ready {c d : Call} (l : c.Later d) {h : Handle} (given : h ∈ c.handles)
    (ready : h.isReady = true) : ∃ k ∈ d.handles, k.isReady = true := by
  obtain ⟨i, there⟩ := List.mem_iff_getElem?.mp given
  obtain ⟨k, found, later⟩ := l.handles there
  exact ⟨k, List.mem_of_getElem? found, later.ready ready⟩

theorem Call.Later.given {c d : Call} (l : c.Later d) {i : Nat} {k : Handle}
    (found : d.handles[i]? = some k) : ∃ h, c.handles[i]? = some h ∧ h.Later k := by
  have inside : i < c.handles.length := l.length ▸ (List.getElem?_eq_some_iff.mp found).1
  obtain ⟨k', found', later⟩ := l.handles (List.getElem?_eq_getElem inside)
  rw [found] at found'
  obtain rfl := Option.some.inj found'
  exact ⟨_, List.getElem?_eq_getElem inside, later⟩

/-- The call to which a wait under way has come. -/
def Stage.call? : Stage → Option Call
  | .idle => none
  | .selecting call | .looking call _ => some call

namespace Waiter

/-! ## A wait under way -/

/-- What a wait may look at the stop signal for: nothing has come up yet, or a handle is ready. -/
def Justified (call : Call) : Report → Prop
  | .stop => True
  | .handle position => ∃ k, call.handles[position]? = some k ∧ k.isReady = true
  | .timeout => False

/-- A wait for a call is under way, and the call is by now as a later one. While the wait asks the
selector its owner has seen no stop, so a time-out tells that there was none. -/
structure Under (c call : Call) (v : Waiter) : Prop where
  later : c.Later call
  stage : (v.stage = .selecting call ∧ v.waits.seen = false) ∨
    ∃ report, v.stage = .looking call report ∧ Justified call report

variable {v : Waiter} {c call : Call} {a : Act}

theorem justified_of_truthful {now : Moment} {waits : WaitSet} {report : Report}
    (truthful : waits.Truthful call.handles call.deadline now report) (up : report ≠ .timeout) :
    Justified call report := by
  cases report with
  | stop => trivial
  | handle position => exact truthful
  | timeout => exact absurd rfl up

theorem Under.of_selecting (h : Under c call v) {other : Call} (selecting : v.stage = .selecting other) :
    other = call ∧ v.waits.seen = false := by
  rcases h.stage with ⟨stage, unseen⟩ | ⟨report, stage, _⟩
  · rw [selecting, Stage.selecting.injEq] at stage
    exact ⟨stage, unseen⟩
  · rw [selecting] at stage
    cases stage

theorem Under.of_looking (h : Under c call v) {other : Call} {report : Report}
    (looking : v.stage = .looking other report) : other = call ∧ Justified call report := by
  rcases h.stage with ⟨stage, _⟩ | ⟨report', stage, justified⟩
  · rw [looking] at stage
    cases stage
  · rw [looking, Stage.looking.injEq] at stage
    obtain ⟨rfl, rfl⟩ := stage
    exact ⟨rfl, justified⟩

theorem seen_apply (w : WaitSet) (d : Deed) : (d.apply w).seen = w.seen := by
  cases d with
  | drop => rfl
  | stop | clone =>
    by_cases none : w.signals = 0 <;> simp [Deed.apply, WaitSet.stop, cloneSignal, none]

theorem Under.onHandle (h : Under c call v) (position : Nat) {f : Handle → Handle}
    (keeps : ∀ {h k : Handle}, h.Later k → h.Later (f k)) :
    Under c (call.onHandle position f) { v with stage := v.stage.onHandle position f } := by
  refine ⟨h.later.onHandle position keeps, ?_⟩
  rcases h.stage with ⟨selecting, unseen⟩ | ⟨report, looking, justified⟩
  · exact .inl ⟨by rw [selecting]; rfl, unseen⟩
  · refine .inr ⟨report, by rw [looking]; rfl, ?_⟩
    cases report with
    | stop => trivial
    | timeout => exact justified
    | handle i =>
      obtain ⟨k, found, ready⟩ := justified
      obtain ⟨k', found', later⟩ := (call.later_refl.onHandle position keeps).handles found
      exact ⟨k', found', later.ready ready⟩

theorem ofNumber_ne_timeout (handles : List Handle) (number : Nat) :
    Report.ofNumber handles number ≠ .timeout := by
  unfold Report.ofNumber
  split
  · simp
  · split <;> simp

theorem Under.next (h : Under c call v) (reliable : Reliable v a) (silent : (v.act a).2 = none) :
    ∃ call', Under c call' (v.next a) := by
  have step := act_step v a
  generalize v.next a = u, (v.act a).2 = told at step silent ⊢
  cases step with
  | signal d => exact ⟨call, h.later, by simpa [seen_apply] using h.stage⟩
  | tick | rests => exact ⟨call, h.later, h.stage⟩
  | send position m => exact ⟨_, h.onHandle position fun l => l.send m⟩
  | sever position => exact ⟨_, h.onHandle position fun l => l.disconnect⟩
  | asked | stopped | believed | expired => cases silent
  | begun idle =>
    have stage := h.stage
    simp [idle] at stage
  | passed looking quiet =>
    obtain ⟨rfl, _⟩ := h.of_looking looking
    rw [isStopped_fst, Bool.or_eq_false_iff] at quiet
    exact ⟨_, h.later, .inl ⟨rfl, quiet.1⟩⟩
  | selected selecting =>
    obtain ⟨rfl, _⟩ := h.of_selecting selecting
    have justified := justified_of_truthful (reliable _ selecting) (ofNumber_ne_timeout _ _)
    exact ⟨_, h.later, .inr ⟨_, rfl, justified⟩⟩

theorem Under.run (h : Under c call v) {acts : List Act}
    (reliable : Throughout Waiter.next Reliable v acts) (silent : v.answers acts = []) :
    ∃ call', Under c call' (v.run acts) := by
  induction acts generalizing v call with
  | nil => exact ⟨call, h⟩
  | cons a rest ih =>
    unfold answers noted at silent
    obtain ⟨now, after⟩ := List.append_eq_nil_iff.mp silent
    obtain ⟨call', under⟩ := h.next reliable.1 (Option.toList_eq_nil_iff.mp now)
    exact ih under reliable.2 after

theorem under_begun (idle : v.stage = .idle) (c : Call) :
    Under c c (v.next (.wait c.handles c.deadline)) := by
  have begun : v.next (.wait c.handles c.deadline) = { v with stage := .looking c .stop } := by
    simp only [Waiter.next, act, idle]
  rw [begun]
  exact ⟨c.later_refl, .inr ⟨.stop, rfl, trivial⟩⟩

/-- What the outcome of a wait says about how things stand. -/
structure Right (call : Call) (v : Waiter) (outcome : Outcome) : Prop where
  stopped : outcome = .stopped ↔ v.waits.isStopped.1 = true
  ready : ∀ i, outcome = .ready i → ∃ k, call.handles[i]? = some k ∧ k.isReady = true
  timedOut : outcome = .timedOut →
    (∀ k ∈ call.handles, k.isReady = false) ∧ ∃ d, call.deadline = some d ∧ d ≤ v.now

theorem Under.ended (h : Under c call v) (reliable : Reliable v a) {outcome : Outcome}
    (ended : (v.act a).2 = some (.ended outcome)) : Right call v outcome := by
  have step := act_step v a
  generalize v.next a = u, (v.act a).2 = told at step ended
  cases step with
  | stopped looking stopped =>
    cases ended
    exact ⟨by simp [stopped], by simp, by simp⟩
  | @believed _ report _ looking quiet means =>
    cases ended
    obtain ⟨rfl, justified⟩ := h.of_looking looking
    cases report with
    | stop => cases means
    | timeout => exact justified.elim
    | handle position =>
      cases means
      refine ⟨by simp [quiet], ?_, by simp⟩
      rintro _ ⟨⟩
      exact justified
  | expired selecting =>
    cases ended
    obtain ⟨rfl, unseen⟩ := h.of_selecting selecting
    obtain ⟨calm, nothing, due⟩ := reliable _ selecting
    exact ⟨by simp [isStopped_fst, unseen, calm], by simp, fun _ => ⟨nothing, due⟩⟩
  | signal | tick | send | sever | asked | begun | passed | selected | rests => cases ended

/-! ## From the call to the outcome -/

/-- A wait from its call to its outcome, with a selector to rely on. The last act is the one that
ends it. -/
structure Wait (v : Waiter) (c : Call) (during : List Act) (a : Act) (outcome : Outcome) : Prop where
  idle : v.stage = .idle
  reliable : Throughout next Reliable v (.wait c.handles c.deadline :: during ++ [a])
  silent : v.answers (.wait c.handles c.deadline :: during) = []
  ended : ((v.run (.wait c.handles c.deadline :: during)).act a).2 = some (.ended outcome)

theorem Under.call? (h : Under c call v) : v.stage.call? = some call := by
  rcases h.stage with ⟨selecting, _⟩ | ⟨report, looking, _⟩
  · rw [selecting]
    rfl
  · rw [looking]
    rfl

theorem Wait.right {during : List Act} {outcome : Outcome} (h : Wait v c during a outcome) :
    ∃ call, (v.run (.wait c.handles c.deadline :: during)).stage.call? = some call ∧ c.Later call ∧
      Right call (v.run (.wait c.handles c.deadline :: during)) outcome := by
  obtain ⟨⟨_, reliable⟩, last⟩ := (throughout_append _ [a]).mp h.reliable
  have begun : (v.act (.wait c.handles c.deadline)).2 = none := by simp only [act, h.idle]
  have silent : (v.next (.wait c.handles c.deadline)).answers during = [] := by
    have whole := h.silent
    unfold Waiter.answers noted at whole
    exact (List.append_eq_nil_iff.mp whole).2
  obtain ⟨call, under⟩ := (under_begun h.idle c).run reliable silent
  exact ⟨call, under.call?, under.later, under.ended last.1 h.ended⟩

theorem answers_select {i : Nat} (selecting : v.stage = .selecting call)
    (inside : i < call.handles.length) :
    v.answers [.select (i + 1), .look] =
      [.ended (if v.waits.isStopped.1 = true then .stopped else .ready i)] := by
  have reported : Report.ofNumber call.handles (i + 1) = .handle i :=
    ofNumber_eq_handle_iff.mpr ⟨rfl, inside⟩
  rw [(select_look selecting (i + 1)).1, reported, heed_eq, Report.outcome?]
  split <;> rfl

theorem exists_first_answer {acts : List Act} {answer : Answer} (given : v.answers acts = [answer]) :
    ∃ before a after, acts = before ++ a :: after ∧ v.answers before = [] ∧
      ((v.run before).act a).2 = some answer := by
  induction acts generalizing v with
  | nil => cases given
  | cons a rest ih =>
    unfold answers noted at given
    cases told : (v.act a).2 with
    | some first =>
      simp only [told, Option.toList_some, List.cons_append, List.nil_append, List.cons.injEq] at given
      obtain ⟨rfl, _⟩ := given
      exact ⟨[], a, rest, rfl, rfl, told⟩
    | none =>
      rw [told] at given
      obtain ⟨before, b, after, rfl, silent, given⟩ := ih given
      refine ⟨a :: before, b, after, rfl, ?_, given⟩
      unfold answers noted
      rw [told]
      exact silent

/-- A wait on a timeline is one of these waits. -/
theorem wait_of_timeline {t after : Timeline} {outcome : Outcome}
    (waited : t.wait c.handles c.deadline = (some outcome, after)) :
    ∃ during a, Wait ⟨t.waits, t.now, .idle⟩ c during a outcome := by
  obtain ⟨acts, reliable, answers, _⟩ := wait_course c waited
  obtain ⟨before, a, rest, cut, silent, given⟩ := exists_first_answer answers
  cases before with
  | nil =>
    obtain ⟨rfl, rfl⟩ := List.cons.inj cut
    cases given
  | cons first during =>
    obtain ⟨rfl, rfl⟩ := List.cons.inj cut
    rw [cut, List.append_cons, throughout_append] at reliable
    exact ⟨during, a, rfl, reliable.1, silent, given⟩

end Waiter

end WaitSet

end DirectoryWatch.Native

namespace DirectoryWatch

/-! ## Waits of a worker -/

namespace Worker

/-- While the worker waits, the selector is right about what it reports. -/
def Attested (w : Worker) : Occurrence → Prop
  | .step around =>
    w.phase = .waiting → w.waits.Truthful w.handles w.deadline around.now around.report
  | .sent _ _ | .severed _ | .stop | .signalLost => True

theorem attested_of_report? {w : Worker} {around : Surroundings}
    (reported : w.report? around.now = some around.report) : w.Attested (.step around) := by
  intro waiting
  rw [Worker.report?, waiting] at reported
  exact Native.WaitSet.report?_truthful reported

theorem reading_there {sessions : List Session} {history : List Occurrence}
    (attested : Throughout Worker.next Attested (start sessions) history) {i : Nat}
    (reading : ((start sessions).run history).phase = .reading i) : i < sessions.length := by
  induction history using List.reverseRecOn with
  | nil => cases reading
  | append_singleton history o ih =>
    obtain ⟨earlier, last, _⟩ := (throughout_append history [o]).mp attested
    rw [run_snoc] at reading
    cases o with
    | sent | severed | stop | signalLost => exact ih earlier reading
    | step around =>
      obtain ⟨waiting, reported⟩ := reported_of_reading reading
      have truthful := last waiting
      rw [reported] at truthful
      obtain ⟨h, there, _⟩ := truthful
      have inside := (List.getElem?_eq_some_iff.mp there).1
      rwa [handles, List.length_map, ← run, length_run] at inside

end Worker

/-! ## Truthfulness -/

namespace Native.WaitSet.Waiter

/-- **A wait answers truthfully.** Let a wait come to an outcome, with any acts of others between any
two of its steps. It is stopped exactly if stop was signalled by then, before or after the call. It is
a position only if the handle at that position of the call has messages or lost its sending side, and a
time-out only if a deadline was given and has passed; and it is no time-out if a handle was ready at the
call. A wait whose stop was signalled ends at its next look, and so does a wait for a handle that was
reported. A worker reads no session that is not there. -/
theorem wait_truthful (now : Moment) (past : List Act) :
    let v := (start now).run past
    (∀ (c : Call) (during : List Act) (a : Act) (outcome : Outcome), Wait v c during a outcome →
      let w := v.run (.wait c.handles c.deadline :: during)
      (outcome = .stopped ↔ Signalled (deeds past ++ deeds during)) ∧
      (Signalled (deeds past) → outcome = .stopped) ∧
      (∀ i, outcome = .ready i → ∃ h k call, c.handles[i]? = some h ∧ w.stage.call? = some call ∧
        call.handles[i]? = some k ∧ h.Later k ∧ k.isReady = true) ∧
      (outcome = .timedOut → ∃ d, c.deadline = some d ∧ d ≤ w.now) ∧
      (¬ Signalled (deeds past ++ deeds during) → (∃ h ∈ c.handles, h.isReady = true) →
        ∃ i, outcome = .ready i)) ∧
    (∀ call report, v.stage = .looking call report → Signalled (deeds past) →
      (v.act .look).2 = some (.ended .stopped)) ∧
    (∀ call i, v.stage = .selecting call → i < call.handles.length → ¬ Signalled (deeds past) →
      v.answers [.select (i + 1), .look] = [.ended (.ready i)]) ∧
    ∀ (sessions : List Session) (history : List Worker.Occurrence),
      Throughout Worker.next Worker.Attested (.start sessions) history →
      ∀ i, ((Worker.start sessions).run history).phase = .reading i →
        ∃ s, ((Worker.start sessions).run history).sessions[i]? = some s := by
  intro v
  refine ⟨?_, ?_, ?_, ?_⟩
  · intro c during a outcome h w
    obtain ⟨call, under, later, right⟩ := h.right
    have whole : w = (start now).run (past ++ .wait c.handles c.deadline :: during) := by
      simp only [w, v, run, List.foldl_append]
    have stopped : outcome = .stopped ↔ Signalled (deeds past ++ deeds during) := by
      rw [right.stopped]
      change w.waits.isStopped.1 = true ↔ _
      rw [whole, isStopped_run_iff]
      have cut : deeds (past ++ .wait c.handles c.deadline :: during) = deeds past ++ deeds during := by
        have silent : (Act.wait c.handles c.deadline).deed? = none := rfl
        rw [deeds, List.filterMap_append, ← deeds, ← deeds, deeds_cons, silent]
        rfl
      rw [cut]
    refine ⟨stopped, fun before => stopped.mpr (Signalled.append before _), ?_, ?_, ?_⟩
    · intro i ready
      obtain ⟨k, there, up⟩ := right.ready i ready
      obtain ⟨h, given, grown⟩ := later.given there
      exact ⟨h, k, call, given, under, there, grown, up⟩
    · intro timedOut
      obtain ⟨_, d, given, due⟩ := right.timedOut timedOut
      exact ⟨d, by rw [← later.deadline, given], due⟩
    · rintro quiet ⟨h, given, ready⟩
      cases outcome with
      | stopped => exact absurd (stopped.mp rfl) quiet
      | ready i => exact ⟨i, rfl⟩
      | timedOut =>
        obtain ⟨k, there, up⟩ := later.ready given ready
        have nothing := (right.timedOut rfl).1 k there
        rw [up] at nothing
        cases nothing
  · intro call report looking signalled
    exact ((tells v).looked call report looking).mpr ((isStopped_run_iff now past).mpr signalled)
  · intro call i selecting inside quiet
    rw [answers_select selecting inside, if_neg ((isStopped_run_iff now past).not.mpr quiet)]
  · intro sessions history attested i reading
    have inside := Worker.reading_there attested reading
    have there : i < ((Worker.start sessions).run history).sessions.length := by
      rw [Worker.length_run]
      exact inside
    exact ⟨_, List.getElem?_eq_getElem there⟩

/-- The deadline of a wait has passed when it begins, its second handle is ready, and a message comes to
its first one before the selector reports the second. -/
theorem wait_truthful_raced :
    let m : Message := .error ⟨.tooManyWatches, []⟩
    let quiet : Handle := .make ⟨[0x2F]⟩ 0 false
    let c : Call := ⟨[quiet, quiet.send m], some .origin⟩
    let past : List Act := [.signal .clone, .ask, .signal .drop]
    let during : List Act := [.look, .send 0 m, .select 2]
    Wait ((start .origin).run past) c during .look (.ready 1) ∧
    ¬ Signalled (deeds past ++ deeds during) ∧
    ∃ h k, c.handles[1]? = some h ∧ h.Later k ∧ k.isReady = true := by
  intro m quiet c past during
  obtain ⟨outcomes, _⟩ := wait_truthful .origin past
  have wait : Wait ((start .origin).run past) c during .look (.ready 1) := by
    refine ⟨rfl, ⟨trivial, trivial, trivial, ?_, trivial, trivial⟩, rfl, rfl⟩
    rintro call ⟨⟩
    exact ⟨quiet.send m, rfl, rfl⟩
  obtain ⟨stopped, _, ready, _⟩ := outcomes c during .look (.ready 1) wait
  refine ⟨wait, ?_, ?_⟩
  · rw [← stopped]
    simp
  · obtain ⟨h, k, _, given, _, _, later, up⟩ := ready 1 rfl
    exact ⟨h, k, given, later, up⟩

end Native.WaitSet.Waiter

end DirectoryWatch
