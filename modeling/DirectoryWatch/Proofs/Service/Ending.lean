import DirectoryWatch.Proofs.Service.Career

/-!
# The end of a service

The state of a service becomes final only when its worker has handed over everything and closed every
handle. Who sees a final state and then takes what waits in the queue has missed nothing, and a
service that failed has lost nothing of what its sessions had taken in.
-/

namespace DirectoryWatch

open Native (Backend Handle)

/-! ## A service at its end -/

namespace Service

theorem final_of_not_running {s : Service} (begun : s.state ≠ .idle) (halted : s.isRunning = false) :
    s.state.Final := by
  unfold isRunning at halted
  cases state : s.state with
  | idle => exact absurd state begun
  | running | stopRequested => simp [state] at halted
  | stopped | failed => trivial

theorem Sound.exited {status : Status} {v : Worker} (h : Sound status (some v))
    (final : status.state.Final) : v.phase = .exited := by
  cases h with
  | running | stopRequested => exact final.elim
  | stopped exited | failed exited => exact exited v rfl

end Service

namespace World

open Service (Sound)
open Worker (Settled Undoing Occurrence Outset)

variable {State : Type} {backend : Backend State} {w : World State}

theorem delivered_append (acts more : List (Act State)) :
    w.delivered backend (acts ++ more) =
      noted (next backend) (poppedOf backend) w acts ++ (w.run backend acts).delivered backend more := by
  rw [delivered, delivered, noted_append, ← run, run_append, List.append_assoc]

theorem final_append (sound : Sound w.service.status w.service.worker) {acts : List (Act State)}
    (final : (w.run backend acts).state.Final) (more : List (Act State)) :
    (w.run backend (acts ++ more)).state.Final := by
  rw [run_append]
  refine keeps_run (P := fun s => s.state.Final) ?_ (sound_run sound acts) final more
  intro s t advances final
  rw [advances.final final]
  exact final

theorem final_of_not_running (sound : Sound w.service.status w.service.worker)
    {acts more : List (Act State)} (running : (w.run backend acts).service.isRunning = true)
    (halted : (w.run backend (acts ++ more)).service.isRunning = false) :
    (w.run backend (acts ++ more)).state.Final := by
  have begun : (w.run backend acts).state ≠ .idle := by
    intro idle
    simp [Service.isRunning, show (w.run backend acts).service.state = .idle from idle] at running
  have going : (w.run backend (acts ++ more)).state ≠ .idle := by
    rw [run_append]
    exact keeps_run (P := fun s => s.state ≠ .idle) (fun _ _ => Status.Advances.ne_idle)
      (sound_run sound acts) begun more
  exact Service.final_of_not_running going halted

theorem Career.exited_of_final {acts : List (Act State)} {outset : Outset} {history : List Occurrence}
    (h : Career backend w acts outset history) (sound : Sound w.service.status w.service.worker)
    (final : (w.run backend acts).state.Final) : (outset.worker.run history).phase = .exited := by
  rcases h.worker with present | ⟨_, exited⟩
  · have sound : Sound (w.run backend acts).service.status (w.run backend acts).service.worker :=
      sound_run sound acts
    rw [present] at sound
    exact sound.exited final
  · exact exited

/-- What is visible of a service at its end, whatever acts led to it and whatever acts come later. -/
structure Settlement (backend : Backend State) (w : World State) : Prop where
  settled (acts : List (Act State)) : (w.run backend acts).state.Final →
    ∃ outset history, Career backend w acts outset history ∧ Settled outset history
  /-- While the worker is there, its sessions are those that have handed over everything. -/
  sessions (acts : List (Act State)) (v : Worker) : (w.run backend acts).state.Final →
    (w.run backend acts).service.worker = some v →
    v.phase = .exited ∧ ∀ s ∈ v.sessions, s.batch = .empty ∧ s.isClosed = true
  /-- Nothing is put into the queue any more. -/
  nothing (acts more : List (Act State)) : (w.run backend acts).state.Final →
    w.delivered backend (acts ++ more) = w.delivered backend acts
  /-- Who sees that the service runs no more and takes what waits in the queue has seen everything. -/
  last (acts more between later : List (Act State)) :
    (w.run backend acts).service.isRunning = true →
    (w.run backend (acts ++ more)).service.isRunning = false →
    (w.run backend (acts ++ more ++ between)).caller = .free →
    (w.run backend (acts ++ more ++ between ++ [.call .pop])).delivered backend later = []

/-- **Settlement.** However its worker ended, by a panic of whatever it calls too, and whoever looks
when. -/
theorem settlement (backend : Backend State) (paths : List Path) (config : Config) (state : State) :
    Settlement backend (.make paths config state) := by
  have start := sound_make paths config state
  have idle_or (acts : List (Act State)) := idle_or_career backend paths config state acts
  generalize make paths config state = w at start idle_or
  have settled (acts : List (Act State)) (final : (w.run backend acts).state.Final) :
      ∃ outset history, Career backend w acts outset history ∧ Settled outset history := by
    rcases idle_or acts with ⟨idle, _⟩ | ⟨outset, history, career⟩
    · rw [idle] at final
      exact final.elim
    · exact ⟨outset, history, career,
        Worker.settled_of_exited career.fresh (career.exited_of_final start final)⟩
  have nothing (acts more : List (Act State)) (final : (w.run backend acts).state.Final) :
      w.delivered backend (acts ++ more) = w.delivered backend acts := by
    obtain ⟨outset, history, career, settled⟩ := settled acts final
    have closing : (outset.worker.run history).phase.Closing := by
      rw [career.exited_of_final start final]
      trivial
    rw [(career.append start closing more).output, settled.nothing, career.output]
  constructor
  case settled => exact settled
  case sessions =>
    intro acts v final hv
    obtain ⟨outset, history, career, settled⟩ := settled acts final
    obtain rfl := career.worker_eq hv
    exact ⟨career.exited_of_final start final, settled.empty⟩
  case nothing => exact nothing
  case last =>
    intro acts more between later running halted free
    have final := final_append start (final_of_not_running start running halted) between
    generalize acts ++ more ++ between = before at final free ⊢
    -- What was delivered by the pop is all there will be, and nothing of it is left in the queue.
    have whole := nothing before ([.call .pop] ++ later) final
    have popped := nothing before [.call .pop] final
    have empty : (w.run backend (before ++ [.call .pop])).service.queue.buffered = [] := by
      rw [run_snoc, act, if_pos free]
      rfl
    rw [delivered, empty, List.append_nil] at popped
    rw [← List.append_assoc, delivered_append, popped] at whole
    exact List.append_right_eq_self.mp whole

/-! ## A service that failed -/

theorem work_of_step_mem {acts : List (Act State)} {around : Surroundings}
    (h : .step around ∈ w.history backend acts) : .work around ∈ acts := by
  induction acts using List.reverseRecOn with
  | nil => cases h
  | append_singleton acts a ih =>
    rw [history_snoc, List.mem_append] at h
    rcases h with before | now
    · exact List.mem_append_left _ (ih before)
    · rw [List.mem_append, List.mem_singleton]
      right
      unfold occurring at now
      cases hv : (w.run backend acts).service.worker with
      | none => simp [hv] at now
      | some v =>
        cases a with
        | join | send | panic => simp [hv] at now
        | call c => simp [hv] at now
        | change state =>
          simp only [hv] at now
          exact absurd rfl (Worker.outside_of_mem_lost now around)
        | work here =>
          simp only [hv, List.mem_cons] at now
          rcases now with same | released
          · cases same
            rfl
          · cases closed : (v.step here).2.closed with
            | none => simp [closed] at released
            | some handle =>
              simp only [closed, Option.elim] at released
              exact absurd rfl (Worker.outside_of_mem_lost released around)

theorem Career.heard {acts : List (Act State)} {outset : Outset} {history : List Occurrence}
    (h : Career backend w acts outset history)
    (heard : ∀ around, .work around ∈ acts → ∀ position, around.report = .handle position →
      position < w.service.paths.length) : Worker.Heard outset.sessions (outset.before ++ history) := by
  intro around mem position report
  rw [h.length]
  rw [← h.whole] at mem
  exact heard around (work_of_step_mem mem) position report

/-- **Failure.** A service that failed did so because of one read, and its failure is the fault of
that read, or because of a panic that its worker caught. By then the consumer was handed all that went
out before, and after it, session by session, the batch of what the session had taken in since it last
gave one up, the changes of the failing read among it, or what the panic left of it. -/
theorem failure_delivered (backend : Backend State) (paths : List Path) (config : Config) (state : State)
    (acts : List (Act State))
    (heard : ∀ around, .work around ∈ acts → ∀ position, around.report = .handle position →
      position < paths.length)
    (failed : ((make paths config state).run backend acts).state = .failed) :
    ∃ outset history failure,
      Career backend (make paths config state) acts outset history ∧
      Undoing outset history failure ((make paths config state).delivered backend acts) ∧
      ((make paths config state).run backend acts).service.status.failure = some failure := by
  rcases idle_or_career backend paths config state acts with ⟨idle, _⟩ | ⟨outset, history, career⟩
  · rw [idle] at failed
    cases failed
  · have sound : Sound ((make paths config state).run backend acts).service.status
        ((make paths config state).run backend acts).service.worker :=
      sound_run (sound_make paths config state) acts
    obtain ⟨e, stored⟩ := Option.isSome_iff_exists.mp (sound.failure.mpr failed)
    have endings := career.endings
    rw [Status.endings, show Status.state _ = .failed from failed, stored] at endings
    refine ⟨outset, history, e, career, ?_, stored⟩
    rw [career.output]
    exact Worker.undoing_of_ended career.fresh (career.heard heard) endings.symm

/-- A native error ends the watch of two roots with a change of each still in its batch: both changes
come out, that of the failing read first. -/
theorem failure_delivered_native :
    let backend : Backend Nat :=
      ⟨"plain", true, fun _ root _ n => (.ok (.make root n true), n + 1), fun _ n => n, fun _ _ => true⟩
    let disk : Disk := ⟨.ok, fun _ => true, fun _ => true, fun _ => .ok []⟩
    let a : Path := ⟨[0x2F, 0x61]⟩
    let b : Path := ⟨[0x2F, 0x62]⟩
    let created (path : Path) : Native.Message := .record ⟨.create, [path], false⟩
    let error : Native.Error := ⟨.tooManyWatches, []⟩
    let work (position : Nat) : Act Nat := .work ⟨disk, .origin, .origin, .handle position⟩
    let w : World Nat := make [a, b] ⟨.ofSeconds 1, true, []⟩ 0
    let acts : List (Act Nat) :=
      [.call (.start disk), .send 0 (created a), .send 1 (created b), .send 0 (.error error)] ++
        List.replicate 6 (work 1) ++ List.replicate 5 (work 0)
    (∀ around, .work around ∈ acts → ∀ position, around.report = .handle position → position < 2) ∧
    (w.run backend acts).state = .failed ∧
    w.delivered backend acts = [⟨a, .created, .origin⟩, ⟨b, .created, .origin⟩] ∧
    ∃ outset history failure,
      Career backend w acts outset history ∧
      Undoing outset history failure (w.delivered backend acts) ∧
      (w.run backend acts).service.status.failure = some failure := by
  intro backend disk a b created error work w acts
  have heard : ∀ around, .work around ∈ acts → ∀ position, around.report = .handle position →
      position < 2 := by
    intro around mem position report
    have told : around.report = .handle 1 ∨ around.report = .handle 0 := by
      simp [acts, work] at mem
      rcases mem with rfl | rfl
      · exact .inl rfl
      · exact .inr rfl
    rcases told with h | h <;> rw [h] at report <;> cases report <;> decide
  have failed : (w.run backend acts).state = .failed := by decide +kernel
  have all : w.delivered backend acts = [⟨a, .created, .origin⟩, ⟨b, .created, .origin⟩] := by
    decide +kernel
  have cause := failure_delivered backend [a, b] ⟨.ofSeconds 1, true, []⟩ 0 acts heard failed
  rw [show make [a, b] ⟨.ofSeconds 1, true, []⟩ 0 = w from rfl] at cause
  exact ⟨heard, failed, all, cause⟩

end World

end DirectoryWatch
