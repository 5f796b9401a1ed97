import DirectoryWatch.Proofs.Worker.Windows

/-!
# Delivery

However a worker ends, well or ill, it goes through its sessions once more and in order: each gives
up its batch and is closed, and after the last of them the worker says how it ended. Messages and
stops that come in between change nothing about that.
-/

namespace DirectoryWatch

open Native (Handle)

/-- What only the worker changes in a session. -/
def Session.held (s : Session) : Coalescer × Bool × Nat := (s.batch, s.isClosed, s.handle.ticket)

namespace Worker

variable {w : Worker} {ending : Ending} {after : List Occurrence} {k : Nat}

/-! ## What goes out -/

def outputOf (w : Worker) (o : Occurrence) : List Event := (w.undergo o).2.pushed

def closedOf (w : Worker) (o : Occurrence) : List Handle := (w.undergo o).2.closed.toList

/-- Nothing goes out, and every session holds what it held. -/
structure Idle (w : Worker) (o : Occurrence) : Prop where
  output : outputOf w o = []
  closed : closedOf w o = []
  deeds : ∀ i, deedsOf i w o = []
  sessions : ∀ (i : Nat) (s : Session), w.sessions[i]? = some s →
    ∃ t : Session, (w.undergo o).1.sessions[i]? = some t ∧ t.held = s.held

theorem onHandle_held (w : Worker) (ticket : Nat) {f : Handle → Handle}
    (keeps : ∀ h, (f h).closed = h.closed ∧ (f h).ticket = h.ticket) {i : Nat} {s : Session}
    (hs : w.sessions[i]? = some s) :
    ∃ t, (w.onHandle ticket f).sessions[i]? = some t ∧ t.held = s.held := by
  rw [onHandle_session, hs]
  refine ⟨_, rfl, ?_⟩
  by_cases mine : s.handle.ticket = ticket <;>
    simp [Session.held, Session.isClosed, mine, keeps]

theorem idle_outside (w : Worker) {o : Occurrence} (outside : ∀ around, o ≠ .step around) :
    Idle w o := by
  cases o with
  | step around => exact absurd rfl (outside around)
  | sent ticket m =>
    refine ⟨rfl, rfl, fun _ => rfl, fun i s hs => onHandle_held w ticket ?_ hs⟩
    intro h
    unfold Handle.send
    split <;> exact ⟨rfl, rfl⟩
  | severed ticket =>
    refine ⟨rfl, rfl, fun _ => rfl, fun i s hs => ?_⟩
    exact onHandle_held (f := Handle.disconnect) w ticket (fun _ => ⟨rfl, rfl⟩) hs
  | stop | signalLost => exact ⟨rfl, rfl, fun _ => rfl, fun i s hs => ⟨s, hs, rfl⟩⟩

theorem idle_exited (h : w.phase = .exited) (around : Surroundings) : Idle w (.step around) := by
  have step := step_exited h around
  refine ⟨?_, ?_, fun i => deedsOf_of_other (by simp [h, Phase.subject?]), fun i s hs => ⟨s, ?_, rfl⟩⟩
  · rw [outputOf, undergo, step, noEffect]
  · rw [closedOf, undergo, step, noEffect, Option.toList_none]
  · rw [undergo, step, hs]

/-! ## The steps of a delivery -/

theorem step_gives {t : Session} (hp : w.phase = .delivering ending k)
    (ht : w.sessions[k]? = some t) (around : Surroundings) :
    w.step around =
      ({ w.replace k t.takeBatch.2.close with phase := .delivering ending (k + 1) },
        closes t.batch.events t.handle) := by
  simp only [step, hp, ht]
  rfl

theorem step_given (hp : w.phase = .delivering ending k) (absent : w.sessions[k]? = none)
    (around : Surroundings) : w.step around = ({ w with phase := .exited }, ends ending) := by
  simp only [step, hp, absent]

theorem idle_given (hp : w.phase = .delivering ending k) (absent : w.sessions[k]? = none)
    (around : Surroundings) : Idle w (.step around) := by
  have step := step_given hp absent around
  refine ⟨?_, ?_, fun i => ?_, fun i s hs => ⟨s, ?_, rfl⟩⟩
  · rw [outputOf, undergo, step, ends]
  · rw [closedOf, undergo, step, ends, Option.toList_none]
  · exact deedsOf_of_absent (by rw [hp]; rfl) absent i around
  · rw [undergo, step, hs]

/-- The first `k` sessions of a worker have given up what they had, and no other has done anything. -/
structure Given (w : Worker) (after : List Occurrence) (k : Nat) : Prop where
  output : noted next outputOf w after = (w.sessions.take k).flatMap fun s => s.batch.events
  closed : (noted next closedOf w after).map Handle.ticket =
    (w.sessions.take k).map fun s => s.handle.ticket
  deeds : ∀ i s, w.sessions[i]? = some s →
    noted next (deedsOf i) w after = if i < k then [.taken s.batch.events] else []
  sessions : ∀ (i : Nat) (s : Session), w.sessions[i]? = some s →
    ∃ t : Session, (w.run after).sessions[i]? = some t ∧
      t.held = if i < k then (.empty, true, s.handle.ticket) else s.held

theorem given_nil (w : Worker) : Given w [] 0 :=
  ⟨rfl, rfl, fun _ _ _ => rfl, fun _ s hs => ⟨s, hs, rfl⟩⟩

theorem Given.idle (h : Given w after k) {o : Occurrence} (idle : Idle (w.run after) o) :
    Given w (after ++ [o]) k := by
  constructor
  case output => rw [noted_snoc, ← run, idle.output, List.append_nil, h.output]
  case closed => rw [noted_snoc, ← run, idle.closed, List.append_nil, h.closed]
  case deeds =>
    intro i s hs
    rw [noted_snoc, ← run, idle.deeds, List.append_nil, h.deeds i s hs]
  case sessions =>
    intro i s hs
    obtain ⟨t, ht, same⟩ := h.sessions i s hs
    obtain ⟨u, hu, kept⟩ := idle.sessions i t ht
    exact ⟨u, by rw [run_snoc, hu], by rw [kept, same]⟩

theorem Given.give (h : Given w after k) (hp : (w.run after).phase = .delivering ending k)
    {t : Session} (ht : (w.run after).sessions[k]? = some t) (around : Surroundings) :
    k < w.sessions.length ∧ Given w (after ++ [.step around]) (k + 1) := by
  have within := within_of_run ht
  have hs : w.sessions[k]? = some w.sessions[k] := List.getElem?_eq_getElem within
  obtain ⟨batch, ticket⟩ : t.batch = w.sessions[k].batch ∧
      t.handle.ticket = w.sessions[k].handle.ticket := by
    obtain ⟨u, hu, same⟩ := h.sessions k _ hs
    obtain rfl : t = u := Option.some.inj (ht.symm.trans hu)
    simp only [Nat.lt_irrefl, if_false, Session.held, Prod.mk.injEq] at same
    exact ⟨same.1, same.2.2⟩
  have step := step_gives hp ht around
  have subject : (w.run after).phase.subject? = some k := by rw [hp]; rfl
  have take : w.sessions.take (k + 1) = w.sessions.take k ++ [w.sessions[k]] := by
    rw [List.take_add_one, hs, Option.toList_some]
  have later {i : Nat} (other : i ≠ k) : i < k + 1 ↔ i < k := by omega
  refine ⟨within, ?_⟩
  constructor
  case output =>
    rw [noted_snoc, ← run, h.output, outputOf, undergo, step, take, List.flatMap_append]
    simp [closes, batch]
  case closed =>
    rw [noted_snoc, ← run, List.map_append, h.closed, closedOf, undergo, step, take, List.map_append]
    simp [closes, ticket]
  case deeds =>
    intro i s hi
    rw [noted_snoc, ← run, h.deeds i s hi]
    by_cases mine : i = k
    · subst mine
      obtain rfl : w.sessions[i] = s := Option.some.inj (hs.symm.trans hi)
      rw [deedsOf_of_subject subject ht, hp]
      simp [Worker.deeds, Session.takeBatch_fst, batch]
    · have other : (w.run after).phase.subject? ≠ some i := by
        rw [subject]
        simpa using Ne.symm mine
      rw [deedsOf_of_other other, List.append_nil]
      simp only [later mine]
  case sessions =>
    intro i s hi
    obtain ⟨u, hu, same⟩ := h.sessions i s hi
    rw [run_snoc, undergo, step_session, subject, hp]
    by_cases mine : i = k
    · subst mine
      obtain rfl : w.sessions[i] = s := Option.some.inj (hs.symm.trans hi)
      refine ⟨t.takeBatch.2.close, by simp [ht, worked], ?_⟩
      rw [if_pos (Nat.lt_succ_self i), ← ticket]
      rfl
    · refine ⟨u, by simp [Ne.symm mine, hu], ?_⟩
      simpa only [later mine] using same

/-! ## A whole delivery -/

/-- How far a worker is that set about its delivery: at the turn of session `k`, or at its end. -/
def Delivering (w : Worker) (ending : Ending) (after : List Occurrence) (k : Nat) : Prop :=
  (w.run after).phase = .delivering ending k ∧ noted next endingOf w after = [] ∨
    (w.run after).phase = .exited ∧ k = w.sessions.length ∧ noted next endingOf w after = [ending]

theorem Delivering.idle (h : Delivering w ending after k) {o : Occurrence}
    (still : ((w.run after).undergo o).1.phase = (w.run after).phase)
    (going : endingOf (w.run after) o = []) : Delivering w ending (after ++ [o]) k := by
  unfold Delivering
  rw [run_snoc, still, noted_snoc, ← run, going, List.append_nil]
  exact h

/-- **Delivery.** From the moment at which it sets about it, whatever comes in between. -/
theorem delivery (start : w.phase = .delivering ending 0) (after : List Occurrence) :
    ∃ k ≤ w.sessions.length, Given w after k ∧ Delivering w ending after k := by
  induction after using List.reverseRecOn with
  | nil => exact ⟨0, Nat.zero_le _, given_nil w, .inl ⟨start, rfl⟩⟩
  | append_singleton after o ih =>
    obtain ⟨k, le, given, delivering⟩ := ih
    -- Only a step moves the turn on, and only until every session has had it.
    cases o with
    | sent | severed | stop | signalLost =>
      exact ⟨k, le, given.idle (idle_outside _ (by simp)), delivering.idle rfl rfl⟩
    | step around =>
      obtain ⟨phase, none⟩ | ⟨phase, rfl, ended⟩ := delivering
      · cases ht : (w.run after).sessions[k]? with
        | some t =>
          obtain ⟨within, given⟩ := given.give phase ht around
          refine ⟨k + 1, within, given, .inl ?_⟩
          rw [run_snoc, noted_snoc, ← run, none, endingOf, undergo, step_gives phase ht]
          exact ⟨rfl, rfl⟩
        | none =>
          have all : k = w.sessions.length := Nat.le_antisymm le ((absent_run_iff w after k).mp ht)
          refine ⟨k, le, given.idle (idle_given phase ht around), .inr ?_⟩
          rw [run_snoc, noted_snoc, ← run, none, endingOf, undergo, step_given phase ht]
          exact ⟨rfl, all, rfl⟩
      · have exited : Delivering w ending after w.sessions.length := .inr ⟨phase, rfl, ended⟩
        refine ⟨_, le, given.idle (idle_exited phase around), exited.idle ?_ ?_⟩
        · rw [undergo, step_exited phase]
        · rw [endingOf, undergo, step_exited phase]
          rfl

theorem delivered (start : w.phase = .delivering ending 0) (exited : (w.run after).phase = .exited) :
    Given w after w.sessions.length ∧ noted next endingOf w after = [ending] := by
  obtain ⟨k, _, given, ⟨phase, _⟩ | ⟨_, rfl, ended⟩⟩ := delivery start after
  · rw [exited] at phase
    cases phase
  · exact ⟨given, ended⟩

end Worker

end DirectoryWatch
