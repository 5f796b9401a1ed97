import DirectoryWatch.Proofs.Worker.Windows

/-!
# Conservation

A worker that ends well has lost nothing: what it pushed for a session are the batches of
consecutive windows of readings, and these readings hold every message that had come when the
session was drained.
-/

namespace DirectoryWatch.Worker

open Native (Handle Message)

variable {w₀ : Worker} {i : Nat} {s₀ : Session} {history : List Occurrence}

/-! ## What holds of a session at the end -/

def readings (w₀ : Worker) (i : Nat) (history : List Occurrence) : List Reading :=
  (noted next (deedsOf i) w₀ history).filterMap Deed.reading?

/-- All that was read was taken in. -/
def Clean (w₀ : Worker) (i : Nat) (s₀ : Session) (history : List Occurrence) : Prop :=
  ∀ r ∈ readings w₀ i history, r.Whole s₀

/-- The session was drained, and what had come by then is what was read. -/
def Drained (w₀ : Worker) (i : Nat) (s₀ : Session) (history : List Occurrence) : Prop :=
  ∃ before around after, history = before ++ .step around :: after ∧
    (w₀.run before).phase = .draining i ∧
    s₀.handle.pending ++ noted next (arrivalOf i) w₀ before =
      (readings w₀ i history).flatMap Reading.messages

/-- Nothing was read since a batch was last taken. -/
def Flushed (w₀ : Worker) (i : Nat) (s₀ : Session) (history : List Occurrence) : Prop :=
  ∃ windows : List (List Reading), noted next (deedsOf i) w₀ history = windows.flatMap (window s₀)

theorem readings_snoc (o : Occurrence) :
    readings w₀ i (history ++ [o]) =
      readings w₀ i history ++ (deedsOf i (w₀.run history) o).filterMap Deed.reading? := by
  rw [readings, noted_snoc, ← run, List.filterMap_append, readings]

theorem Clean.snoc (h : Clean w₀ i s₀ history) {o : Occurrence}
    (next : ∀ r ∈ (deedsOf i (w₀.run history) o).filterMap Deed.reading?, r.Whole s₀) :
    Clean w₀ i s₀ (history ++ [o]) := by
  intro r hr
  rw [readings_snoc, List.mem_append] at hr
  rcases hr with hr | hr
  · exact h r hr
  · exact next r hr

theorem Drained.snoc (h : Drained w₀ i s₀ history) {o : Occurrence}
    (unread : (deedsOf i (w₀.run history) o).filterMap Deed.reading? = []) :
    Drained w₀ i s₀ (history ++ [o]) := by
  obtain ⟨before, around, after, rfl, phase, all⟩ := h
  refine ⟨before, around, after ++ [o], by simp, phase, ?_⟩
  rw [readings_snoc, unread, List.append_nil, all]

theorem Flushed.snoc (h : Flushed w₀ i s₀ history) {o : Occurrence}
    (idle : deedsOf i (w₀.run history) o = []) : Flushed w₀ i s₀ (history ++ [o]) := by
  obtain ⟨windows, cut⟩ := h
  exact ⟨windows, by rw [noted_snoc, ← run, idle, List.append_nil, cut]⟩

theorem flushed_of_taken (hs : w₀.sessions[i]? = some s₀) (fresh : s₀.Fresh) {o : Occurrence}
    {batch : List Event} (last : deedsOf i (w₀.run history) o = [.taken batch]) :
    Flushed w₀ i s₀ (history ++ [o]) := by
  obtain ⟨s, _, accounted⟩ := accounted_run hs fresh (history ++ [o])
  obtain ⟨closed, opened, cut, _⟩ := accounted.windows
  rw [Flushed, cut]
  rw [noted_snoc, ← run, last] at cut
  rcases List.eq_nil_or_concat opened with rfl | ⟨front, r, rfl⟩
  · exact ⟨closed, by simp⟩
  · -- The last deed would be a reading.
    have ends := congrArg List.getLast? cut
    simp at ends

/-! ## What is done in a phase -/

theorem unread {w : Worker} (calm : ∀ j, w.phase ≠ .reading j ∧ w.phase ≠ .draining j)
    (o : Occurrence) : (deedsOf i w o).filterMap Deed.reading? = [] := by
  by_cases subject : w.phase.subject? = some i
  · cases o with
    | sent | severed | stop | signalLost => rfl
    | step around =>
      cases hs : w.sessions[i]? with
      | none => rw [deedsOf, if_pos subject, hs]; rfl
      | some s =>
        rw [deedsOf_of_subject subject hs]
        cases hp : w.phase with
        | reading j => exact absurd hp (calm j).1
        | draining j => exact absurd hp (calm j).2
        | sweeping now j => simp [deeds, Deed.reading?]
        | waiting | timing | exited | delivering => rfl
  · rw [deedsOf_of_other subject]
    rfl

/-! ## The stages of a worker that ends well -/

/-- How far a session has come when the worker is in a phase. -/
def Stage (w₀ : Worker) (i : Nat) (s₀ : Session) (history : List Occurrence) : Phase → Prop
  | .waiting | .reading _ | .timing | .sweeping _ _ => Clean w₀ i s₀ history
  | .draining position => Clean w₀ i s₀ history ∧ (i < position → Drained w₀ i s₀ history)
  | .delivering (.ok ()) position =>
    Clean w₀ i s₀ history ∧ Drained w₀ i s₀ history ∧ (i < position → Flushed w₀ i s₀ history)
  | .delivering (.error _) _ => True
  | .exited => .ok () ∈ noted next endingOf w₀ history →
    Clean w₀ i s₀ history ∧ Drained w₀ i s₀ history ∧ Flushed w₀ i s₀ history

theorem Stage.idle {phase : Phase} (h : Stage w₀ i s₀ history phase) {o : Occurrence}
    (idle : deedsOf i (w₀.run history) o = []) (going : endingOf (w₀.run history) o = []) :
    Stage w₀ i s₀ (history ++ [o]) phase := by
  have none : (deedsOf i (w₀.run history) o).filterMap Deed.reading? = [] := by rw [idle]; rfl
  have clean : Clean w₀ i s₀ history → Clean w₀ i s₀ (history ++ [o]) := by
    intro h
    exact h.snoc (by simp [none])
  cases phase with
  | waiting | reading | timing | sweeping => exact clean h
  | draining => exact ⟨clean h.1, fun past => (h.2 past).snoc none⟩
  | delivering ending =>
    cases ending with
    | ok => exact ⟨clean h.1, h.2.1.snoc none, fun past => (h.2.2 past).snoc idle⟩
    | error => trivial
  | exited =>
    intro ended
    rw [noted_snoc, ← run, going, List.append_nil] at ended
    obtain ⟨whole, drained, flushed⟩ := h ended
    exact ⟨clean whole, drained.snoc none, flushed.snoc idle⟩

theorem Clean.read (h : Clean w₀ i s₀ history) (hs : w₀.sessions[i]? = some s₀) (fresh : s₀.Fresh)
    {around : Surroundings} {j : Nat} {s : Session} {n : Nat}
    (phase : (w₀.run history).phase = .reading j ∨ (w₀.run history).phase = .draining j)
    (there : (w₀.run history).sessions[j]? = some s)
    (well : (s.ingest around.disk around.now around.observed).1 = .ok n) :
    Clean w₀ i s₀ (history ++ [.step around]) := by
  apply h.snoc
  by_cases mine : j = i
  · subst mine
    obtain ⟨t, ht, accounted⟩ := accounted_run hs fresh history
    obtain rfl : s = t := Option.some.inj (there.symm.trans ht)
    have whole : (s.reading around.disk around.observed).Whole s₀ := by
      rw [Reading.Whole, ← Session.changes_congr accounted.setup]
      exact (Session.whole_of_ingest_ok _ _ _ accounted.unabsorbed well).1
    have subject : (w₀.run history).phase.subject? = some j := by
      rcases phase with h | h <;> rw [h] <;> rfl
    rw [deedsOf_of_subject subject there]
    rcases phase with h | h <;> simpa [h, deeds, Deed.reading?] using whole
  · have other : (w₀.run history).phase.subject? ≠ some i := by
      rcases phase with h | h <;> simpa [h, Phase.subject?] using mine
    simp [deedsOf_of_other other]

theorem drained_of_read (hs : w₀.sessions[i]? = some s₀) (fresh : s₀.Fresh)
    {around : Surroundings} {s : Session} {n : Nat}
    (phase : (w₀.run history).phase = .draining i)
    (there : (w₀.run history).sessions[i]? = some s)
    (well : (s.ingest around.disk around.now around.observed).1 = .ok n) :
    Drained w₀ i s₀ (history ++ [.step around]) := by
  obtain ⟨t, ht, accounted⟩ := accounted_run hs fresh history
  obtain rfl : s = t := Option.some.inj (there.symm.trans ht)
  have read := Session.messages_reading s around.disk around.observed
  have empty := (Session.whole_of_ingest_ok _ _ _ accounted.unabsorbed well).2
  rw [Session.ingest_pending] at empty
  rw [empty, List.append_nil] at read
  have subject : (w₀.run history).phase.subject? = some i := by rw [phase]; rfl
  refine ⟨history, around, [], rfl, phase, ?_⟩
  rw [readings_snoc, deedsOf_of_subject subject there, phase, accounted.messages, read]
  simp [readings, deeds, Deed.reading?]

theorem stage_move (hs : w₀.sessions[i]? = some s₀) (fresh : s₀.Fresh) {around : Surroundings}
    {phase next : Phase} {ended : Option Ending}
    (move : Move (w₀.run history) around phase next ended)
    (hp : (w₀.run history).phase = phase)
    (he : endingOf (w₀.run history) (.step around) = ended.toList)
    (h : Stage w₀ i s₀ history phase) :
    Stage w₀ i s₀ (history ++ [.step around]) next := by
  obtain ⟨t, ht, _⟩ := accounted_run hs fresh history
  have within {j : Nat} (absent : (w₀.run history).sessions[j]? = none) : i < j := by
    obtain ⟨_, _⟩ := List.getElem?_eq_some_iff.mp ht
    have := List.getElem?_eq_none_iff.mp absent
    omega
  have calm (hc : ∀ j, phase ≠ .reading j ∧ phase ≠ .draining j) :=
    unread (i := i) (hp ▸ hc) (.step around)
  have other (ho : phase.subject? ≠ some i) :=
    deedsOf_of_other (o := .step around) (hp ▸ ho)
  cases move with
  | heeded =>
    have clean : Clean w₀ i s₀ (history ++ [.step around]) := h.snoc (by simp [calm (by simp)])
    rcases ((w₀.run history).waits.heed around.report).1 with _ | _ | _ | _
    · exact clean
    · exact clean
    · exact ⟨clean, by simp⟩
    · exact clean
  | read there well => exact Clean.read h hs fresh (.inl hp) there well
  | readFailed | drainFailed | nothingToRead => trivial
  | timed | swept | sweptAll => exact Clean.snoc h (by simp [calm (by simp)])
  | @drained j s n there well =>
    refine ⟨h.1.read hs fresh (.inr hp) there well, fun past => ?_⟩
    -- The step drains the session at `j`; those before it were drained by earlier ones.
    by_cases mine : j = i
    · subst mine
      exact drained_of_read hs fresh hp there well
    · refine (h.2 (by omega)).snoc ?_
      rw [other (by simpa [Phase.subject?] using mine)]
      rfl
  | drainedAll absent =>
    have idle := other (by simp [Phase.subject?]; have := within absent; omega)
    exact ⟨h.1.snoc (by simp [idle]), (h.2 (within absent)).snoc (by simp [idle]), by simp⟩
  | @delivered ending j s there =>
    cases ending with
    | error => trivial
    | ok =>
      have none := calm (by simp)
      refine ⟨h.1.snoc (by simp [none]), h.2.1.snoc none, fun past => ?_⟩
      by_cases mine : j = i
      · subst mine
        have taken : deedsOf j (w₀.run history) (.step around) = [.taken s.takeBatch.1] := by
          rw [deedsOf_of_subject (by rw [hp]; rfl) there, hp, deeds]
        exact flushed_of_taken hs fresh taken
      · exact (h.2.2 (by omega)).snoc (other (by simpa [Phase.subject?] using mine))
  | @deliveredAll ending j absent =>
    intro ended
    rw [noted_snoc, ← run, endings_of_not_exited (by simp [hp]), he] at ended
    have idle := other (by simp [Phase.subject?]; have := within absent; omega)
    cases ending with
    | error => simp at ended
    | ok =>
      exact ⟨h.1.snoc (by simp [idle]), h.2.1.snoc (by simp [idle]), (h.2.2 (within absent)).snoc idle⟩
  | rests => exact h.idle (other (by simp [Phase.subject?])) he

theorem stage_run (hs : w₀.sessions[i]? = some s₀) (fresh : s₀.Fresh) (begin : w₀.phase = .waiting)
    (history : List Occurrence) : Stage w₀ i s₀ history (w₀.run history).phase := by
  induction history using List.reverseRecOn with
  | nil =>
    rw [run, List.foldl_nil, begin]
    intro r hr
    simp [readings, noted] at hr
  | append_singleton history o ih =>
    rw [run_snoc]
    cases o with
    | step around => exact stage_move hs fresh (step_move _ around) rfl rfl ih
    | sent | severed | stop | signalLost => exact ih.idle rfl rfl

/-! ## Conservation -/

/-- The readings of a session, cut into windows, account for all that was pushed for it. -/
structure Conserved (w₀ : Worker) (history : List Occurrence) (i : Nat) (s : Session)
    (windows : List (List Reading)) : Prop where
  /-- Each window was read, and then its batch was taken. -/
  deeds : noted next (deedsOf i) w₀ history = windows.flatMap (window s)
  pushed : noted next (pushedOf i) w₀ history = windows.flatMap (coalesced s)
  /-- Each reading was taken in as a whole. -/
  whole : ∀ r ∈ windows.flatten, r.Whole s
  /-- The records in them are those that had come when the session was drained. -/
  records : ∃ before around after, history = before ++ .step around :: after ∧
    (w₀.run before).phase = .draining i ∧
    s.handle.pending ++ noted next (arrivalOf i) w₀ before =
      (windows.flatten.flatMap Reading.records).map .record

theorem filterMap_window (s : Session) (windows : List (List Reading)) :
    (windows.flatMap (window s)).filterMap Deed.reading? = windows.flatten := by
  induction windows with
  | nil => rfl
  | cons first rest ih =>
    rw [List.flatMap_cons, List.filterMap_append, ih, List.flatten_cons, window]
    simp [Deed.reading?, List.filterMap_map, Function.comp_def]

theorem flatMap_batch_window (s : Session) (windows : List (List Reading)) :
    (windows.flatMap (window s)).flatMap Deed.batch = windows.flatMap (coalesced s) := by
  induction windows with
  | nil => rfl
  | cons first rest ih =>
    rw [List.flatMap_cons, List.flatMap_append, ih, List.flatMap_cons, window]
    simp [Deed.batch, List.flatMap_map]

theorem noted_pushedOf (i : Nat) (w : Worker) (history : List Occurrence) :
    noted next (pushedOf i) w history = (noted next (deedsOf i) w history).flatMap Deed.batch := by
  rw [noted_flatMap, show pushedOf i = _ from funext₂ (pushedOf_eq_batch i)]

theorem conserved_of_ended (hs : w₀.sessions[i]? = some s₀) (fresh : s₀.Fresh)
    (begin : w₀.phase = .waiting) (ended : .ok () ∈ noted next endingOf w₀ history) :
    ∃ windows, Conserved w₀ history i s₀ windows := by
  have exited : (w₀.run history).phase = .exited := by
    by_contra going
    rw [endings_of_not_exited going] at ended
    cases ended
  have stage := stage_run hs fresh begin history
  rw [exited] at stage
  obtain ⟨clean, drained, windows, cut⟩ := stage ended
  have read : readings w₀ i history = windows.flatten := by
    rw [readings, cut, filterMap_window]
  rw [Clean, read] at clean
  refine ⟨windows, cut, ?_, clean, ?_⟩
  · rw [noted_pushedOf, cut, flatMap_batch_window]
  · obtain ⟨before, around, after, when, phase, all⟩ := drained
    refine ⟨before, around, after, when, phase, ?_⟩
    rw [all, read, List.map_flatMap]
    exact List.flatMap_congr fun r hr => (clean r hr).messages

theorem taken_mem_deeds {phase : Phase} {around : Surroundings} {s : Session}
    (some : (deeds phase around s).flatMap Deed.batch ≠ []) :
    .taken ((deeds phase around s).flatMap Deed.batch) ∈ deeds phase around s := by
  cases phase with
  | waiting | timing | exited | reading | draining => simp [deeds, Deed.batch] at some
  | delivering => simp [deeds, Deed.batch]
  | sweeping now =>
    unfold deeds at some ⊢
    cases hd : (s.takeDue now).1 <;> simp_all [Deed.batch]

theorem taken_of_push {push : Option Nat × List Event} (h : push ∈ noted next pushOf w₀ history) :
    ∃ i s, push.1 = some i ∧ w₀.sessions[i]? = some s ∧
      .taken push.2 ∈ noted next (deedsOf i) w₀ history := by
  obtain ⟨before, o, after, rfl, found⟩ := mem_noted.mp h
  rw [← run] at found
  unfold pushOf at found
  split at found
  · cases found
  · rename_i some
    obtain rfl := List.mem_singleton.mp found
    cases o with
    | sent | severed | stop | signalLost => exact absurd rfl some
    | step around =>
      rw [undergo, step_pushed] at some ⊢
      cases subject : (w₀.run before).phase.subject? with
      | none => simp [subject] at some
      | some i =>
        simp only [subject, Option.bind_some] at some ⊢
        cases ht : (w₀.run before).sessions[i]? with
        | none => simp [ht] at some
        | some t =>
          simp only [ht, Option.toList_some, List.flatMap_cons, List.flatMap_nil, List.append_nil] at some ⊢
          have within := within_of_run ht
          refine ⟨i, w₀.sessions[i], rfl, List.getElem?_eq_getElem within, ?_⟩
          refine mem_noted.mpr ⟨before, .step around, after, rfl, ?_⟩
          rw [← run, deedsOf_of_subject subject ht]
          exact taken_mem_deeds some

/-- **Conservation.** A worker that ends well, whatever came to it and in whatever order it woke,
has pushed for each session the batches of consecutive windows of readings, which hold every record
that had come when the session was drained, in its order and once. Each push is the batch of one
window of one session. -/
theorem conservation {sessions : List Session} {history : List Occurrence}
    (fresh : ∀ s ∈ sessions, s.Fresh)
    (ended : .ok () ∈ noted next endingOf (start sessions) history) :
    ∃ windows : Nat → List (List Reading),
      (∀ i s, sessions[i]? = some s → Conserved (start sessions) history i s (windows i)) ∧
      ∀ push ∈ noted next pushOf (start sessions) history,
        ∃ i s, sessions[i]? = some s ∧
          ∃ readings ∈ windows i, push = (some i, coalesced s readings) := by
  have each (i : Nat) : ∃ windows, ∀ s, sessions[i]? = some s →
      Conserved (start sessions) history i s windows := by
    cases hs : sessions[i]? with
    | none => exact ⟨[], by simp⟩
    | some s =>
      have attached : (start sessions).sessions[i]? = some s := hs
      obtain ⟨windows, h⟩ :=
        conserved_of_ended attached (fresh s (List.mem_of_getElem? hs)) rfl ended
      exact ⟨windows, by simpa using h⟩
  choose windows conserved using each
  refine ⟨windows, conserved, ?_⟩
  rintro ⟨owner, batch⟩ push
  obtain ⟨i, s, rfl, hs, taken⟩ := taken_of_push push
  refine ⟨i, s, hs, ?_⟩
  rw [(conserved i s hs).deeds, List.mem_flatMap] at taken
  obtain ⟨readings, mine, taken⟩ := taken
  refine ⟨readings, mine, ?_⟩
  have same : batch = coalesced s readings := by simpa [window] using taken
  rw [same]

/-- A worker of two sessions reads and sweeps, is stopped with a record still to be read, and pushes
one window of each. -/
theorem conservation_stopped :
    let disk : Disk := ⟨.ok, fun _ => true, fun _ => true, fun _ => .ok []⟩
    let session (root : Path) (ticket : Nat) : Session :=
      ⟨root, true, .zero, none, .make root ticket true, .empty, none, []⟩
    let created (path : Path) : Message := .record ⟨.create, [path], false⟩
    let a : Path := ⟨[0x2F, 0x61]⟩
    let b : Path := ⟨[0x2F, 0x62]⟩
    let step : Occurrence := .step ⟨disk, .origin, .origin, .handle 1⟩
    let history : List Occurrence :=
      [.sent 0 (created a), .sent 1 (created b), step, step, step, step, step, step, .stop,
        step, step, step, step, step, step, step]
    let sessions := [session a 0, session b 1]
    (∀ s ∈ sessions, s.Fresh) ∧ .ok () ∈ noted next endingOf (start sessions) history ∧
    noted next pushOf (start sessions) history =
      [(some 1, [⟨b, .created, .origin⟩]), (some 0, [⟨a, .created, .origin⟩])] ∧
    ∃ windows : Nat → List (List Reading),
      (∀ i s, sessions[i]? = some s → Conserved (start sessions) history i s (windows i)) ∧
      ∀ push ∈ noted next pushOf (start sessions) history,
        ∃ i s, sessions[i]? = some s ∧
          ∃ readings ∈ windows i, push = (some i, coalesced s readings) := by
  intro disk session created a b step history sessions
  have fresh : ∀ s ∈ sessions, s.Fresh := by
    simp only [sessions, List.mem_cons, List.not_mem_nil, or_false, forall_eq_or_imp, forall_eq]
    exact ⟨⟨rfl, rfl, rfl⟩, ⟨rfl, rfl, rfl⟩⟩
  have ended : .ok () ∈ noted next endingOf (start sessions) history := by
    decide +kernel
  exact ⟨fresh, ended, by decide +kernel, conservation fresh ended⟩

end DirectoryWatch.Worker
