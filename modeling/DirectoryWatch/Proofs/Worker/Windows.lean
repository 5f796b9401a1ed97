import DirectoryWatch.Proofs.Coalescer.Life
import DirectoryWatch.Proofs.Worker.History
import DirectoryWatch.Service

/-!
# Windows

The readings of a session fall into windows, one for each time its batch is taken. Whatever the
worker goes through, what was taken so far are the batches of the windows so far, the batch in place
is that of the readings since, and each message is in one reading or still pending.
-/

namespace DirectoryWatch

open Native (Handle Message)

/-- A session as it is attached, with nothing read yet. -/
structure Session.Fresh (s : Session) : Prop where
  batch : s.batch = .empty
  opened : s.opened = none
  unabsorbed : s.unabsorbed = []

theorem Session.eq_of_attach {State : Type} {backend : Native.Backend State} {disk : Disk}
    {root : Path} {config : Config} {state state' : State} {s : Session}
    (h : attach backend disk root config state = (.ok s, state')) :
    ∃ path filter handle, prepare backend disk root config = .ok (path, filter) ∧
      s = ⟨path, config.recursive, config.latency, filter, handle, .empty, none, []⟩ := by
  unfold attach at h
  split at h
  · cases h
  · rename_i path filter prepared
    split at h
    · cases h
    · cases h
      exact ⟨path, filter, _, prepared, rfl⟩

theorem Session.fresh_of_attach {State : Type} {backend : Native.Backend State} {disk : Disk}
    {root : Path} {config : Config} {state state' : State} {s : Session}
    (h : attach backend disk root config state = (.ok s, state')) : s.Fresh := by
  obtain ⟨_, _, _, -, rfl⟩ := eq_of_attach h
  exact ⟨rfl, rfl, rfl⟩

theorem Service.fresh_of_attachAll {State : Type} {backend : Native.Backend State} {disk : Disk}
    {config : Config} {paths : List Path} {sessions attached : List Session} {state state' : State}
    (h : attachAll backend disk config paths sessions state = (.ok attached, state'))
    (fresh : ∀ s ∈ sessions, s.Fresh) : ∀ s ∈ attached, s.Fresh := by
  induction paths generalizing sessions state with
  | nil =>
    cases h
    exact fresh
  | cons path rest ih =>
    unfold attachAll at h
    split at h
    · cases h
    · rename_i session state opened
      apply ih h
      intro s hs
      rcases List.mem_append.mp hs with old | new
      · obtain ⟨t, ht, rfl⟩ := List.mem_map.mp old
        obtain ⟨batch, opened, unabsorbed⟩ := fresh t ht
        exact ⟨batch, opened, unabsorbed⟩
      · rw [List.mem_singleton.mp new]
        exact Session.fresh_of_attach opened

namespace Worker

/-- The batch that the changes of some readings make. -/
def coalesced (s : Session) (readings : List Reading) : List Event :=
  Coalescer.batchOf (readings.flatMap (Reading.changes s))

/-- Some readings and the batch that is taken after them. -/
def window (s : Session) (readings : List Reading) : List Deed :=
  readings.map .read ++ [.taken (coalesced s readings)]

/-- A session accounts for all that came to it since it was `s₀`. -/
structure Accounted (s₀ s : Session) (arrived : List Message) (ledger : List Deed) : Prop where
  setup : s.setup = s₀.setup
  unabsorbed : s.unabsorbed = []
  /-- Messages are in a reading or pending, in the order in which they came. -/
  messages : s₀.handle.pending ++ arrived =
    (ledger.filterMap Deed.reading?).flatMap Reading.messages ++ s.handle.pending
  windows : ∃ closed : List (List Reading), ∃ opened : List Reading,
    ledger = closed.flatMap (window s₀) ++ opened.map .read ∧
    s.batch = Coalescer.empty.recordAll (opened.flatMap (Reading.changes s₀))

variable {s₀ s : Session} {arrived : List Message} {ledger : List Deed}

theorem accounted_start (fresh : s.Fresh) : Accounted s s [] [] :=
  ⟨rfl, fresh.unabsorbed, by simp, [], [], rfl, fresh.batch⟩

/-! ## What a step keeps -/

theorem accounted_ingest (h : Accounted s₀ s arrived ledger) (disk : Disk) (now observed : Moment) :
    Accounted s₀ (s.ingest disk now observed).2 arrived (ledger ++ [.read (s.reading disk observed)]) := by
  obtain ⟨closed, opened, cut, batch⟩ := h.windows
  refine ⟨?_, Session.ingest_unabsorbed disk now observed, ?_, closed,
    opened ++ [s.reading disk observed], ?_, ?_⟩
  · rw [Session.ingest_setup, h.setup]
  · rw [h.messages, Session.ingest_pending]
    conv_lhs => rw [Session.messages_reading s disk observed]
    simp [Deed.reading?]
  · simp [cut]
  · have same : (s.reading disk observed).changes s = (s.reading disk observed).changes s₀ := by
      rw [Reading.changes, Session.changes_congr h.setup, Reading.changes]
    rw [Session.ingest_batch disk now observed h.unabsorbed, batch, same]
    simp [Coalescer.recordAll, List.foldl_append]

theorem accounted_takeBatch (h : Accounted s₀ s arrived ledger) :
    Accounted s₀ s.takeBatch.2 arrived (ledger ++ [.taken s.takeBatch.1]) := by
  obtain ⟨closed, opened, cut, batch⟩ := h.windows
  refine ⟨h.setup, h.unabsorbed, ?_, closed ++ [opened], [], ?_, rfl⟩
  · rw [h.messages]
    simp [Deed.reading?, Session.takeBatch]
  · have taken : s.takeBatch.1 = coalesced s₀ opened := by
      rw [Session.takeBatch_fst, batch, Coalescer.events_recordAll_empty, coalesced]
    simp [cut, taken, window]

theorem accounted_close (h : Accounted s₀ s arrived ledger) : Accounted s₀ s.close arrived ledger :=
  ⟨h.setup, h.unabsorbed, h.messages, h.windows⟩

theorem accounted_worked (h : Accounted s₀ s arrived ledger) (phase : Phase) (around : Surroundings) :
    Accounted s₀ (worked phase around s) arrived (ledger ++ deeds phase around s) := by
  cases phase with
  | waiting | timing | exited =>
    rw [deeds, List.append_nil]
    exact h
  | reading | draining => exact accounted_ingest h around.disk around.now around.observed
  | sweeping now =>
    unfold worked deeds
    rcases Session.takeDue_cases s now with none | taken
    · simpa [none] using h
    · simpa [taken] using accounted_takeBatch h
  | delivering => exact accounted_close (accounted_takeBatch h)

/-! ## What others do -/

theorem accounted_send (h : Accounted s₀ s arrived ledger) (m : Message) :
    Accounted s₀ { s with handle := s.handle.send m }
      (arrived ++ if s.handle.connected = true then [m] else []) ledger := by
  unfold Handle.send
  split
  · refine ⟨h.setup, h.unabsorbed, ?_, h.windows⟩
    rw [← List.append_assoc, h.messages, List.append_assoc]
  · simpa using h

theorem accounted_disconnect (h : Accounted s₀ s arrived ledger) :
    Accounted s₀ { s with handle := s.handle.disconnect } arrived ledger :=
  ⟨h.setup, h.unabsorbed, h.messages, h.windows⟩

/-! ## Along a history -/

theorem onHandle_session (w : Worker) (ticket : Nat) (f : Handle → Handle) (i : Nat) :
    (w.onHandle ticket f).sessions[i]? = (w.sessions[i]?).map fun s =>
      if s.handle.ticket = ticket then { s with handle := f s.handle } else s := by
  simp [onHandle]

theorem accounted_undergo {w : Worker} {i : Nat} (hs : w.sessions[i]? = some s)
    (h : Accounted s₀ s arrived ledger) (o : Occurrence) :
    ∃ t, (w.undergo o).1.sessions[i]? = some t ∧
      Accounted s₀ t (arrived ++ arrivalOf i w o) (ledger ++ deedsOf i w o) := by
  cases o with
  | step around =>
    simp only [undergo, step_session, deedsOf, arrivalOf, List.append_nil, hs]
    split
    · exact ⟨_, rfl, accounted_worked h w.phase around⟩
    · exact ⟨s, rfl, by simpa using h⟩
  | sent ticket m =>
    simp only [undergo, onHandle_session, deedsOf, arrivalOf, List.append_nil, hs, Option.map_some]
    refine ⟨_, rfl, ?_⟩
    by_cases mine : s.handle.ticket = ticket
    · simpa [mine] using accounted_send h m
    · simpa [mine] using h
  | severed ticket =>
    simp only [undergo, onHandle_session, deedsOf, arrivalOf, List.append_nil, hs, Option.map_some]
    refine ⟨_, rfl, ?_⟩
    split
    · exact accounted_disconnect h
    · exact h
  | stop | signalLost => exact ⟨s, hs, by simpa [deedsOf, arrivalOf] using h⟩

theorem Accounted.run {w : Worker} {i : Nat} (h : Accounted s₀ s arrived ledger)
    (hs : w.sessions[i]? = some s) (history : List Occurrence) :
    ∃ t, (w.run history).sessions[i]? = some t ∧
      Accounted s₀ t (arrived ++ noted next (arrivalOf i) w history)
        (ledger ++ noted next (deedsOf i) w history) := by
  induction history using List.reverseRecOn with
  | nil =>
    rw [noted, noted, List.append_nil, List.append_nil]
    exact ⟨s, hs, h⟩
  | append_singleton history o ih =>
    obtain ⟨t, ht, h⟩ := ih
    rw [run_snoc, noted_snoc, ← Worker.run, noted_snoc, ← Worker.run, ← List.append_assoc,
      ← List.append_assoc]
    exact accounted_undergo ht h o

/-- Every session accounts for all that came to it, at any time and however the worker fared. -/
theorem accounted_run {w₀ : Worker} {i : Nat} (hs : w₀.sessions[i]? = some s₀) (fresh : s₀.Fresh)
    (history : List Occurrence) :
    ∃ s, (w₀.run history).sessions[i]? = some s ∧
      Accounted s₀ s (noted next (arrivalOf i) w₀ history) (noted next (deedsOf i) w₀ history) := by
  simpa using (accounted_start fresh).run hs history

theorem accounted_of_start {sessions : List Session} (fresh : ∀ s ∈ sessions, s.Fresh) {i : Nat}
    (hs : sessions[i]? = some s₀) (history : List Occurrence) :
    ∃ s, ((start sessions).run history).sessions[i]? = some s ∧
      Accounted s₀ s (noted next (arrivalOf i) (start sessions) history)
        (noted next (deedsOf i) (start sessions) history) :=
  accounted_run hs (fresh s₀ (List.mem_of_getElem? hs)) history

theorem accounted_of_there {sessions : List Session} (fresh : ∀ s ∈ sessions, s.Fresh) {i : Nat}
    {history : List Occurrence} (there : ((start sessions).run history).sessions[i]? = some s) :
    ∃ s₀, sessions[i]? = some s₀ ∧
      Accounted s₀ s (noted next (arrivalOf i) (start sessions) history)
        (noted next (deedsOf i) (start sessions) history) := by
  have within : i < sessions.length := within_of_run there
  have hs : sessions[i]? = some sessions[i] := List.getElem?_eq_getElem within
  obtain ⟨t, ht, accounted⟩ := accounted_of_start fresh hs history
  obtain rfl : s = t := Option.some.inj (there.symm.trans ht)
  exact ⟨_, hs, accounted⟩

/-! ## Since a batch was last taken -/

/-- The open readings after one more deed. -/
def Deed.extend (opened : List Reading) : Deed → List Reading
  | read r => opened ++ [r]
  | taken _ => []

/-- The readings since a batch was last taken. -/
def recent (ledger : List Deed) : List Reading := ledger.foldl Deed.extend []

theorem recent_snoc (ledger : List Deed) (d : Deed) :
    recent (ledger ++ [d]) = Deed.extend (recent ledger) d := by
  rw [recent, List.foldl_append, List.foldl_cons, List.foldl_nil, recent]

theorem recent_append_of_untaken (ledger : List Deed) {more : List Deed}
    (untaken : ∀ batch, .taken batch ∉ more) :
    recent (ledger ++ more) = recent ledger ++ more.filterMap Deed.reading? := by
  induction more using List.reverseRecOn with
  | nil => simp
  | append_singleton more d ih =>
    have before : ∀ batch, .taken batch ∉ more :=
      fun batch hb => untaken batch (List.mem_append_left _ hb)
    rw [← List.append_assoc, recent_snoc, ih before, List.filterMap_append]
    cases d with
    | read r => exact List.append_assoc _ _ _
    | taken batch => exact absurd (by simp) (untaken batch)

theorem recent_windows (s : Session) (closed : List (List Reading)) (opened : List Reading) :
    recent (closed.flatMap (window s) ++ opened.map .read) = opened := by
  induction opened using List.reverseRecOn with
  | nil =>
    rcases List.eq_nil_or_concat closed with rfl | ⟨front, last, rfl⟩
    · rfl
    · rw [List.map_nil, List.append_nil, List.concat_eq_append, List.flatMap_append,
        List.flatMap_singleton, window, ← List.append_assoc, recent_snoc, Deed.extend]
  | append_singleton opened r ih =>
    rw [List.map_append, ← List.append_assoc, List.map_singleton, recent_snoc, ih, Deed.extend]

theorem Accounted.events (h : Accounted s₀ s arrived ledger) :
    s.batch.events = coalesced s₀ (recent ledger) := by
  obtain ⟨closed, opened, rfl, batch⟩ := h.windows
  rw [recent_windows, batch, Coalescer.events_recordAll_empty, coalesced]

end Worker

end DirectoryWatch
