import DirectoryWatch.Proofs.Session.Window

/-!
# The fixed window

The window of a session is open exactly while its batch holds something that was recorded, changes
that undid each other included, and it was opened by the read that recorded the first of it. So the
batch comes due a fixed time after that, whatever is read meanwhile.
-/

namespace DirectoryWatch.Session

open Native (Handle)

/-- A change in the batch, and the clock when the read that recorded it began. -/
structure Recorded where
  began : Moment
  change : Event

def Read.recorded (s : Session) (r : Read) : List Recorded :=
  (r.reading.records.flatMap (s.brought r.reading.disk)).map fun c =>
    ⟨r.began, eventAt r.reading.observed c⟩

/-- What was recorded since the batch was last taken, with one more entry of the ledger. -/
def Entry.extend (s : Session) (since : List Recorded) : Entry → List Recorded
  | .read r => since ++ r.recorded s
  | .taken _ => []

/-- What was recorded since the batch was last taken. -/
def sinceTaken (s : Session) (entries : List Entry) : List Recorded := entries.foldl (Entry.extend s) []

/-- The window of what was recorded. -/
def Window.ofRecorded (since : List Recorded) : Window :=
  ⟨since.map Recorded.change, since.head?.map Recorded.began⟩

variable {s₀ s : Session} {since : List Recorded}

/-! ## Reads that can tell everything -/

theorem changes_of_recorded {r : Read} (told : (s.changes r.reading.disk r.reading.records).2 = none) :
    r.reading.changes s = (r.recorded s).map Recorded.change := by
  unfold Reading.changes Read.recorded
  rw [changes_of_told told, List.map_map]
  rfl

theorem Window.read_ofRecorded {r : Read} (calm : ∀ p, r.result ≠ .error (.panic p))
    (told : (s.changes r.reading.disk r.reading.records).2 = none) :
    (ofRecorded since).read s r = ofRecorded (since ++ r.recorded s) := by
  have changes := changes_of_recorded told
  have opened : (((ofRecorded since).opened <|>
      if (ofRecorded since).changes ++ r.reading.changes s = [] then none else some r.began) =
        (ofRecorded (since ++ r.recorded s)).opened) := by
    rw [changes, ofRecorded, ofRecorded, ← List.map_append]
    cases since with
    | cons first rest => rfl
    | nil =>
      unfold Read.recorded
      cases r.reading.records.flatMap (s.brought r.reading.disk) <;> rfl
  have whole : (ofRecorded since).changes ++ r.reading.changes s =
      (ofRecorded (since ++ r.recorded s)).changes := by
    rw [changes, ofRecorded, ofRecorded, List.map_append]
  unfold read
  cases result : r.result with
  | ok n => exact congrArg₂ Window.mk whole opened
  | error fault =>
    cases fault with
    | error e => exact congrArg₂ Window.mk whole opened
    | panic p => exact absurd result (calm p)

theorem Holds.entered (h : Holds s₀ s (.ofRecorded since)) (x : Happening)
    (calm : ∀ p, .panic p ∉ faults (s.entries x)) :
    (s.entries x).foldl (Window.enter s₀) (.ofRecorded since) =
      .ofRecorded ((s.entries x).foldl (Entry.extend s₀) since) := by
  cases x with
  | ingest disk now observed =>
    have calm (p : Panic) : (s.ingest disk now observed).1 ≠ .error (.panic p) :=
      fun panics => calm p (mem_faults_ingest.mpr panics)
    have told : (s₀.changes disk (Handle.split s.handle.pending).1).2 = none := by
      rw [← changes_congr h.setup]
      exact told_of_ingest disk now observed h.unabsorbed calm
    exact Window.read_ofRecorded calm told
  | takeDue now =>
    rcases s.takeDue_cases now with kept | taken
    · simp [entries, kept]
    · simp [entries, taken, Window.enter, Entry.extend, Window.closed, Window.ofRecorded]
  | takeBatch | sent | severed | closed => rfl

theorem Holds.recorded (h : Holds s₀ s (.ofRecorded since)) (course : List Happening)
    (calm : ∀ p, .panic p ∉ faults (s.ledger course)) :
    Holds s₀ (s.run course) (.ofRecorded ((s.ledger course).foldl (Entry.extend s₀) since)) := by
  induction course generalizing s since with
  | nil => exact h
  | cons x rest ih =>
    simp only [ledger_cons, faults, List.filterMap_append, List.mem_append, not_or] at calm
    have entered := h.entered x fun p => (calm p).1
    rw [ledger_cons, List.foldl_append]
    exact ih (entered ▸ h.after x) fun p => (calm p).2

/-! ## While the batch stays -/

theorem window_of_untaken (x : Happening) (opened : s.opened ≠ none)
    (untaken : ∀ batch, .taken batch ∉ s.entries x) :
    (s.after x).opened = s.opened ∧ (s.after x).latency = s.latency := by
  cases x with
  | ingest disk now observed =>
    obtain ⟨m, hm⟩ := Option.ne_none_iff_exists'.mp opened
    unfold after ingest
    simp only [Handle.readPending]
    split <;> simp [hm]
  | takeDue now =>
    unfold entries at untaken
    unfold after
    rcases s.takeDue_cases now with kept | taken
    · simp [kept]
    · exact absurd (by simp [taken]) (untaken s.takeBatch.1)
  | takeBatch => exact absurd (List.mem_singleton_self _) (untaken s.takeBatch.1)
  | sent | severed | closed => exact ⟨rfl, rfl⟩

theorem window_run_of_untaken (course : List Happening) (opened : s.opened ≠ none)
    (untaken : ∀ batch, .taken batch ∉ s.ledger course) :
    (s.run course).opened = s.opened ∧ (s.run course).latency = s.latency := by
  induction course generalizing s with
  | nil => exact ⟨rfl, rfl⟩
  | cons x rest ih =>
    rw [ledger_cons] at untaken
    obtain ⟨same, latency⟩ := window_of_untaken x opened
      fun batch hb => untaken batch (List.mem_append_left _ hb)
    have later : ((s.after x).run rest).opened = (s.after x).opened ∧
        ((s.after x).run rest).latency = (s.after x).latency := by
      apply ih
      · rw [same]
        exact opened
      · intro batch hb
        exact untaken batch (List.mem_append_right _ hb)
    exact ⟨later.1.trans same, later.2.trans latency⟩

theorem flushDeadline_of_untaken (course : List Happening) (opened : s.opened ≠ none)
    (untaken : ∀ batch, .taken batch ∉ s.ledger course) :
    (s.run course).flushDeadline = s.flushDeadline := by
  obtain ⟨same, latency⟩ := window_run_of_untaken course opened untaken
  unfold flushDeadline
  rw [same, latency]

/-- **The fixed window.** Whatever happens to a session without a panic, its window is open exactly if
something was recorded since its batch was last taken, and was opened when the read of the first
of it began. An open window stays where it is until the batch is taken; the batch is not given out
before its time, and is given out whole from then on. -/
theorem fixed_window (fresh : s.Fresh) {course : List Happening}
    (calm : ∀ p, .panic p ∉ faults (s.ledger course)) :
    let t := s.run course
    let since := s.sinceTaken (s.ledger course)
    (t.opened ≠ none ↔ since ≠ []) ∧
    (∀ first rest, since = first :: rest → t.opened = some first.began) ∧
    (t.opened ≠ none → ∀ later, (∀ batch, .taken batch ∉ t.ledger later) →
      (t.run later).flushDeadline = t.flushDeadline) ∧
    ∀ now,
      ((∀ d, t.flushDeadline = some d → ¬ d ≤ now) → t.takeDue now = (none, t)) ∧
      ∀ d, t.flushDeadline = some d → d ≤ now → t.takeDue now =
        (some (Coalescer.batchOf (since.map Recorded.change)),
          { t with batch := .empty, opened := none }) := by
  intro t since
  have holds : Holds s t (.ofRecorded since) := fresh.holds.recorded course calm
  have opened : t.opened = since.head?.map Recorded.began := holds.opened
  refine ⟨?_, ?_, fun h later => flushDeadline_of_untaken later h, fun now => ⟨?_, ?_⟩⟩
  · rw [opened]
    cases since <;> simp
  · intro first rest hs
    rw [opened, hs]
    rfl
  · exact takeDue_of_not_due
  · intro d hd due
    have whole : t.takeBatch.1 = Coalescer.batchOf (since.map Recorded.change) :=
      t.takeBatch_fst.trans holds.events
    rw [takeDue_of_due hd due, whole]
    rfl

theorem fixed_window_undone :
    let disk : Disk := ⟨.ok, fun _ => true, fun _ => true, fun _ => .ok []⟩
    let root : Path := ⟨[0x2F]⟩
    let x : Path := ⟨[0x2F, 0x78]⟩
    let y : Path := ⟨[0x2F, 0x79]⟩
    let s : Session := ⟨root, true, .zero, none, .make root 0 true, .empty, none, []⟩
    let later : Moment := ⟨1, ⟨0, by decide⟩⟩
    let course : List Happening :=
      [.sent (.record ⟨.create, [x], false⟩), .sent (.record ⟨.remove, [x], false⟩),
        .ingest disk .origin .origin, .sent (.record ⟨.create, [y], false⟩),
        .ingest disk later later]
    let t := s.run course
    let since := s.sinceTaken (s.ledger course)
    s.Fresh ∧ (∀ p, .panic p ∉ faults (s.ledger course)) ∧
    since.map Recorded.change =
      [⟨x, .created, .origin⟩, ⟨x, .removed, .origin⟩, ⟨y, .created, later⟩] ∧
    t.opened = some .origin ∧
    (∀ more, (∀ batch, .taken batch ∉ t.ledger more) → (t.run more).flushDeadline = some .origin) ∧
    t.takeDue later = (some [⟨y, .created, later⟩], { t with batch := .empty, opened := none }) := by
  intro disk root x y s later course t since
  have fresh : s.Fresh := ⟨rfl, rfl, rfl⟩
  have faultless : faults (s.ledger course) = [] := by decide +kernel
  have calm : ∀ p, .panic p ∉ faults (s.ledger course) := by simp [faultless]
  have recorded : since.map Recorded.change =
      [⟨x, .created, .origin⟩, ⟨x, .removed, .origin⟩, ⟨y, .created, later⟩] := by decide +kernel
  have deadline : t.flushDeadline = some .origin := by decide +kernel
  have opened : t.opened = some .origin := by decide +kernel
  obtain ⟨_, _, stays, taken⟩ := fixed_window fresh calm
  refine ⟨fresh, calm, recorded, opened, ?_, ?_⟩
  · intro more untaken
    rw [stays (by rw [opened]; simp) more untaken]
    exact deadline
  · rw [(taken later).2 .origin deadline (by decide +kernel), recorded]
    congr 2

end DirectoryWatch.Session
