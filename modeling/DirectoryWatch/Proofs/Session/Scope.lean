import DirectoryWatch.Proofs.Session.Course

/-!
# Events lie inside the watch

A batch is made of what its session took in, and folding changes makes no event that none of them
would be: each event lies in the watch, none takes the root away, and what lies below the root was
kept by the filter each time. A read that ends well answers how many changes it took in.
-/

namespace DirectoryWatch

/-! ## One change -/

namespace Session

open Native (Record)

variable {s : Session} {disk : Disk} {r : Record} {c : Path × ChangeKind}

theorem within_of_brought (h : c ∈ s.brought disk r) : s.Within c.1 ∧ ¬ s.Uproots c := by
  unfold brought at h
  split at h
  · rw [List.mem_singleton.mp h]
    refine ⟨Or.inl (Path.Same.refl _), ?_⟩
    rintro ⟨_, away⟩
    cases away
  · have takes : s.Takes disk c := by simpa using (List.mem_filter.mp h).2
    exact ⟨takes.within, takes.rooted⟩

theorem kept_of_brought (h : c ∈ s.brought disk r) (below : ¬ c.1.Same s.root) :
    r.rescan = false ∧ c ∈ r.changes disk ∧ s.Keeps disk c.1 := by
  unfold brought at h
  split at h
  · rw [List.mem_singleton.mp h] at below
    exact absurd (Path.Same.refl _) below
  · rename_i whole
    obtain ⟨there, takes⟩ := List.mem_filter.mp h
    have takes : s.Takes disk c := by simpa using takes
    exact ⟨Bool.not_eq_true _ ▸ whole, there, takes.kept⟩

end Session

theorem Reading.brought_of_mem {s : Session} {r : Reading} {e : Event} (h : e ∈ r.changes s) :
    ∃ record ∈ r.records, (e.path, e.kind) ∈ s.brought r.disk record := by
  obtain ⟨c, hc, rfl⟩ := List.mem_map.mp h
  exact Session.mem_changes hc

/-! ## One batch -/

namespace Session

open Worker (coalesced recent)

/-- What holds of the batch of some readings. -/
structure Inside (s : Session) (readings : List Reading) (batch : List Event) : Prop where
  within : ∀ e ∈ batch, s.Within e.path
  rooted : ∀ e ∈ batch, ¬ s.Uproots (e.path, e.kind)
  /-- Some change was about the path of the event. -/
  sourced : ∀ e ∈ batch, ∃ r ∈ readings, ∃ c ∈ r.changes s, c.path = e.path ∧ c.time = e.time
  /-- Below the root each change of the path was one that its record told of and the filter kept. -/
  kept : ∀ e ∈ batch, ¬ e.path.Same s.root → ∀ r ∈ readings, ∀ c ∈ r.changes s, c.path.Same e.path →
    ∃ record ∈ r.records, record.rescan = false ∧ (c.path, c.kind) ∈ record.changes r.disk ∧
      s.Keeps r.disk c.path
  single : batch.Pairwise fun e f => ¬ e.path.Same f.path

variable {s : Session}

theorem inside_coalesced (readings : List Reading) : s.Inside readings (coalesced s readings) := by
  have each : ∀ c ∈ readings.flatMap (Reading.changes s),
      ∃ r ∈ readings, c ∈ r.changes s := by
    intro c hc
    exact List.mem_flatMap.mp hc
  have sourced : ∀ e ∈ coalesced s readings,
      ∃ r ∈ readings, ∃ c ∈ r.changes s, c.path = e.path ∧ c.time = e.time := by
    intro e he
    obtain ⟨c, hc, path, time⟩ := Coalescer.source_of_mem_batchOf he
    obtain ⟨r, hr, hc⟩ := each c hc
    exact ⟨r, hr, c, hc, path, time⟩
  refine ⟨?_, ?_, sourced, ?_, Coalescer.batchOf_single _⟩
  · intro e he
    obtain ⟨r, _, c, hc, path, _⟩ := sourced e he
    obtain ⟨record, _, brings⟩ := Reading.brought_of_mem hc
    rw [← path]
    exact (within_of_brought brings).1
  · -- No change of the root takes it away, and changes that do not never do as one.
    rintro e he ⟨same, away⟩
    obtain ⟨l, hl, rfl⟩ := Coalescer.mem_batchOf he
    have stays : l.kind.takesAway = false := by
      apply Life.kind_of_after? (fun a b merged ha hb hm => ChangeKind.merge_takesAway hm ha hb) _ hl
      intro c hc mine
      obtain ⟨r, _, hc⟩ := each c hc
      obtain ⟨record, _, brings⟩ := Reading.brought_of_mem hc
      have rooted : ¬ s.Uproots (c.path, c.kind) := (within_of_brought brings).2
      rw [← Bool.not_eq_true]
      intro takes
      exact rooted ⟨mine.trans same, takes⟩
    exact absurd (stays.symm.trans away) (by simp)
  · intro e _ below r _ c hc same
    obtain ⟨record, there, brings⟩ := Reading.brought_of_mem hc
    have apart : ¬ c.path.Same s.root := fun root => below (same.symm.trans root)
    exact ⟨record, there, kept_of_brought brings apart⟩

/-! ## What a read answers -/

/-- What a read that ended well took in are the changes that its records bring, and it counted
these. -/
structure Counted (s : Session) (reading : Reading) (n : Nat) : Prop where
  changes : reading.changes s =
    (reading.records.flatMap (s.brought reading.disk)).map (eventAt reading.observed)
  count : n = (reading.records.flatMap (s.brought reading.disk)).length

theorem counted_of_accounted {s₀ : Session} {arrived : List Native.Message}
    {deeds : List Worker.Deed} (h : Worker.Accounted s₀ s arrived deeds) {disk : Disk}
    {now observed : Moment} {n : Nat} (well : (s.ingest disk now observed).1 = .ok n) :
    s₀.Counted (s.reading disk observed) n := by
  have told : (s₀.changes disk (s.reading disk observed).records).2 = none := by
    rw [← changes_congr h.setup]
    exact (whole_of_ingest_ok disk now observed h.unabsorbed well).1.2
  have changes : (s.reading disk observed).changes s₀ =
      ((s.reading disk observed).records.flatMap (s₀.brought disk)).map (eventAt observed) :=
    congrArg (List.map (eventAt observed)) (changes_of_told told)
  have count := recorded_of_ingest_ok disk now observed h.unabsorbed well
  refine ⟨changes, ?_⟩
  rw [count, Reading.changes, changes_congr h.setup, ← Reading.changes, changes, List.length_map]
  rfl

theorem counted_run {s₀ : Session} {arrived : List Native.Message} {deeds : List Worker.Deed}
    (h : Worker.Accounted s₀ s arrived deeds) (course : List Happening) {began : Moment}
    {reading : Reading} {n : Nat} (entered : .read ⟨began, reading, .ok n⟩ ∈ s.ledger course) :
    s₀.Counted reading n := by
  induction course generalizing s arrived deeds with
  | nil => cases entered
  | cons x rest ih =>
    rw [ledger_cons] at entered
    rcases List.mem_append.mp entered with now | later
    · cases x with
      | ingest disk start observed =>
        simp only [entries, List.mem_singleton, Entry.read.injEq, Read.mk.injEq] at now
        obtain ⟨_, rfl, well⟩ := now
        exact counted_of_accounted h well.symm
      | takeDue | takeBatch | sent | severed | closed => simp [entries] at now
    · obtain ⟨_, next⟩ := accounted_after h x
      exact ih next later

/-! ## Along a course -/

theorem batch_of_accounted {s₀ : Session} {arrived : List Native.Message} {deeds : List Worker.Deed}
    (h : Worker.Accounted s₀ s arrived deeds) {course : List Happening} {before after : List Entry}
    {batch : List Event} (cut : s.ledger course = before ++ .taken batch :: after) :
    batch = coalesced s₀ (recent (deeds ++ before.map Entry.deed)) := by
  induction course generalizing s arrived deeds before with
  | nil => simp [ledger, noted] at cut
  | cons x rest ih =>
    obtain ⟨_, next⟩ := accounted_after h x
    rw [ledger_cons] at cut
    rcases List.append_eq_append_iff.mp cut with ⟨between, rfl, later⟩ | ⟨tail, now, eq⟩
    · rw [List.map_append, ← List.append_assoc]
      exact ih next later
    · cases tail with
      | nil =>
        rw [List.append_nil] at now
        rw [← now, ← List.append_nil ((s.entries x).map Entry.deed), ← List.append_assoc,
          ← List.map_nil (f := Entry.deed)]
        exact ih next eq.symm
      | cons first more =>
        obtain rfl : .taken batch = first := (List.cons.inj eq).1
        have there : .taken batch ∈ s.entries x := by simp [now]
        obtain ⟨whole, only⟩ := taken_mem_entries there
        obtain rfl : before = [] := by
          rw [only] at now
          cases before with
          | nil => rfl
          | cons => simp at now
        rw [whole, h.events, List.map_nil, List.append_nil]

/-- **Inside the watch.** Whatever happens to a session, each batch that it gives out is that of the
readings since the one before, and lies inside the watch; a read that ends well answers the number
of changes that its records bring. -/
theorem inside_watch (fresh : s.Fresh) (course : List Happening) :
    (∀ before batch after, s.ledger course = before ++ .taken batch :: after →
      let readings := recent (before.map Entry.deed)
      batch = coalesced s readings ∧ s.Inside readings batch) ∧
    ∀ began reading n, .read ⟨began, reading, .ok n⟩ ∈ s.ledger course → s.Counted reading n := by
  have start := Worker.accounted_start fresh
  constructor
  · intro before batch after cut readings
    have made : batch = coalesced s readings := batch_of_accounted start cut
    refine ⟨made, ?_⟩
    rw [made]
    exact inside_coalesced readings
  · intro began reading n entered
    exact counted_run start course entered

/-- Of what comes to a session that watches one directory and ignores `*.swp`, a file in the directory
and the loss of records make events; the same file further down, an ignored one and the removal of
the directory do not. -/
theorem inside_watch_filtered :
    let disk : Disk := ⟨.ok, fun _ => true, fun _ => true, fun _ => .ok []⟩
    let root : Path := ⟨[0x2F, 0x72]⟩
    let file : Path := ⟨[0x2F, 0x72, 0x2F, 0x61]⟩
    let deeper : Path := ⟨[0x2F, 0x72, 0x2F, 0x64, 0x2F, 0x61]⟩
    let ignored : Path := ⟨[0x2F, 0x72, 0x2F, 0x2E, 0x73, 0x77, 0x70]⟩
    let filter : Ignore.Filter := ⟨root, [⟨false, false, .extended [0x2E, 0x73, 0x77, 0x70]⟩]⟩
    let s : Session := ⟨root, false, .zero, some filter, .make root 0 true, .empty, none, []⟩
    let heard : List Happening :=
      [.sent (.record ⟨.create, [file, deeper, ignored], false⟩),
        .sent (.record ⟨.remove, [root], false⟩), .sent (.record ⟨.access, [], true⟩)]
    let course := heard ++ [.ingest disk .origin .origin]
    let batch : List Event := [⟨file, .created, .origin⟩, ⟨root, .modified, .origin⟩]
    s.Fresh ∧ s.ledger (course ++ [.takeBatch]) = s.ledger course ++ [.taken batch] ∧
    s.Inside (recent ((s.ledger course).map Entry.deed)) batch ∧
    s.Counted ((s.run heard).reading disk .origin) 2 := by
  intro disk root file deeper ignored filter s heard course batch
  have fresh : s.Fresh := ⟨rfl, rfl, rfl⟩
  have taken : (s.run course).takeBatch.1 = batch := by decide +kernel
  have well : ((s.run heard).ingest disk .origin .origin).1 = .ok 2 := by rfl
  have given : s.ledger (course ++ [.takeBatch]) = s.ledger course ++ [.taken batch] := by
    rw [ledger_append, ← taken]
    rfl
  have read : .read ⟨.origin, (s.run heard).reading disk .origin, .ok 2⟩ ∈
      s.ledger (course ++ [.takeBatch]) := by
    rw [given, ledger_append, ← well]
    simp [ledger, noted, entries]
  obtain ⟨inside, counted⟩ := inside_watch fresh (course ++ [.takeBatch])
  exact ⟨fresh, given, (inside _ _ _ given).2, counted _ _ _ read⟩

end Session

end DirectoryWatch
