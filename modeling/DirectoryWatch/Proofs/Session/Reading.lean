import DirectoryWatch.Session

/-!
# Readings

A reading is what one `ingest` takes from its handle. The messages of a handle are either in a
reading or still pending, and a reading that ends well leaves none pending.
-/

namespace DirectoryWatch

open Native (Handle Message Record)

/-! ## Handles -/

namespace Native.Handle

theorem split_append (messages : List Message) :
    messages = (split messages).1.map .record ++ ((split messages).2.1.map Message.error).toList ++
      (split messages).2.2 := by
  induction messages with
  | nil => rfl
  | cons m rest ih =>
    cases m with
    | error e => rfl
    | record r =>
      simp only [split, List.map_cons, List.cons_append, List.cons.injEq, true_and]
      exact ih

theorem split_rest {messages : List Message} (h : (split messages).2.1 = none) :
    (split messages).2.2 = [] := by
  induction messages with
  | nil => rfl
  | cons m rest ih =>
    cases m with
    | error e => simp [split] at h
    | record r => exact ih h

theorem eq_nil_of_split {messages : List Message} (records : (split messages).1 = [])
    (error : (split messages).2.1 = none) : messages = [] := by
  rw [split_append messages, records, error, split_rest error]
  rfl

end Native.Handle

/-- What one read takes from a handle, with the disk and the moment at which it is absorbed. -/
structure Reading where
  disk : Disk
  observed : Moment
  records : List Record
  /-- The native error that ended it. -/
  error : Option Native.Error

namespace Reading

/-- What was taken from the handle, in order. -/
def messages (r : Reading) : List Message :=
  r.records.map .record ++ (r.error.map Message.error).toList

/-- The changes that a session takes in from a reading, up to the first that cannot be told. -/
def changes (s : Session) (r : Reading) : List Event :=
  (s.changes r.disk r.records).1.map (Session.eventAt r.observed)

/-- No error ended the reading, and the session could tell every change. -/
def Whole (s : Session) (r : Reading) : Prop :=
  r.error = none ∧ (s.changes r.disk r.records).2 = none

theorem Whole.messages {s : Session} {r : Reading} (h : r.Whole s) :
    r.messages = r.records.map .record := by
  simp [Reading.messages, h.1]

end Reading

namespace Session

/-- What a session keeps all its life. -/
def setup (s : Session) : Path × Bool × Duration × Option Ignore.Filter × Nat :=
  (s.root, s.recursive, s.latency, s.filter, s.handle.ticket)

theorem setup_deliver (s : Session) (m : Message) : (s.deliver m).setup = s.setup := by
  unfold deliver Handle.send
  split <;> rfl

theorem admits_congr {s t : Session} (h : s.setup = t.setup) : s.admits = t.admits := by
  simp only [setup, Prod.mk.injEq] at h
  obtain ⟨root, recursive, _, filter, _⟩ := h
  funext disk path kind
  unfold admits inScope losesRoot
  rw [root, recursive, filter]

theorem admitted_congr {s t : Session} (h : s.setup = t.setup) : s.admitted = t.admitted := by
  funext disk changes
  induction changes with
  | nil => rfl
  | cons change rest ih => simp only [admitted, admits_congr h, ih]

theorem recordChanges_congr {s t : Session} (h : s.setup = t.setup) :
    s.recordChanges = t.recordChanges := by
  have root : s.root = t.root := (Prod.mk.inj h).1
  funext disk r
  simp only [recordChanges, admitted_congr h, root]

theorem changes_congr {s t : Session} (h : s.setup = t.setup) : s.changes = t.changes := by
  funext disk records
  induction records with
  | nil => rfl
  | cons r rest ih => simp only [changes, recordChanges_congr h, ih]

/-- What the next read takes from the handle. -/
def reading (s : Session) (disk : Disk) (observed : Moment) : Reading :=
  ⟨disk, observed, (Handle.split s.handle.pending).1, (Handle.split s.handle.pending).2.1⟩

theorem messages_reading (s : Session) (disk : Disk) (observed : Moment) :
    s.handle.pending =
      (s.reading disk observed).messages ++ (Handle.split s.handle.pending).2.2 :=
  Handle.split_append s.handle.pending

/-! ## What a read does -/

variable {s : Session} (disk : Disk) (now observed : Moment)

theorem ingest_setup : (s.ingest disk now observed).2.setup = s.setup := by
  unfold ingest
  simp only [Handle.readPending]
  split <;> rfl

theorem ingest_unabsorbed : (s.ingest disk now observed).2.unabsorbed = [] := by
  unfold ingest
  simp only
  split <;> rfl

theorem ingest_pending :
    (s.ingest disk now observed).2.handle.pending = (Handle.split s.handle.pending).2.2 := by
  unfold ingest
  simp only [Handle.readPending]
  split <;> rfl

theorem ingest_batch (settled : s.unabsorbed = []) :
    (s.ingest disk now observed).2.batch =
      s.batch.recordAll ((s.reading disk observed).changes s) := by
  unfold ingest
  simp only [Handle.readPending, settled, List.nil_append]
  split <;> rfl

theorem whole_of_ingest_ok (settled : s.unabsorbed = []) {n : Nat}
    (h : (s.ingest disk now observed).1 = .ok n) :
    (s.reading disk observed).Whole s ∧ (s.ingest disk now observed).2.handle.pending = [] := by
  unfold ingest at h
  simp only [Handle.readPending, settled, List.nil_append] at h
  split at h
  · cases h
  · rename_i told
    have clean : (Handle.split s.handle.pending).2.1 = none := by
      cases he : (Handle.split s.handle.pending).2.1 with
      | none => rfl
      | some e => simp [he, outcome] at h
    exact ⟨⟨clean, told⟩, by rw [ingest_pending, Handle.split_rest clean]⟩

theorem recorded_of_ingest_ok (settled : s.unabsorbed = []) {n : Nat}
    (h : (s.ingest disk now observed).1 = .ok n) :
    n = ((s.reading disk observed).changes s).length := by
  unfold ingest at h
  simp only [Handle.readPending, settled, List.nil_append] at h
  split at h
  · cases h
  · unfold outcome at h
    split at h
    · cases h
    · cases h
    · split at h
      · simpa [Reading.changes, reading] using (Except.ok.inj h).symm
      · cases h

/-! ## Why a read fails -/

/-- The ways in which a read fails. A change that cannot be told comes before everything else, and what
ended the read before a root that is gone. -/
inductive Fails (s : Session) (disk : Disk) : Fault → Prop where
  | panic {p : Panic} (untold : (s.changes disk (Handle.split s.handle.pending).1).2 = some p) :
    Fails s disk (.panic p)
  | native {e : Native.Error} (told : (s.changes disk (Handle.split s.handle.pending).1).2 = none)
      (ended : (Handle.split s.handle.pending).2.1 = some e) :
    Fails s disk (.error (.native s.root e))
  | disconnected (nothing : s.handle.pending = []) (gone : s.handle.connected = false) :
    Fails s disk (.error (.handleInvalidated s.root))
  | rootRemoved (told : (s.changes disk (Handle.split s.handle.pending).1).2 = none)
      (unended : (Handle.split s.handle.pending).2.1 = none)
      (heard : s.handle.pending ≠ [] ∨ s.handle.connected = true)
      (absent : disk.isDir s.root = false) :
    Fails s disk (.error (.rootRemoved s.root))

/-- The records that the next read absorbs. -/
def absorbed (s : Session) : List Record := s.unabsorbed ++ s.handle.readPending.1

theorem ingest_answer (s : Session) (disk : Disk) (now observed : Moment) :
    (s.ingest disk now observed).1 =
      match (s.changes disk s.absorbed).2 with
      | some p => .error (.panic p)
      | none => s.outcome disk s.handle.readPending.2.1 (s.changes disk s.absorbed).1.length := by
  unfold ingest absorbed
  simp only [Handle.readPending]
  cases (s.changes disk (s.unabsorbed ++ (Handle.split s.handle.pending).1)).2 <;> rfl

theorem ingest_fst (settled : s.unabsorbed = []) :
    (s.ingest disk now observed).1 =
      match (s.changes disk (Handle.split s.handle.pending).1).2 with
      | some p => .error (.panic p)
      | none =>
        s.outcome disk s.handle.readPending.2.1
          (s.changes disk (Handle.split s.handle.pending).1).1.length := by
  have answer := s.ingest_answer disk now observed
  rw [absorbed, settled, List.nil_append] at answer
  exact answer

theorem told_of_ingest (settled : s.unabsorbed = [])
    (calm : ∀ p, (s.ingest disk now observed).1 ≠ .error (.panic p)) :
    (s.changes disk (Handle.split s.handle.pending).1).2 = none := by
  cases told : (s.changes disk (Handle.split s.handle.pending).1).2 with
  | none => rfl
  | some p =>
    have panics := ingest_fst disk now observed settled
    rw [told] at panics
    exact absurd panics (calm p)

theorem ingest_opened (settled : s.unabsorbed = [])
    (told : (s.changes disk (Handle.split s.handle.pending).1).2 = none) :
    (s.ingest disk now observed).2.opened =
      (s.opened <|> if (s.ingest disk now observed).2.batch.isUntouched then none else some now) := by
  unfold ingest
  simp only [Handle.readPending, settled, List.nil_append, told]

theorem ingest_window :
    (s.ingest disk now observed).2.latency = s.latency ∧
    ((s.ingest disk now observed).2.opened = s.opened ∨
      (s.ingest disk now observed).2.opened = some now) := by
  have either (opened : Option Moment) (untouched : Bool) :
      (opened <|> if untouched then none else some now) = opened ∨
        (opened <|> if untouched then none else some now) = some now := by
    cases opened <;> cases untouched <;> simp
  unfold ingest
  simp only [Handle.readPending]
  split
  · exact ⟨rfl, .inl rfl⟩
  · exact ⟨rfl, either _ _⟩

theorem ingest_eq_error_iff (settled : s.unabsorbed = []) (fault : Fault) :
    (s.ingest disk now observed).1 = .error fault ↔ s.Fails disk fault := by
  rw [ingest_fst disk now observed settled]
  constructor
  · intro h
    split at h
    · rename_i p untold
      cases h
      exact .panic untold
    · rename_i told
      unfold Handle.readPending outcome at h
      cases ended : (Handle.split s.handle.pending).2.1 with
      | some e =>
        simp only [ended, Except.error.injEq] at h
        rw [← h]
        exact .native told ended
      | none =>
        simp only [ended] at h
        by_cases lost : (Handle.split s.handle.pending).1 = [] ∧ s.handle.connected = false
        · simp only [List.isEmpty_iff, lost, and_self, if_true, Except.error.injEq] at h
          rw [← h]
          exact .disconnected (Handle.eq_nil_of_split lost.1 ended) lost.2
        · simp only [List.isEmpty_iff, if_neg lost] at h
          cases here : disk.isDir s.root with
          | true => simp [here] at h
          | false =>
            simp only [here, Bool.false_eq_true, if_false, Except.error.injEq] at h
            rw [← h]
            have heard : s.handle.pending ≠ [] ∨ s.handle.connected = true := by
              by_cases nothing : s.handle.pending = []
              · right
                cases there : s.handle.connected with
                | true => rfl
                | false => exact absurd ⟨by rw [nothing]; rfl, there⟩ lost
              · exact .inl nothing
            exact .rootRemoved told ended heard here
  · intro h
    cases h with
    | panic untold => rw [untold]
    | native told ended => simp only [told, Handle.readPending, ended, outcome]
    | disconnected nothing gone =>
      simp [nothing, gone, Handle.readPending, Handle.split, changes, outcome]
    | rootRemoved told unended heard absent =>
      have kept : ¬((Handle.split s.handle.pending).1 = [] ∧ s.handle.connected = false) := by
        rintro ⟨none, gone⟩
        rcases heard with some | there
        · exact some (Handle.eq_nil_of_split none unended)
        · simp [gone] at there
      simp only [told, Handle.readPending, unended, List.isEmpty_iff, if_neg kept, outcome, absent,
        Bool.false_eq_true, if_false]

/-! ## What taking a batch does -/

theorem takeBatch_fst (s : Session) : s.takeBatch.1 = s.batch.events := rfl

theorem takeDue_cases (s : Session) (now : Moment) :
    s.takeDue now = (none, s) ∨ s.takeDue now = (some s.takeBatch.1, s.takeBatch.2) := by
  unfold takeDue
  split
  · exact Or.inl rfl
  · split
    · exact Or.inr rfl
    · exact Or.inl rfl

theorem takeDue_of_not_due {now : Moment} (early : ∀ d, s.flushDeadline = some d → ¬ d ≤ now) :
    s.takeDue now = (none, s) := by
  unfold takeDue
  split
  · rfl
  · rename_i d hd
    rw [if_neg (early d hd)]

theorem takeDue_of_due {now d : Moment} (hd : s.flushDeadline = some d) (due : d ≤ now) :
    s.takeDue now = (some s.takeBatch.1, s.takeBatch.2) := by
  unfold takeDue
  simp only [hd, if_pos due]

end Session

end DirectoryWatch
