import DirectoryWatch.Proofs.Ignore.Verdicts
import DirectoryWatch.Proofs.Session.RootLoss

/-!
# Reads that panic

A read panics where its filter does, and nowhere else: on a change in scope whose path lies below the
root without being spelt so.
-/

namespace DirectoryWatch.Session

open Native (Record)
open DirectoryWatch.Path (Canonical Terse)
open Ignore (Filter MakesRule Misspelt Below SpeltAlike)

/-- The change is asked of the filter, which has rules, and its path is misspelt. -/
structure Startles (s : Session) (patterns : List String) (change : Path × ChangeKind) : Prop where
  ruled : MakesRule patterns
  within : s.inScope change.1 = true
  misspelt : Misspelt s.root change.1

/-- Some record that tells of changes tells of one that startles. -/
def StartledBy (s : Session) (disk : Disk) (patterns : List String) (records : List Record) : Prop :=
  ∃ r ∈ records, r.rescan = false ∧ ∃ change ∈ r.changes disk, s.Startles patterns change

variable {s : Session} {patterns : List String} {f : Filter} {disk : Disk} {p : Panic}

theorem admits_eq_error_iff (built : Filter.build s.root patterns = .ok (some f))
    (filtered : s.filter = some f) (canonical : Canonical s.root) (change : Path × ChangeKind) :
    s.admits disk change.1 change.2 = .error p ↔
      p = .pathNotUnderRoot ∧ s.Startles patterns change := by
  have panics := Ignore.isIgnored_eq_error_iff built canonical disk change.1 p
  unfold admits
  rw [filtered]
  split
  · rename_i asked
    have within : s.inScope change.1 = true := (Bool.and_eq_true_iff.mp asked).1
    have passed : (f.isIgnored disk change.1).map not = .error p ↔
        f.isIgnored disk change.1 = .error p := by
      cases f.isIgnored disk change.1 <;> simp [Except.map]
    rw [passed, panics]
    apply and_congr_right
    intro _
    exact ⟨fun h => ⟨h.1, within, h.2⟩, fun h => ⟨h.ruled, h.misspelt⟩⟩
  · rename_i unasked
    constructor
    · intro untold
      cases untold
    · rintro ⟨-, startles⟩
      have apart : s.losesRoot change.1 change.2 = false := by
        simp [losesRoot, startles.misspelt.1.2]
      simp [startles.within, apart] at unasked

section Reads

variable (built : Filter.build s.root patterns = .ok (some f)) (filtered : s.filter = some f)
  (canonical : Canonical s.root)

include built filtered canonical

theorem admitted_untold_iff (changes : List (Path × ChangeKind)) :
    (s.admitted disk changes).2 = some p ↔
      p = .pathNotUnderRoot ∧ ∃ change ∈ changes, s.Startles patterns change := by
  induction changes with
  | nil => simp [admitted]
  | cons first rest ih =>
    have here : ∀ q, s.admits disk first.1 first.2 = .error q ↔
        q = .pathNotUnderRoot ∧ s.Startles patterns first :=
      fun q => admits_eq_error_iff built filtered canonical first
    unfold admitted
    cases told : s.admits disk first.1 first.2 with
    | error q =>
      obtain ⟨rfl, startles⟩ := (here q).mp told
      rw [List.exists_mem_cons_iff, and_iff_left (.inl startles)]
      exact Option.some_inj.trans eq_comm
    | ok taken =>
      have calm : ¬ s.Startles patterns first := by
        intro startles
        have untold := (here .pathNotUnderRoot).mpr ⟨rfl, startles⟩
        rw [told] at untold
        cases untold
      cases taken <;> simp [calm, ih]

theorem changes_untold_iff (records : List Record) :
    (s.changes disk records).2 = some p ↔
      p = .pathNotUnderRoot ∧ s.StartledBy disk patterns records := by
  unfold StartledBy
  induction records with
  | nil => simp [changes]
  | cons first rest ih =>
    have here : ∀ q, (s.recordChanges disk first).2 = some q ↔ q = .pathNotUnderRoot ∧
        first.rescan = false ∧ ∃ change ∈ first.changes disk, s.Startles patterns change := by
      intro q
      unfold recordChanges
      cases first.rescan with
      | true => simp
      | false => simp [admitted_untold_iff built filtered canonical]
    unfold changes
    rw [List.exists_mem_cons_iff]
    cases brought : s.recordChanges disk first with
    | mk found untold =>
      rw [brought] at here
      cases untold with
      | some q =>
        obtain ⟨rfl, startled⟩ := (here q).mp rfl
        rw [and_iff_left (.inl startled)]
        exact Option.some_inj.trans eq_comm
      | none =>
        have calm : ¬ (first.rescan = false ∧
            ∃ change ∈ first.changes disk, s.Startles patterns change) := by
          intro startled
          cases (here .pathNotUnderRoot).mpr ⟨rfl, startled⟩
        rw [or_iff_right calm]
        exact ih

theorem ingest_panics_iff (now observed : Moment) :
    (s.ingest disk now observed).1 = .error (.panic p) ↔
      p = .pathNotUnderRoot ∧ s.StartledBy disk patterns s.absorbed := by
  rw [← changes_untold_iff built filtered canonical, ingest_answer]
  cases (s.changes disk s.absorbed).2 with
  | some q => simp
  | none =>
    simp only [outcome, reduceCtorEq, iff_false]
    split
    · simp
    · simp
    · split <;> simp

end Reads

/-- **Verdicts by spelling.** The check panics on the misspelt paths and on no others, if there is a rule
at all, and so does a read that comes upon one. Two spellings of a path get the same answer if they do not
lie below the root or are spelt alike there; a terse path always gets a verdict, and it has no other
terse spelling. -/
theorem verdict_unless_misspelt {root : Path} (built : Filter.build root patterns = .ok (some f))
    (canonical : Canonical root) (disk : Disk) :
    (∀ path p, f.isIgnored disk path = .error p ↔
      p = .pathNotUnderRoot ∧ MakesRule patterns ∧ Misspelt root path) ∧
    (∀ path other, path.Same other → disk.isDir path = disk.isDir other →
      (Below root path → SpeltAlike root path other) →
      f.isIgnored disk path = f.isIgnored disk other) ∧
    (∀ path, Terse path → (∃ ignored, f.isIgnored disk path = .ok ignored) ∧
      ∀ other, Terse other → path.Same other → path = other) ∧
    ∀ s : Session, s.root = root → s.filter = some f → ∀ now observed p,
      (s.ingest disk now observed).1 = .error (.panic p) ↔
        p = .pathNotUnderRoot ∧ s.StartledBy disk patterns s.absorbed := by
  have panics := Ignore.isIgnored_eq_error_iff built canonical disk
  refine ⟨panics, ?_, ?_, ?_⟩
  · obtain ⟨rfl, _⟩ := Ignore.rules_of_build built
    intro path other
    exact Ignore.isIgnored_congr canonical.terse
  · intro path terse
    refine ⟨?_, fun other terse' same => terse.eq_of_same terse' same⟩
    cases answer : f.isIgnored disk path with
    | ok ignored => exact ⟨ignored, rfl⟩
    | error p =>
      obtain ⟨_, _, below, misspelt⟩ := (panics path p).mp answer
      obtain ⟨bytes, spelt⟩ := Ignore.speltBelow_of_terse canonical.terse terse below
      exact absurd spelt (misspelt bytes)
  · rintro s rfl filtered now observed p
    exact ingest_panics_iff built filtered canonical now observed

theorem verdict_unless_misspelt_terse :
    let root : Path := ⟨[0x2F, 0x77]⟩
    let file : Path := ⟨[0x2F, 0x77, 0x2F, 0x61]⟩
    let f : Filter := ⟨root, ["/a"].filterMap Ignore.ruleOf?⟩
    let disk : Disk := ⟨.ok, fun _ => false, fun _ => true, fun _ => .ok []⟩
    Filter.build root ["/a"] = .ok (some f) ∧ Canonical root ∧ Terse file ∧
    ¬ Misspelt root file ∧ ∃ ignored, f.isIgnored disk file = .ok ignored := by
  intro root file f disk
  have built : Filter.build root ["/a"] = .ok (some f) := by rfl
  have canonical : Canonical root := ⟨[[0x77]], by decide, rfl⟩
  have terse : Terse file := ⟨[[0x77], [0x61]], by decide, rfl⟩
  obtain ⟨-, -, verdict, -⟩ := verdict_unless_misspelt built canonical disk
  have spelt : ¬ Misspelt root file := fun h =>
    h.2 [0x61] ⟨by decide, .inr rfl⟩
  exact ⟨built, canonical, terse, spelt, (verdict file terse).1⟩

/-- A slash too many has the check panic, and the read with it; one at the end changes the verdict. -/
theorem verdict_of_spelling :
    let root : Path := ⟨[0x2F, 0x77]⟩
    let file : Path := ⟨[0x2F, 0x77, 0x2F, 0x61]⟩
    let ended : Path := ⟨[0x2F, 0x77, 0x2F, 0x61, 0x2F]⟩
    let doubled : Path := ⟨[0x2F, 0x77, 0x2F, 0x2F, 0x61]⟩
    let f : Filter := ⟨root, ["/a"].filterMap Ignore.ruleOf?⟩
    let disk : Disk := ⟨.ok, fun path => decide (path = root), fun _ => true, fun _ => .ok []⟩
    let record : Record := ⟨.create, [doubled], false⟩
    let s : Session := ⟨root, true, .zero, some f,
      (Native.Handle.make root 0 true).send (.record record), .empty, none, []⟩
    Filter.build root ["/a"] = .ok (some f) ∧ Canonical root ∧
    file.Same ended ∧ file.Same doubled ∧
    f.isIgnored disk file = .ok true ∧ f.isIgnored disk ended = .ok false ∧
    f.isIgnored disk doubled = .error .pathNotUnderRoot ∧
    (s.ingest disk .origin .origin).1 = .error (.panic .pathNotUnderRoot) := by
  intro root file ended doubled f disk record s
  have canonical : Canonical root := ⟨[[0x77]], by decide, rfl⟩
  exact ⟨rfl, canonical, by decide, by decide, by rfl, by rfl, by rfl, by rfl⟩

end DirectoryWatch.Session
