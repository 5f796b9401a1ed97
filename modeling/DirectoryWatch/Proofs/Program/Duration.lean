import DirectoryWatch.Program.Scene
import DirectoryWatch.Proofs.Clock.Sum
import DirectoryWatch.Proofs.Program.Printing
import DirectoryWatch.Proofs.Text.Decimal
import DirectoryWatch.Proofs.Text.Utf8

/-!
# The time of a run

Any number of seconds that a word holds can be asked for. The run is over from the moment on that lies
exactly so many seconds after its start, and never if none were asked for. Where the clock does not
reach that far the program panics, and this is the only panic of its own: its service was started by
then.
-/

namespace DirectoryWatch

/-! ## Durations on the command line -/

namespace CommandLine

open Text (decimal)

theorem numberValue_decimal (n : UInt64) :
    numberValue (Text.Utf8.encode (decimal n.toNat)) = .ok n := by
  have text : Text.Utf8.decode? (Text.Utf8.encode (decimal n.toNat)) = some (decimal n.toNat) :=
    (Text.Utf8.decode?_eq_some_iff _ _).mpr rfl
  have small : n.toNat ≤ Text.maxWord := Nat.le_pred_of_lt n.toNat_lt
  have word : n.toNat.toUInt64 = n := UInt64.ofNat_toNat
  simp [numberValue, textValue, text, Text.word?_decimal small, bind, Except.bind, pure, Except.pure, word]

theorem Reading.argument_plain {r : Reading} {arg : Argument} (options : r.onlyPaths = false)
    (head : arg.head? ≠ some hyphen) : r.argument arg = r.plain arg := by
  unfold argument
  rw [if_neg (by simp [options])]
  split
  · exact if_pos fun same => head (by rw [same, List.head?_cons])
  · rfl

theorem head?_decimal (n : Nat) : (Text.Utf8.encode (decimal n)).head? ≠ some Reading.hyphen := by
  obtain ⟨c, rest, digits, digit, _⟩ := Text.decimal_eq_cons n
  have bounds : 48 ≤ c.toNat ∧ c.toNat ≤ 57 := by
    rw [Char.isDigit, Bool.and_eq_true, decide_eq_true_eq, decide_eq_true_eq] at digit
    exact digit
  have one : String.utf8EncodeChar c = [UInt8.ofNat c.toNat] := by
    rw [← Text.Utf8.encode_one (by omega), Char.ofNat_toNat]
  simp only [Text.Utf8.encode, digits, List.flatMap_cons, one, List.cons_append, List.head?_cons]
  intro same
  have code := congrArg UInt8.toNat (Option.some.inj same)
  rw [UInt8.toNat_ofNat'] at code
  have hyphen : Reading.hyphen.toNat = 45 := rfl
  omega

/-- A number of seconds, and one directory to watch. -/
def durationArguments (n : UInt64) (root : Argument) : List Argument :=
  ["--duration", decimal n.toNat].map Text.Utf8.encode ++ [root]

theorem parse_duration (n : UInt64) (root : Argument) :
    parse (durationArguments n (Path.slash :: root)) =
      .ok { blank with paths := [⟨Path.slash :: root⟩], duration := some n } := by
  have first : Reading.start.argument (Text.Utf8.encode "--duration") =
      .ok { Reading.start with pending := .valued .duration none } := by decide +kernel
  have number : Reading.argument { Reading.start with pending := .valued .duration none }
      (Text.Utf8.encode (decimal n.toNat)) = .ok
      { Reading.start with pending := .valued .duration (some (Text.Utf8.encode (decimal n.toNat))) } :=
    Reading.argument_plain rfl (head?_decimal n.toNat)
  have path : Reading.argument
      { Reading.start with pending := .valued .duration (some (Text.Utf8.encode (decimal n.toNat))) }
      (Path.slash :: root) =
      .ok ⟨{ blank with duration := some n }, .paths [Path.slash :: root], false⟩ := by
    rw [Reading.argument_plain rfl (by simp [Path.slash, Reading.hyphen])]
    simp [Reading.plain, Reading.path, Reading.settle, Reading.start, setValued, once, blank,
      numberValue_decimal, bind, Except.bind, pure, Except.pure, Except.map]
  simp only [parse, durationArguments, List.map_cons, List.map_nil, List.cons_append, List.nil_append,
    List.foldlM_cons, List.foldlM_nil, first, number, path, bind, Except.bind, pure, Except.pure]
  simp [Reading.finish, Reading.settle, addPaths, pathValue, blank, Except.map, bind, Except.bind, pure,
    Except.pure]

end CommandLine

/-! ## Along a run -/

namespace Run

/-- Where on the clock, in nanoseconds, the time of a run is up. -/
def upAt? (line : CommandLine) (now : Moment) : Option Int :=
  line.duration.map fun seconds => now.nanoseconds + seconds.toNat * nanosPerSecond

variable {line : CommandLine} {now : Moment} {r : Run}

theorem start_eq_error_iff (p : Panic) :
    start line now = .error p ↔
      p = .momentOverflow ∧ ∃ up ∈ upAt? line now, Moment.last.nanoseconds < up := by
  unfold start upAt?
  cases line.duration with
  | none => simp
  | some seconds =>
    have length := Duration.nanoseconds_ofSeconds seconds
    simp only [Option.map_some, Option.mem_def, Option.some.injEq, exists_eq_left']
    cases sum : now.add? (.ofSeconds seconds) with
    | none =>
      have past := Moment.last_lt_of_add? sum
      rw [length, Int.natCast_mul] at past
      simp only [Except.error.injEq, past, and_true]
      exact eq_comm
    | some d =>
      have exact := Moment.nanoseconds_of_add? sum
      have within := (Moment.le_iff d .last).mp (Moment.le_last d)
      rw [length, Int.natCast_mul] at exact
      simp only [reduceCtorEq, false_iff, not_and, Int.not_lt]
      intro _
      omega

theorem isOver_iff_of_start (begun : start line now = .ok r) (t : Moment) :
    r.isOver t = true ↔ ∃ up ∈ upAt? line now, up ≤ t.nanoseconds := by
  unfold start at begun
  unfold upAt?
  cases limit : line.duration with
  | none =>
    rw [limit] at begun
    cases begun
    simp [isOver]
  | some seconds =>
    rw [limit] at begun
    have length := Duration.nanoseconds_ofSeconds seconds
    simp only at begun
    split at begun
    · cases begun
    · rename_i d sum
      cases begun
      have exact := Moment.nanoseconds_of_add? sum
      rw [length, Int.natCast_mul] at exact
      simp [isOver, Moment.le_iff, exact]

end Run

namespace Watching

open Native (Backend)

theorem deadline_act {State : Type} {backend : Backend State} (w : Watching State) (a : Act State) :
    (w.act backend a).run.deadline = w.run.deadline := by
  cases a with
  | step now =>
    unfold act Run.step
    cases w.run.phase with
    | checking | timing | polling | stopping | emptying | done => rfl
    | joining =>
      dsimp only
      split <;> rfl
  | meanwhile a => rw [run_meanwhile]
  | breakOff text =>
    obtain same | ⟨_, _, same⟩ := @act_breakOff _ backend w text <;> rw [same]
    rfl

theorem deadline_goOn {State : Type} {backend : Backend State} (w : Watching State)
    (acts : List (Act State)) : (w.goOn backend acts).run.deadline = w.run.deadline := by
  induction acts using List.reverseRecOn with
  | nil => rfl
  | append_singleton acts a ih => rw [goOn_snoc, deadline_act, ih]

end Watching

/-! ## The program -/

namespace Program

open Service (Scene)
open Native (Watches)

theorem exitCode_of_goOn {r : Run} {o : Outcome} (given : r.outcome? = some o) : o.exitCode ≠ 101 := by
  obtain ⟨ending, _, rfl⟩ := (Watching.outcome_eq_some_iff r o).mp given
  cases ending <;> simp [Watching.concluded, Outcome.shown, Outcome.failed]

theorem exitCode_of_answered {disk : Disk} {args : List CommandLine.Argument} {o : Outcome}
    (given : Invocation.ofArguments disk args = .answered o) : o.exitCode ≠ 101 := by
  unfold Invocation.ofArguments at given
  split at given
  · cases given
    simp [Outcome.shown]
  · cases given
    simp [Outcome.shown]
  · cases given
    simp [Outcome.misused]
  · split at given
    · cases given
      simp [Outcome.failed]
    · cases given

/-- The service has started, and the time of the run is up after the clock has ended. -/
def Overruns (tree : FileTree) (now : Moment) (args : List CommandLine.Argument) : Prop :=
  ∃ line config, Invocation.ofArguments tree.disk args = .watching line config ∧
    (Scene.set tree (.make line.paths config) now).start.1 = .ok () ∧
    ∃ up ∈ Run.upAt? line now, Moment.last.nanoseconds < up

theorem panicked_iff (tree : FileTree) (now : Moment) (args : List CommandLine.Argument)
    (changes : List FileTree.Action) (o : Outcome) :
    outcome? tree now args changes = some o ∧ o.exitCode = 101 ↔
      o = .panicked .momentOverflow ∧ Overruns tree now args := by
  unfold outcome? Overruns
  cases invocation : Invocation.ofArguments tree.disk args with
  | answered answer =>
    simp only [Option.some.injEq, reduceCtorEq, false_and, exists_false, and_false, iff_false, not_and]
    rintro rfl
    exact exitCode_of_answered invocation
  | watching line config =>
    dsimp only
    have overruns : (∃ line' config', Invocation.watching line config = .watching line' config' ∧
          (Scene.set tree (.make line'.paths config') now).start.1 = .ok () ∧
          ∃ up ∈ Run.upAt? line' now, Moment.last.nanoseconds < up) ↔
        (Scene.set tree (.make line.paths config) now).start.1 = .ok () ∧
          Run.start line now = .error .momentOverflow := by
      simp [Run.start_eq_error_iff, and_assoc]
    rw [overruns]
    cases (Scene.set tree (.make line.paths config) now).start with
    | mk ending s =>
      cases ending with
      | error e =>
        simp only [Option.some.injEq, reduceCtorEq, false_and, and_false, iff_false, not_and]
        rintro rfl
        simp [Outcome.failed]
      | ok done =>
        cases begun : Run.start line now with
        | error p =>
          obtain ⟨rfl, _⟩ := (Run.start_eq_error_iff p).mp begun
          simp only [Option.some.injEq, and_self, and_true]
          constructor
          · rintro ⟨rfl, _⟩
            rfl
          · rintro rfl
            exact ⟨rfl, rfl⟩
        | ok r =>
          simp only [reduceCtorEq, and_false, iff_false, not_and]
          exact exitCode_of_goOn

/-- **The time of a run.** The program panics exactly if its service has started and the time is up
after the clock has ended. Otherwise there is a run, and at each point of it the time is up from the
exact moment on. Every number that a word holds can come from the command line. -/
theorem panics_past_clock (tree : FileTree) (now : Moment) (args : List CommandLine.Argument)
    (changes : List FileTree.Action) :
    (∀ o, outcome? tree now args changes = some o ∧ o.exitCode = 101 ↔
      o = .panicked .momentOverflow ∧ Overruns tree now args) ∧
    (∀ line config, Invocation.ofArguments tree.disk args = .watching line config →
      (Scene.set tree (.make line.paths config) now).start.1 = .ok () → ¬ Overruns tree now args →
      ∃ r, Run.start line now = .ok r ∧
        ∀ (State : Type) (backend : Native.Backend State) (w : Watching State)
          (acts : List (Watching.Act State)),
          w.run = r → ∀ t, (w.goOn backend acts).run.isOver t = true ↔
            ∃ up ∈ Run.upAt? line now, up ≤ t.nanoseconds) ∧
    ∀ n root, CommandLine.parse (CommandLine.durationArguments n (Path.slash :: root)) =
      .ok { CommandLine.blank with paths := [⟨Path.slash :: root⟩], duration := some n } := by
  refine ⟨panicked_iff tree now args changes, ?_, CommandLine.parse_duration⟩
  intro line config watching started within
  cases begun : Run.start line now with
  | error p =>
    obtain ⟨_, past⟩ := (Run.start_eq_error_iff p).mp begun
    exact absurd ⟨line, config, watching, started, past⟩ within
  | ok r =>
    refine ⟨r, rfl, fun State backend w acts same t => ?_⟩
    have deadline : (w.goOn backend acts).run.deadline = r.deadline := by
      rw [Watching.deadline_goOn, same]
    rw [← Run.isOver_iff_of_start begun t, Run.isOver, Run.isOver, deadline]

theorem panics_past_clock_at_end :
    let root : Path := ⟨[Path.slash, 0x77]⟩
    let tree := FileTree.empty.apply (.makeDir root)
    let args (n : UInt64) := CommandLine.durationArguments n root.bytes
    outcome? tree .origin (args 9223372036854775808) [] = some (.panicked .momentOverflow) ∧
    (∃ r, Run.start { CommandLine.blank with paths := [root], duration := some 9223372036854775807 } .origin =
        .ok r ∧ r.isOver .last = true ∧
        r.isOver ⟨Int64.maxValue - 1, ⟨nanosPerSecond - 1, by decide⟩⟩ = false) := by
  intro root tree args
  let line (n : UInt64) : CommandLine := { CommandLine.blank with paths := [root], duration := some n }
  have watching (n : UInt64) : Invocation.ofArguments tree.disk (args n) = .watching (line n) .default := by
    rw [Invocation.ofArguments, (panics_past_clock tree .origin [] []).2.2]
    rfl
  have started : (Scene.set tree (.make [root] .default) .origin).start.1 = .ok () := by rfl
  refine ⟨?_, ?_⟩
  · refine (((panics_past_clock tree .origin (args 9223372036854775808) []).1 _).mpr ⟨rfl, ?_⟩).1
    exact ⟨line 9223372036854775808, .default, watching _, started, _, rfl, by decide⟩
  · have up : Run.upAt? (line 9223372036854775807) .origin = some 9223372036854775807000000000 := by
      decide
    have within : ¬ Overruns tree .origin (args 9223372036854775807) := by
      rintro ⟨other, config, same, _, late, at_late, past⟩
      rw [watching] at same
      cases same
      rw [up] at at_late
      cases at_late
      exact absurd past (by decide)
    obtain ⟨r, begun, isOver⟩ := (panics_past_clock tree .origin (args 9223372036854775807) []).2.1
      (line 9223372036854775807) .default (watching _) started within
    have times := isOver _ Watches.backend ⟨r, .make [root] .default, .empty, [], []⟩ [] rfl
    rw [up] at times
    refine ⟨r, begun, (times .last).mpr ⟨_, rfl, by decide⟩, Bool.eq_false_iff.mpr fun early => ?_⟩
    obtain ⟨_, same, passed⟩ := (times _).mp early
    cases same
    exact absurd passed (by decide)

/-- With the greatest number of seconds that can be asked for the program panics, and without it the
program goes on to tell that its directory is gone. -/
theorem longest_duration_panics :
    let root : Path := ⟨[Path.slash, 0x77]⟩
    let tree := FileTree.empty.apply (.makeDir root)
    let outcome (args : List CommandLine.Argument) := outcome? tree .origin args [.removeTree root]
    outcome (CommandLine.durationArguments 18446744073709551615 root.bytes) =
      some (.panicked .momentOverflow) ∧
    outcome [root.bytes] = some (.failed [] (.watching (.rootRemoved root))) := by decide +kernel

end Program

end DirectoryWatch
