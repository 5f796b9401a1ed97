import DirectoryWatch.Proofs.Config.RoundTrip
import DirectoryWatch.Proofs.Toml.Tables

/-!
# The language of configurations

A text is a configuration if it is a table of the three keys, each with a value of its type, and none of
the patterns is blank. A blank pattern is told only of a text that has no other fault.
-/

namespace DirectoryWatch

/-! ## Values of a type -/

namespace Toml

theorem natural?_eq_some_iff {v : Toml} {n : Nat} : v.natural? = some n ↔ v = .integer n := by
  unfold natural?
  split
  · rw [Option.some.injEq, Toml.integer.injEq]
    exact Int.ofNat_inj.symm
  · rename_i other
    simp only [reduceCtorEq, false_iff]
    exact fun same => other n same

theorem bool?_eq_some_iff {v : Toml} {b : Bool} : v.bool? = some b ↔ v = .boolean b := by
  cases v <;> simp [bool?]

theorem text?_eq_some_iff {v : Toml} {text : String} : v.text? = some text ↔ v = .string text := by
  cases v <;> simp [text?]

theorem mapM_text?_eq_some_iff {items : List Toml} {texts : List String} :
    items.mapM text? = some texts ↔ items = texts.map .string := by
  refine ⟨fun h => ?_, fun h => h ▸ Config.mapM_text? texts⟩
  induction items generalizing texts with
  | nil =>
    cases h
    rfl
  | cons v items ih =>
    simp only [List.mapM_cons, Option.pure_def, Option.bind_eq_bind, Option.bind_eq_some_iff,
      Option.some.injEq] at h
    obtain ⟨text, first, others, rest, rfl⟩ := h
    rw [List.map_cons, text?_eq_some_iff.mp first, ih rest]

theorem texts?_eq_some_iff {v : Toml} {texts : List String} :
    v.texts? = some texts ↔ v = .array (texts.map .string) := by
  cases v <;> simp [texts?, mapM_text?_eq_some_iff]

end Toml

namespace Config

/-! ## Keys -/

variable {members : List (String × Toml)} {c : Config}

theorem lookup_of_mem (nodup : (members.map Prod.fst).Nodup) {key : String} {v : Toml}
    (mem : (key, v) ∈ members) : members.lookup key = some v := by
  induction members with
  | nil => cases mem
  | cons m members ih =>
    rw [List.map_cons, List.nodup_cons] at nodup
    rcases List.mem_cons.mp mem with rfl | later
    · exact List.lookup_cons_self
    · have other : (key == m.1) = false := by
        rw [beq_eq_false_iff_ne]
        rintro rfl
        exact nodup.1 (List.mem_map.mpr ⟨_, later, rfl⟩)
      rw [List.lookup_cons, other]
      exact ih nodup.2 later

theorem lookup_of_notMem {key : String} (absent : key ∉ members.map Prod.fst) :
    members.lookup key = none := by
  rw [List.lookup_eq_none_iff]
  intro m mem
  rw [bne_iff_ne]
  rintro rfl
  exact absent (List.mem_map_of_mem mem)

theorem given_or_missing (members : List (String × Toml)) (key : String) :
    (∃ v, (key, v) ∈ members) ∨ key ∉ members.map Prod.fst := by
  by_cases there : key ∈ members.map Prod.fst
  · obtain ⟨m, mem, rfl⟩ := List.mem_map.mp there
    exact .inl ⟨m.2, mem⟩
  · exact .inr there

section Fields

variable {α : Type} {key : String} {missing : α} {read : Toml → Option α}

theorem field?_given (nodup : (members.map Prod.fst).Nodup) {v : Toml} (mem : (key, v) ∈ members) :
    field? members key missing read = read v := by
  rw [field?, lookup_of_mem nodup mem]

theorem field?_missing (absent : key ∉ members.map Prod.fst) :
    field? members key missing read = some missing := by
  rw [field?, lookup_of_notMem absent]

theorem field?_isSome_iff (nodup : (members.map Prod.fst).Nodup) :
    (∃ x, field? members key missing read = some x) ↔ ∀ v, (key, v) ∈ members → ∃ x, read v = some x := by
  constructor
  · rintro ⟨x, found⟩ v mem
    rw [field?_given nodup mem] at found
    exact ⟨x, found⟩
  · intro read
    rcases given_or_missing members key with ⟨v, mem⟩ | absent
    · rw [field?_given nodup mem]
      exact read v mem
    · exact ⟨missing, field?_missing absent⟩

end Fields

/-! ## Tables -/

/-- What a key of a configuration can be set to. -/
inductive Setting : String × Toml → Prop where
  | latency (ms : Nat) : Setting (latencyKey, .integer ms)
  | recursive (b : Bool) : Setting (recursiveKey, .boolean b)
  | ignore (patterns : List String) : Setting (ignoreKey, .array (patterns.map .string))

theorem setting_iff (m : String × Toml) :
    Setting m ↔ (m.1 = latencyKey ∧ ∃ ms : Nat, m.2 = .integer ms) ∨
      (m.1 = recursiveKey ∧ ∃ b, m.2 = .boolean b) ∨
      (m.1 = ignoreKey ∧ ∃ patterns : List String, m.2 = .array (patterns.map .string)) := by
  constructor
  · rintro (ms | b | patterns)
    · exact .inl ⟨rfl, ms, rfl⟩
    · exact .inr (.inl ⟨rfl, b, rfl⟩)
    · exact .inr (.inr ⟨rfl, patterns, rfl⟩)
  · obtain ⟨key, v⟩ := m
    rintro (⟨rfl, ms, rfl⟩ | ⟨rfl, b, rfl⟩ | ⟨rfl, patterns, rfl⟩)
    · exact .latency ms
    · exact .recursive b
    · exact .ignore patterns

theorem settings_iff (members : List (String × Toml)) :
    (∀ m ∈ members, Setting m) ↔ (∀ m ∈ members, m.1 ∈ fileKeys) ∧
      (∀ v, (latencyKey, v) ∈ members → ∃ ms : Nat, v = .integer ms) ∧
      (∀ v, (recursiveKey, v) ∈ members → ∃ b, v = .boolean b) ∧
      ∀ v, (ignoreKey, v) ∈ members → ∃ patterns : List String, v = .array (patterns.map .string) := by
  constructor
  · intro settings
    refine ⟨fun m mem => ?_, fun v mem => ?_, fun v mem => ?_, fun v mem => ?_⟩
    · cases settings m mem <;> simp [fileKeys]
    all_goals simpa [setting_iff, latencyKey, recursiveKey, ignoreKey] using settings _ mem
  · rintro ⟨known, latency, recursive, ignore⟩ ⟨key, v⟩ mem
    have known : key = latencyKey ∨ key = recursiveKey ∨ key = ignoreKey := by
      simpa [fileKeys] using known _ mem
    rcases known with rfl | rfl | rfl
    · exact (setting_iff _).mpr (.inl ⟨rfl, latency v mem⟩)
    · exact (setting_iff _).mpr (.inr (.inl ⟨rfl, recursive v mem⟩))
    · exact (setting_iff _).mpr (.inr (.inr ⟨rfl, ignore v mem⟩))

def latency? (members : List (String × Toml)) : Option Duration :=
  field? members latencyKey defaultLatency fun v => v.natural?.map fun ms => .ofMillis ms.toUInt64

theorem ofTable?_eq_some_iff :
    ofTable? members = some c ↔ (∀ m ∈ members, m.1 ∈ fileKeys) ∧ latency? members = some c.latency ∧
      field? members recursiveKey false Toml.bool? = some c.recursive ∧
      field? members ignoreKey [] Toml.texts? = some c.ignore := by
  unfold ofTable? latency?
  split
  · rename_i known
    have known : ∀ m ∈ members, m.1 ∈ fileKeys := by simpa using known
    obtain ⟨latency, recursive, ignore⟩ := c
    simp only [Option.bind_eq_bind, Option.bind_eq_some_iff, Option.some.injEq, Config.mk.injEq]
    constructor
    · rintro ⟨_, l, _, r, _, i, rfl, rfl, rfl⟩
      exact ⟨known, l, r, i⟩
    · rintro ⟨_, l, r, i⟩
      exact ⟨_, l, _, r, _, i, rfl, rfl, rfl⟩
  · rename_i unknown
    simp only [reduceCtorEq, false_iff]
    rintro ⟨known, _⟩
    exact unknown (by simpa using known)

theorem ofTable?_isSome_iff (nodup : (members.map Prod.fst).Nodup) :
    (∃ c, ofTable? members = some c) ↔ ∀ m ∈ members, Setting m := by
  have fields : (∃ c, ofTable? members = some c) ↔ (∀ m ∈ members, m.1 ∈ fileKeys) ∧
      (∃ d, latency? members = some d) ∧ (∃ b, field? members recursiveKey false Toml.bool? = some b) ∧
      ∃ texts, field? members ignoreKey [] Toml.texts? = some texts := by
    simp only [ofTable?_eq_some_iff]
    constructor
    · rintro ⟨c, known, latency, recursive, ignore⟩
      exact ⟨known, ⟨_, latency⟩, ⟨_, recursive⟩, ⟨_, ignore⟩⟩
    · rintro ⟨known, ⟨_, latency⟩, ⟨_, recursive⟩, ⟨_, ignore⟩⟩
      exact ⟨⟨_, _, _⟩, known, latency, recursive, ignore⟩
  have length (v : Toml) : (∃ d, (v.natural?.map fun ms => Duration.ofMillis ms.toUInt64) = some d) ↔
      ∃ ms : Nat, v = .integer ms := by
    simp only [← Toml.natural?_eq_some_iff, ← Option.isSome_iff_exists, Option.isSome_map]
  rw [fields, settings_iff, latency?, field?_isSome_iff nodup, field?_isSome_iff nodup,
    field?_isSome_iff nodup]
  simp only [length, Toml.bool?_eq_some_iff, Toml.texts?_eq_some_iff]

/-- The values that are set, and the default ones of the keys that are missing. -/
structure Values (members : List (String × Toml)) (c : Config) : Prop where
  latency (ms : Nat) : (latencyKey, .integer ms) ∈ members → c.latency.nanoseconds = ms * nanosPerMilli
  no_latency : latencyKey ∉ members.map Prod.fst → c.latency.nanoseconds = 100 * nanosPerMilli
  recursive (b : Bool) : (recursiveKey, .boolean b) ∈ members → c.recursive = b
  no_recursive : recursiveKey ∉ members.map Prod.fst → c.recursive = false
  ignore (patterns : List String) :
    (ignoreKey, .array (patterns.map .string)) ∈ members → c.ignore = patterns
  no_ignore : ignoreKey ∉ members.map Prod.fst → c.ignore = []

theorem values_of_ofTable? (nodup : (members.map Prod.fst).Nodup)
    (words : ∀ key n, (key, .integer n) ∈ members → Toml.isInteger n = true)
    (h : ofTable? members = some c) :
    Values members c := by
  obtain ⟨_, latency, recursive, ignore⟩ := ofTable?_eq_some_iff.mp h
  unfold latency? at latency
  constructor
  case latency =>
    intro ms mem
    have small : (ms : Int) ≤ Toml.greatestInteger := ((Toml.isInteger_iff _).mp (words _ _ mem)).2
    have greatest : Toml.greatestInteger = 9223372036854775807 := by decide
    rw [field?_given nodup mem, Toml.natural?_eq_some_iff.mpr rfl] at latency
    rw [← Option.some.inj latency, Duration.nanoseconds_ofMillis,
      UInt64.toNat_ofNat_of_lt' (by unfold UInt64.size; omega)]
  case no_latency =>
    intro absent
    rw [field?_missing absent] at latency
    rw [← Option.some.inj latency]
    exact Duration.nanoseconds_ofMillis 100
  case recursive =>
    intro b mem
    rw [field?_given nodup mem] at recursive
    exact (Option.some.inj recursive).symm
  case no_recursive =>
    intro absent
    rw [field?_missing absent] at recursive
    exact (Option.some.inj recursive).symm
  case ignore =>
    intro patterns mem
    rw [field?_given nodup mem, Toml.texts?_eq_some_iff.mpr rfl] at ignore
    exact (Option.some.inj ignore).symm
  case no_ignore =>
    intro absent
    rw [field?_missing absent] at ignore
    exact (Option.some.inj ignore).symm

/-! ## Texts -/

/-- The patterns that a table sets. -/
def Ignores (members : List (String × Toml)) (patterns : List String) : Prop :=
  (ignoreKey, .array (patterns.map .string)) ∈ members

theorem mem_ignore_iff (settings : ∀ m ∈ members, Setting m)
    (values : Values members c) (p : String) :
    p ∈ c.ignore ↔ ∃ patterns, Ignores members patterns ∧ p ∈ patterns := by
  constructor
  · intro mem
    rcases given_or_missing members ignoreKey with ⟨v, there⟩ | absent
    · obtain ⟨patterns, rfl⟩ := ((settings_iff members).mp settings).2.2.2 v there
      exact ⟨patterns, there, values.ignore patterns there ▸ mem⟩
    · rw [values.no_ignore absent] at mem
      cases mem
  · rintro ⟨patterns, there, mem⟩
    rwa [values.ignore patterns there]

/-- What a text is as a configuration, by the table that it writes. -/
structure Language (text : String) : Prop where
  unread : Toml.read? text = none → ∃ reason, ofText text = .error (.configParse reason)
  accepted {members : List (String × Toml)} : Toml.read? text = some members →
    ((∃ c, ofText text = .ok c) ↔ (∀ m ∈ members, Setting m) ∧
      ∀ patterns, Ignores members patterns → ∀ p ∈ patterns, Text.isBlank p = false)
  values {members : List (String × Toml)} {c : Config} :
    Toml.read? text = some members → ofText text = .ok c → Values members c
  valid {c : Config} : ofText text = .ok c → c.validate = .ok ()
  /-- The first blank pattern is named if there is no other fault. -/
  blank {members : List (String × Toml)} {before after : List String} {p : String} :
    Toml.read? text = some members → (∀ m ∈ members, Setting m) →
      Ignores members (before ++ p :: after) → (∀ q ∈ before, Text.isBlank q = false) →
      Text.isBlank p = true → ofText text = .error (.invalidConfiguration (.blankPattern p))
  refused {members : List (String × Toml)} : Toml.read? text = some members →
    ¬ (∀ m ∈ members, Setting m) → ∃ reason, ofText text = .error (.configParse reason)

theorem ofText_of_ofTable? {text : String} (read : Toml.read? text = some members)
    (table : ofTable? members = some c) : ofText text = c.validate.map fun _ => c := by
  simp only [ofText, read, table]

theorem refused_of_ofTable? {text : String} (read : Toml.read? text = some members)
    (none : ofTable? members = none) : ∃ reason, ofText text = .error (.configParse reason) := by
  simp only [ofText, read, none]
  exact ⟨_, rfl⟩

theorem ofText_eq_ok_iff {text : String} (read : Toml.read? text = some members) :
    ofText text = .ok c ↔ ofTable? members = some c ∧ c.validate = .ok () := by
  cases table : ofTable? members with
  | none =>
    obtain ⟨reason, refused⟩ := refused_of_ofTable? read table
    simp [refused]
  | some d =>
    rw [ofText_of_ofTable? read table]
    cases valid : d.validate with
    | error e =>
      simp only [Except.map, reduceCtorEq, Option.some.injEq, false_iff, not_and]
      rintro rfl
      simp [valid]
    | ok =>
      simp only [Except.map, Except.ok.injEq, Option.some.injEq]
      constructor
      · rintro rfl
        exact ⟨rfl, valid⟩
      · exact And.left

/-- **The language of configurations.** -/
theorem language (text : String) : Language text where
  unread := by
    intro none
    rw [ofText, none]
    exact ⟨_, rfl⟩
  accepted := by
    intro members read
    obtain ⟨nodup, words⟩ := Toml.sound_read? read
    have clear (c : Config) (settings : ∀ m ∈ members, Setting m) (table : ofTable? members = some c) :
        c.validate = .ok () ↔
          ∀ patterns, Ignores members patterns → ∀ p ∈ patterns, Text.isBlank p = false := by
      rw [validate_eq_ok_iff]
      simp only [mem_ignore_iff settings (values_of_ofTable? nodup words table)]
      constructor
      · intro all patterns there p mem
        exact all p ⟨patterns, there, mem⟩
      · rintro all p ⟨patterns, there, mem⟩
        exact all patterns there p mem
    simp only [ofText_eq_ok_iff read]
    constructor
    · rintro ⟨c, table, valid⟩
      have settings := (ofTable?_isSome_iff nodup).mp ⟨c, table⟩
      exact ⟨settings, (clear c settings table).mp valid⟩
    · rintro ⟨settings, all⟩
      obtain ⟨c, table⟩ := (ofTable?_isSome_iff nodup).mpr settings
      exact ⟨c, table, (clear c settings table).mpr all⟩
  values := by
    intro members c read accepted
    obtain ⟨nodup, words⟩ := Toml.sound_read? read
    exact values_of_ofTable? nodup words ((ofText_eq_ok_iff read).mp accepted).1
  valid := by
    intro c accepted
    cases read : Toml.read? text with
    | none => simp [ofText, read] at accepted
    | some members => exact ((ofText_eq_ok_iff read).mp accepted).2
  blank := by
    intro members before after p read settings given clear blank
    obtain ⟨nodup, words⟩ := Toml.sound_read? read
    obtain ⟨c, table⟩ := (ofTable?_isSome_iff nodup).mpr settings
    have patterns := (values_of_ofTable? nodup words table).ignore _ given
    have first : (before ++ p :: after).find? Text.isBlank = some p :=
      List.find?_eq_some_iff_append.mpr ⟨blank, before, after, rfl, fun q mem => by simp [clear q mem]⟩
    rw [ofText_of_ofTable? read table, validate, patterns, first]
    rfl
  refused := by
    intro members read unset
    obtain ⟨nodup, _⟩ := Toml.sound_read? read
    apply refused_of_ofTable? read
    rw [Option.eq_none_iff_forall_ne_some]
    exact fun c table => unset ((ofTable?_isSome_iff nodup).mp ⟨c, table⟩)

theorem language_of_blanks :
    ofText "latency_ms = 7\nrecursive = true\nignore = [\"*.o\", \" \", \"\"]\n" =
      .error (.invalidConfiguration (.blankPattern " ")) := by
  let c : Config := ⟨.ofMillis 7, true, ["*.o", " ", ""]⟩
  have fits : Toml.isInteger c.latencyMillis = true := by decide
  have written : c.toToml? =
      some "latency_ms = 7\nrecursive = true\nignore = [\"*.o\", \" \", \"\"]\n" := by decide +kernel
  have distinct : ((c.lines fits).map Toml.Assignment.key).Nodup := by
    simp [lines, latencyKey, recursiveKey, ignoreKey]
  have read := Toml.read?_assignments distinct
  rw [← Option.some.inj ((toToml?_eq fits).symm.trans written)]
  have members : (c.lines fits).map Toml.Assignment.member = [(latencyKey, .integer (7 : Nat)),
      (recursiveKey, .boolean true), (ignoreKey, .array (["*.o", " ", ""].map .string))] := by
    have millis : c.latencyMillis = 7 := by decide
    simp [lines, Toml.Assignment.member, millis, c]
  rw [members] at read
  have settings : ∀ m ∈ [(latencyKey, Toml.integer (7 : Nat)), (recursiveKey, .boolean true),
      (ignoreKey, .array (["*.o", " ", ""].map .string))], Setting m := by
    simp only [List.forall_mem_cons, List.not_mem_nil, false_imp_iff, implies_true, and_true]
    exact ⟨.latency 7, .recursive true, .ignore _⟩
  have given : Ignores [(latencyKey, .integer (7 : Nat)), (recursiveKey, .boolean true),
      (ignoreKey, .array (["*.o", " ", ""].map .string))] (["*.o"] ++ " " :: [""]) := by
    simp [Ignores]
  exact (language _).blank read settings given (by decide) (by decide)

end Config

end DirectoryWatch
