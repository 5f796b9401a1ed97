import DirectoryWatch.CommandLine
import DirectoryWatch.Proofs.Config.Language
import DirectoryWatch.Proofs.Service.Errors

/-!
# Flags on top of a file

The flags are put on the configuration of the file, or on the default where no file is named. A value
that is given wins, a switch is on if either turns it on, and patterns are added behind those of the
file. A file that loads is valid, so once it is loaded only a pattern of the flags can be refused.
-/

namespace DirectoryWatch

/-! ## Valid configurations -/

namespace Config

variable {c : Config}

theorem valid_default : Config.default.validate = .ok () := rfl

theorem valid_of_ofText {text : String} (h : ofText text = .ok c) : c.validate = .ok () := by
  cases read : Toml.read? text with
  | none => simp [ofText, read] at h
  | some members => exact ((ofText_eq_ok_iff read).mp h).2

theorem valid_of_load {disk : Disk} {path : Path} (h : load disk path = .ok c) : c.validate = .ok () := by
  unfold load at h
  split at h
  · cases h
  · split at h
    · cases h
    · exact valid_of_ofText h

theorem validate_blank {before after : List String} {p : String} (cut : c.ignore = before ++ p :: after)
    (clear : ∀ q ∈ before, Text.isBlank q = false) (blank : Text.isBlank p = true) :
    c.validate = .error (.invalidConfiguration (.blankPattern p)) := by
  have first : c.ignore.find? Text.isBlank = some p := by
    rw [cut, List.find?_eq_some_iff_append]
    exact ⟨blank, before, after, rfl, fun q mem => by simp [clear q mem]⟩
  simp [validate, first]

end Config

theorem Service.start_of_valid {State : Type} {backend : Native.Backend State} {disk : Disk}
    {state : State} {s : Service} {e : WatchError} (valid : s.config.validate = .ok ())
    (h : (s.start backend disk state).1 = .error e) : e = .alreadyStarted ∨ Session.Unwatched e := by
  unfold start at h
  rw [valid] at h
  split at h
  · cases h
    exact .inl rfl
  · dsimp only at h
    split at h
    · rename_i ill
      cases h
      exact .inr (Service.unwatched_of_attachAll (by rw [ill]))
    · cases h

namespace CommandLine

variable {line : CommandLine} {disk : Disk} {base config : Config}

/-! ## The base -/

/-- What the flags are put on. -/
inductive Base (line : CommandLine) (disk : Disk) : Config → Prop where
  | unnamed : line.config = none → Base line disk .default
  | loaded {path : Path} {c : Config} :
    line.config = some path → Config.load disk path = .ok c → Base line disk c

theorem base_eq_ok_iff : line.base disk = .ok base ↔ Base line disk base := by
  unfold CommandLine.base
  constructor
  · intro h
    split at h
    · rename_i unnamed
      cases h
      exact .unnamed unnamed
    · rename_i path named
      cases read : Config.load disk path with
      | error e => simp [read, Except.mapError] at h
      | ok c =>
        simp only [read, Except.mapError, Except.ok.injEq] at h
        exact .loaded named (h ▸ read)
  · rintro (unnamed | ⟨named, loads⟩)
    · rw [unnamed]
    · rw [named]
      simp only [loads, Except.mapError]

theorem exists_base_iff :
    (∃ base, Base line disk base) ↔
      ∀ path, line.config = some path → ∃ c, Config.load disk path = .ok c := by
  constructor
  · rintro ⟨_, unnamed | ⟨named, loads⟩⟩ path h
    · simp [unnamed] at h
    · obtain rfl := Option.some.inj (named.symm.trans h)
      exact ⟨_, loads⟩
  · intro loads
    cases file : line.config with
    | none => exact ⟨_, .unnamed file⟩
    | some path =>
      obtain ⟨c, read⟩ := loads path file
      exact ⟨c, .loaded file read⟩

theorem Base.valid (h : Base line disk base) : base.validate = .ok () := by
  cases h with
  | unnamed => exact Config.valid_default
  | loaded _ loads => exact Config.valid_of_load loads

/-! ## The flags -/

theorem validate_applyTo_iff (h : Base line disk base) :
    (line.applyTo base).validate = .ok () ↔ ∀ p ∈ line.ignore, Text.isBlank p = false := by
  have clear := (Config.validate_eq_ok_iff base).mp h.valid
  rw [Config.validate_eq_ok_iff, applyTo, List.forall_mem_append]
  exact and_iff_right clear

theorem watchConfig_of_base (h : Base line disk base) :
    line.watchConfig disk =
      ((line.applyTo base).validate.mapError Failure.configuring).map fun _ => line.applyTo base := by
  rw [watchConfig, base_eq_ok_iff.mpr h]
  cases valid : (line.applyTo base).validate <;> simp [bind, Except.bind, pure, Except.pure, valid,
    Except.mapError, Except.map]

theorem watchConfig_eq_ok_iff :
    line.watchConfig disk = .ok config ↔
      ∃ base, Base line disk base ∧ config = line.applyTo base ∧ config.validate = .ok () := by
  constructor
  · intro h
    cases found : line.base disk with
    | error f => simp [watchConfig, found, bind, Except.bind] at h
    | ok base =>
      have there := base_eq_ok_iff.mp found
      rw [watchConfig_of_base there] at h
      cases valid : (line.applyTo base).validate with
      | error e => simp [valid, Except.mapError, Except.map] at h
      | ok =>
        simp only [valid, Except.mapError, Except.map, Except.ok.injEq] at h
        subst h
        exact ⟨base, there, rfl, valid⟩
  · rintro ⟨base, there, rfl, valid⟩
    simp [watchConfig_of_base there, valid, Except.mapError, Except.map]

/-- Which configuration comes of a command line and a file, or why none does. -/
structure Merged (line : CommandLine) (disk : Disk) : Prop where
  accepted : (∃ config, line.watchConfig disk = .ok config) ↔
    (∀ path, line.config = some path → ∃ c, Config.load disk path = .ok c) ∧
      ∀ p ∈ line.ignore, Text.isBlank p = false
  based {config : Config} : line.watchConfig disk = .ok config → ∃ base, Base line disk base
  latency {base config : Config} : Base line disk base → line.watchConfig disk = .ok config →
    (∀ ms, line.latencyMs = some ms → config.latency.nanoseconds = ms.toNat * nanosPerMilli) ∧
      (line.latencyMs = none → config.latency = base.latency)
  recursive {base config : Config} : Base line disk base → line.watchConfig disk = .ok config →
    (config.recursive = true ↔ line.recursive = true ∨ base.recursive = true)
  ignore {base config : Config} : Base line disk base → line.watchConfig disk = .ok config →
    config.ignore = base.ignore ++ line.ignore
  valid {config : Config} : line.watchConfig disk = .ok config → config.validate = .ok ()
  starts {State : Type} {backend : Native.Backend State} {now : Disk} {state : State} {s : Service}
    {e : WatchError} : line.watchConfig disk = .ok s.config →
      (s.start backend now state).1 = .error e → e = .alreadyStarted ∨ Session.Unwatched e
  /-- A file that does not load is the first thing told. -/
  unloaded {path : Path} {e : WatchError} : line.config = some path → Config.load disk path = .error e →
    line.watchConfig disk = .error (.loading path e)
  blank {base : Config} {before after : List String} {p : String} : Base line disk base →
    line.ignore = before ++ p :: after → (∀ q ∈ before, Text.isBlank q = false) →
      Text.isBlank p = true →
        line.watchConfig disk = .error (.configuring (.invalidConfiguration (.blankPattern p)))

/-- **Flags on top of a file.** -/
theorem merged (line : CommandLine) (disk : Disk) : Merged line disk := by
  have applied {base config : Config} (there : Base line disk base)
      (h : line.watchConfig disk = .ok config) : config = line.applyTo base := by
    obtain ⟨other, found, rfl, _⟩ := watchConfig_eq_ok_iff.mp h
    rw [← base_eq_ok_iff] at found there
    rw [Except.ok.inj (found.symm.trans there)]
  constructor
  case accepted =>
    rw [← exists_base_iff]
    constructor
    · rintro ⟨config, h⟩
      obtain ⟨base, there, rfl, valid⟩ := watchConfig_eq_ok_iff.mp h
      exact ⟨⟨base, there⟩, (validate_applyTo_iff there).mp valid⟩
    · rintro ⟨⟨base, there⟩, clear⟩
      exact ⟨_, watchConfig_eq_ok_iff.mpr ⟨base, there, rfl, (validate_applyTo_iff there).mpr clear⟩⟩
  case based =>
    intro config h
    obtain ⟨base, there, _⟩ := watchConfig_eq_ok_iff.mp h
    exact ⟨base, there⟩
  case latency =>
    intro base config there h
    obtain rfl := applied there h
    constructor
    · intro ms given
      simp [applyTo, given, Duration.nanoseconds_ofMillis]
    · intro missing
      simp [applyTo, missing]
  case recursive =>
    intro base config there h
    simp [applied there h, applyTo]
  case ignore =>
    intro base config there h
    rw [applied there h, applyTo]
  case valid =>
    intro config h
    obtain ⟨_, _, _, valid⟩ := watchConfig_eq_ok_iff.mp h
    exact valid
  case starts =>
    intro State backend now state s e h failed
    obtain ⟨_, _, _, valid⟩ := watchConfig_eq_ok_iff.mp h
    exact Service.start_of_valid valid failed
  case unloaded =>
    intro path e named fails
    simp [watchConfig, CommandLine.base, named, fails, Except.mapError, bind, Except.bind]
  case blank =>
    intro base before after p there cut clear blank
    have well := (Config.validate_eq_ok_iff base).mp there.valid
    have told := @Config.validate_blank (line.applyTo base) (base.ignore ++ before) after p
      (by simp [applyTo, cut]) (List.forall_mem_append.mpr ⟨well, clear⟩) blank
    simp [watchConfig_of_base there, told, Except.mapError, Except.map]

-- The latency of the flag wins, the pattern of the flag comes behind that of the file.
example :
    let file := Text.Utf8.encode "latency_ms = 500\nignore = [\"*.swp\"]\n"
    let disk : Disk := ⟨.ok, fun _ => true, fun _ => true, fun _ => .ok file⟩
    let line : CommandLine :=
      { blank with latencyMs := some 20, recursive := true, ignore := ["target/"], config := some ⟨[0x61]⟩ }
    (line.watchConfig disk).toOption = some ⟨.ofMillis 20, true, ["*.swp", "target/"]⟩ := by
  decide +kernel

end CommandLine

end DirectoryWatch
