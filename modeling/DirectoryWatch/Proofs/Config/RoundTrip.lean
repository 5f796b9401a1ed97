import DirectoryWatch.Config.File
import DirectoryWatch.Proofs.Toml.Assignments

/-!
# Configurations on disk

A configuration that is written is read back, with its latency rounded up to whole milliseconds.
Only a latency past the greatest integer is not written, and only a blank pattern is not read.
-/

namespace DirectoryWatch

/-! ## Whole milliseconds -/

namespace Duration

theorem nanoseconds_inj {d e : Duration} (h : d.nanoseconds = e.nanoseconds) : d = e := by
  obtain ⟨s, n, hn⟩ := d
  obtain ⟨t, m, hm⟩ := e
  simp only [nanoseconds, nanosPerSecond] at h hn hm
  obtain rfl : s = t := UInt64.toNat_inj.mp (by omega)
  obtain rfl : n = m := by omega
  rfl

theorem nanoseconds_ofMillis (ms : UInt64) : (ofMillis ms).nanoseconds = ms.toNat * nanosPerMilli := by
  have seconds : (ms / 1000).toNat = ms.toNat / 1000 := UInt64.toNat_div ms 1000
  simp only [nanoseconds, ofMillis, seconds, nanosPerSecond, nanosPerMilli]
  omega

theorem millisCeil_ofMillis (ms : UInt64) : (ofMillis ms).millisCeil = ms.toNat := by
  rw [millisCeil, nanoseconds_ofMillis]
  unfold nanosPerMilli
  omega

theorem millisCeil_le_iff (d : Duration) (ms : Nat) :
    d.millisCeil ≤ ms ↔ d.nanoseconds ≤ ms * nanosPerMilli := by
  unfold millisCeil nanosPerMilli
  omega

/-- The least number of whole milliseconds that is no shorter. -/
structure RoundsUp (d e : Duration) : Prop where
  whole : ∃ ms, e.nanoseconds = ms * nanosPerMilli
  longer : d.nanoseconds ≤ e.nanoseconds
  near : e.nanoseconds < d.nanoseconds + nanosPerMilli
  zero : e = zero ↔ d = zero
  same : e = d ↔ nanosPerMilli ∣ d.nanoseconds

theorem roundsUp_ofMillis {d : Duration} {ms : UInt64} (h : ms.toNat = d.millisCeil) :
    RoundsUp d (ofMillis ms) := by
  have length : (ofMillis ms).nanoseconds = d.millisCeil * nanosPerMilli := by
    rw [nanoseconds_ofMillis, h]
  have none : zero.nanoseconds = 0 := by simp [zero, ofSeconds, nanoseconds]
  have longer : d.nanoseconds ≤ d.millisCeil * nanosPerMilli :=
    (millisCeil_le_iff d _).mp (Nat.le_refl _)
  have near : d.millisCeil * nanosPerMilli < d.nanoseconds + nanosPerMilli := by
    unfold millisCeil nanosPerMilli
    omega
  refine ⟨⟨_, length⟩, ?_, ?_, ⟨?_, ?_⟩, ⟨?_, ?_⟩⟩
  · rw [length]
    exact longer
  · rw [length]
    exact near
  · intro empty
    rw [empty, none] at length
    exact nanoseconds_inj (by omega)
  · rintro rfl
    apply nanoseconds_inj
    rw [length, millisCeil, none]
    simp [nanosPerMilli]
  · intro same
    refine ⟨d.millisCeil, ?_⟩
    rw [Nat.mul_comm, ← length, same]
  · rintro ⟨k, whole⟩
    apply nanoseconds_inj
    rw [length]
    unfold nanosPerMilli at *
    omega

end Duration

namespace Config

/-! ## The text of a configuration -/

variable {c : Config}

theorem isInteger_latencyMillis_iff (c : Config) :
    Toml.isInteger c.latencyMillis = true ↔ (c.latency.millisCeil : Int) ≤ Toml.greatestInteger := by
  have least : Toml.leastInteger = -9223372036854775808 := by decide
  have greatest : Toml.greatestInteger = 9223372036854775807 := by decide
  have word : Text.maxWord = 18446744073709551615 := by decide
  rw [Toml.isInteger_iff, latencyMillis]
  omega

theorem latencyMillis_eq (h : Toml.isInteger c.latencyMillis = true) :
    c.latencyMillis = c.latency.millisCeil ∧ c.latencyMillis.toUInt64.toNat = c.latency.millisCeil := by
  have small := (isInteger_latencyMillis_iff c).mp h
  have greatest : Toml.greatestInteger = 9223372036854775807 := by decide
  have word : Text.maxWord = 18446744073709551615 := by decide
  have whole : c.latencyMillis = c.latency.millisCeil := by
    unfold latencyMillis
    omega
  refine ⟨whole, ?_⟩
  rw [UInt64.toNat_ofNat_of_lt' (by unfold UInt64.size; omega), whole]

def lines (c : Config) (h : Toml.isInteger c.latencyMillis = true) : List Toml.Assignment :=
  [⟨latencyKey, _, _, ⟨by decide, List.all_eq_true.mp (by decide)⟩, .integer h⟩,
    ⟨recursiveKey, _, _, ⟨by decide, List.all_eq_true.mp (by decide)⟩, .boolean c.recursive⟩,
    ⟨ignoreKey, _, _, ⟨by decide, List.all_eq_true.mp (by decide)⟩, .texts (c.ignore.map String.toList)⟩]

theorem line_toList (key text : String) :
    Toml.line key text.toList = (key ++ " = " ++ text ++ "\n").toList := by
  simp [Toml.line]

theorem writeItems_toList (texts : List String) :
    '[' :: Toml.writeItems (texts.map String.toList)
      = (Text.bracketed (texts.map Toml.writeString)).toList := by
  simp [Text.bracketed, Toml.writeItems, Toml.writeString, Function.comp_def]

theorem toToml?_eq (h : Toml.isInteger c.latencyMillis = true) :
    c.toToml? = some (String.ofList ((c.lines h).flatMap Toml.Assignment.text)) := by
  simp only [lines, List.flatMap_cons, List.flatMap_nil, Toml.Assignment.text, line_toList,
    writeItems_toList, List.append_nil, ← String.toList_append, String.ofList_toList]
  rw [toToml?, if_pos h]
  simp only [String.append_assoc]

/-! ## Reading it back -/

theorem mapM_text? (texts : List String) :
    (texts.map Toml.string).mapM Toml.text? = some texts := by
  induction texts with
  | nil => rfl
  | cons text texts ih => rw [List.map_cons, List.mapM_cons, Toml.text?, ih]; rfl

def withLatency (c : Config) (latency : Duration) : Config := { c with latency }

/-- The configuration with a latency of whole milliseconds. -/
def onDisk (c : Config) : Config := c.withLatency (.ofMillis c.latencyMillis.toUInt64)

@[simp] theorem latency_withLatency (c : Config) (d : Duration) : (c.withLatency d).latency = d := rfl

@[simp] theorem recursive_withLatency (c : Config) (d : Duration) :
    (c.withLatency d).recursive = c.recursive := rfl

@[simp] theorem ignore_withLatency (c : Config) (d : Duration) : (c.withLatency d).ignore = c.ignore := rfl

theorem validate_onDisk (c : Config) : c.onDisk.validate = c.validate := by
  simp only [validate, onDisk, ignore_withLatency]

theorem ofTable?_lines (h : Toml.isInteger c.latencyMillis = true) :
    ofTable? ((c.lines h).map Toml.Assignment.member) = some c.onDisk := by
  have texts := mapM_text? c.ignore
  simp [ofTable?, lines, Toml.Assignment.member, fileKeys, field?, List.lookup_cons, latencyKey,
    recursiveKey, ignoreKey, Toml.natural?, Toml.bool?, Toml.texts?, onDisk, withLatency,
    Function.comp_def, texts]

theorem toToml?_isInteger {text : String} (h : c.toToml? = some text) :
    Toml.isInteger c.latencyMillis = true := by
  unfold toToml? at h
  split at h
  · assumption
  · cases h

theorem ofText_toToml? {text : String} (h : c.toToml? = some text) :
    ofText text = c.validate.map fun _ => c.onDisk := by
  have fits := toToml?_isInteger h
  have distinct : ((c.lines fits).map Toml.Assignment.key).Nodup := by
    simp [lines, latencyKey, recursiveKey, ignoreKey]
  rw [toToml?_eq fits] at h
  obtain rfl := Option.some.inj h
  rw [ofText, Toml.read?_assignments distinct]
  simp only [ofTable?_lines, validate_onDisk]

theorem toToml?_congr {c d : Config} (latency : c.latencyMillis = d.latencyMillis)
    (recursive : c.recursive = d.recursive) (ignore : c.ignore = d.ignore) : c.toToml? = d.toToml? := by
  simp only [toToml?, latency, recursive, ignore]

theorem toToml?_onDisk {text : String} (h : c.toToml? = some text) : c.onDisk.toToml? = some text := by
  obtain ⟨whole, word⟩ := latencyMillis_eq (toToml?_isInteger h)
  have same : c.onDisk.latencyMillis = c.latencyMillis := by
    rw [onDisk, latencyMillis, latency_withLatency, Duration.millisCeil_ofMillis, word, latencyMillis]
  rw [← h]
  exact toToml?_congr same (recursive_withLatency c _) (ignore_withLatency c _)

theorem toToml?_eq_none_iff (c : Config) : c.toToml? = none ↔ Toml.isInteger c.latencyMillis = false := by
  unfold toToml?
  split <;> simp_all

/-- What becomes of a configuration that is written as text and read again. -/
structure RoundTrip (c : Config) : Prop where
  /-- The milliseconds that are written count a part of one as one. -/
  rounded (ms : Nat) : c.latency.millisCeil ≤ ms ↔ c.latency.nanoseconds ≤ ms * nanosPerMilli
  refused : c.toToml? = none ↔ Toml.greatestInteger < c.latency.millisCeil
  blank {text : String} (written : c.toToml? = some text)
    (invalid : ∃ pattern ∈ c.ignore, Text.isBlank pattern = true) :
    ∃ pattern, c.ignore.find? Text.isBlank = some pattern ∧
      ofText text = .error (.invalidConfiguration (.blankPattern pattern))
  read {text : String} (written : c.toToml? = some text)
    (valid : ∀ pattern ∈ c.ignore, Text.isBlank pattern = false) :
    ∃ latency, ofText text = .ok ⟨latency, c.recursive, c.ignore⟩ ∧ c.latency.RoundsUp latency
  /-- What was read is written as the same text, and so it stays as it is from there on. -/
  settled {text : String} (written : c.toToml? = some text) {d : Config} (read : ofText text = .ok d) :
    d.toToml? = some text

/-- **Written and read back, settings come back as they were, the latency rounded up to a
millisecond.** What cannot be written is a latency past the format's integers, what is not read back
is a blank pattern. -/
theorem round_trip (c : Config) : RoundTrip c where
  rounded := Duration.millisCeil_le_iff c.latency
  refused := by
    rw [toToml?_eq_none_iff, ← Bool.not_eq_true, isInteger_latencyMillis_iff, Int.not_le]
  blank := by
    intro text written ⟨blank, mem, isBlank⟩
    cases first : c.ignore.find? Text.isBlank with
    | none => exact absurd isBlank (List.find?_eq_none.mp first blank mem)
    | some pattern =>
      refine ⟨pattern, rfl, ?_⟩
      rw [ofText_toToml? written, validate, first]
      rfl
  read := by
    intro text written valid
    refine ⟨_, ?_, Duration.roundsUp_ofMillis (latencyMillis_eq (toToml?_isInteger written)).2⟩
    rw [ofText_toToml? written, (validate_eq_ok_iff c).mpr valid]
    simp only [Except.map, onDisk, withLatency]
  settled := by
    intro text written d read
    rw [ofText_toToml? written] at read
    cases valid : c.validate with
    | error e => simp [valid, Except.map] at read
    | ok =>
      obtain rfl : c.onDisk = d := by simpa [valid, Except.map] using read
      exact toToml?_onDisk written

/-- One nanosecond, and a pattern that takes a string of more than one line. -/
example :
    (Config.mk ⟨0, ⟨1, by decide⟩⟩ true ["*.o", "'\"\n"]).toToml?.map (fun text => (ofText text).toOption)
    = some (some ⟨.ofMillis 1, true, ["*.o", "'\"\n"]⟩) := by decide +kernel

end Config

end DirectoryWatch
