import DirectoryWatch.Proofs.Clock.Sum
import DirectoryWatch.Proofs.Event.RoundTrip
import DirectoryWatch.Report
import Mathlib.Data.List.Forall2

/-!
# Lines for programs

Whatever the paths and the times of some events, what is printed for programs is one line for each of
them. A string holds no control character once it is escaped, and no byte of a longer character is one,
so no path breaks a line; and each line is read as the kind, the path and the time of its event.
-/

namespace DirectoryWatch

/-! ## Bytes that are no character of their own -/

namespace Text.Utf8

theorem high_of_mem_trail {owed n : Nat} {b : UInt8} (h : b ∈ trail owed n) : 0x80 ≤ b.toNat := by
  induction owed with
  | zero => simp [trail] at h
  | succ owed ih =>
    rw [trail, List.mem_cons] at h
    rcases h with rfl | h
    · rw [UInt8.toNat_ofNat', Nat.mod_eq_of_lt (by omega)]
      omega
    · exact ih h

theorem mem_encodeChar {c : Char} {b : UInt8} (h : b ∈ String.utf8EncodeChar c) :
    b.toNat = c.toNat ∨ 0x80 ≤ b.toNat := by
  by_cases ascii : c.toNat < 0x80
  · have written := encode_one ascii
    rw [Char.ofNat_toNat] at written
    rw [written, List.mem_singleton] at h
    rw [h, UInt8.toNat_ofNat', Nat.mod_eq_of_lt (by omega)]
    exact .inl rfl
  · obtain ⟨first, u, led, past, fits⟩ := lead_of_code c (Nat.le_of_not_lt ascii)
    obtain ⟨sound, read⟩ := sound_of_lead led
    have written := sound.written _ fits
    rw [Char.ofNat_toNat, read] at written
    rw [written, List.singleton_append, List.mem_cons] at h
    rcases h with rfl | h
    · exact .inr (Nat.le_of_not_lt past)
    · exact .inr (high_of_mem_trail h)

end Text.Utf8

/-! ## Characters that are no control characters -/

namespace Json

def Plain (chars : List Char) : Prop := ∀ c ∈ chars, 0x20 ≤ c.toNat

theorem Plain.append {first second : List Char} (h : Plain first) (k : Plain second) :
    Plain (first ++ second) :=
  List.forall_mem_append.mpr ⟨h, k⟩

theorem Plain.cons {c : Char} {rest : List Char} (h : 0x20 ≤ c.toNat) (k : Plain rest) :
    Plain (c :: rest) :=
  List.forall_mem_cons.mpr ⟨h, k⟩

theorem plain_digitChar : ∀ n, n < 16 → 0x20 ≤ (Nat.digitChar n).toNat := by decide

theorem plain_escape (c : Char) : Plain (escape c) := by
  by_cases special : c ∈ letters.map Prod.fst
  · obtain ⟨letter, mem, written⟩ := escape_letter special
    have table : ∀ p ∈ letters, Plain ['\\', p.2] := by simp [letters, Plain]
    rw [written]
    exact table _ mem
  · rw [escape_other special]
    split
    · have first := plain_digitChar (c.toNat / 16) (by omega)
      have second := plain_digitChar (c.toNat % 16) (by omega)
      simp [Plain, first, second]
    · rename_i shown
      simpa [Plain] using shown

theorem plain_string (chars : List Char) : Plain (chars.flatMap escape) := by
  intro d mem
  obtain ⟨c, _, mem⟩ := List.mem_flatMap.mp mem
  exact plain_escape c d mem

theorem plain_writeString (text : String) : Plain (writeString text).toList := by
  have quote : Plain ['"'] := by simp [Plain]
  simpa [writeString] using (quote.append (plain_string text.toList)).append quote

theorem plain_writeNatural (n : Nat) : Plain (writeNatural n).toList := by
  intro c mem
  have digit := Text.isDigit_of_mem_decimal mem
  simp only [Char.isDigit, Bool.and_eq_true, decide_eq_true_eq] at digit
  exact Nat.le_trans (by decide) (UInt32.le_iff_toNat_le.mp digit.1)

theorem Member.plain_text {m : Member} (h : Plain m.chars) : Plain m.text := by
  have name : Plain ('"' :: m.name.toList.flatMap escape) := (plain_string _).cons (by decide)
  have between : Plain ['"', ':'] := by simp [Plain]
  simpa [text] using (name.append between).append h

theorem plain_writeMembers {ms : List Member} (h : ∀ m ∈ ms, Plain m.chars) : Plain (writeMembers ms) := by
  induction ms with
  | nil => simp [writeMembers, Plain]
  | cons m ms ih =>
    obtain ⟨first, others⟩ := List.forall_mem_cons.mp h
    cases ms with
    | nil =>
      rw [writeMembers_singleton]
      exact (Member.plain_text first).append (by simp [Plain])
    | cons n ms =>
      rw [writeMembers_cons_cons]
      exact (Member.plain_text first).append ((ih others).cons (by decide))

theorem Plain.le_of_mem_encode {text : String} (h : Plain text.toList) {b : UInt8}
    (mem : b ∈ Text.Utf8.encode text) : 0x20 ≤ b.toNat := by
  obtain ⟨c, there, mem⟩ := List.mem_flatMap.mp mem
  rcases Text.Utf8.mem_encodeChar mem with same | high
  · rw [same]
    exact h c there
  · omega

end Json

namespace Report

open Text.Utf8 (Bytes)

/-! ## Times -/

/-- A moment in whole milliseconds since the origin, as far as 64 bits hold them. -/
structure Stamped (m : Moment) (ms : Nat) : Prop where
  before : m.nanoseconds < 0 → ms = 0
  within : 0 ≤ m.nanoseconds → m.nanoseconds / nanosPerMilli ≤ Text.maxWord →
    (ms : Int) = m.nanoseconds / nanosPerMilli
  beyond : Text.maxWord < m.nanoseconds / nanosPerMilli → ms = Text.maxWord

theorem nanoseconds_sinceOrigin {m : Moment} {d : Duration} (h : m.sinceOrigin? = some d) :
    (d.nanoseconds : Int) = m.nanoseconds := by
  rw [Moment.nanoseconds_of_ofParts? (Moment.ofParts?_sinceOrigin h), Duration.nanoseconds,
    Int.natCast_add, Int.natCast_mul]

theorem timestamp_eq (m : Moment) :
    timestamp m = min (m.nanoseconds / nanosPerMilli).toNat Text.maxWord := by
  unfold timestamp
  cases since : m.sinceOrigin? with
  | none =>
    have early := (Moment.sinceOrigin?_eq_none_iff m).mp since
    have negative : m.nanoseconds / nanosPerMilli < 0 := by
      unfold nanosPerMilli
      omega
    rw [Int.toNat_of_nonpos (Int.le_of_lt negative), Nat.zero_min]
  | some d =>
    rw [← nanoseconds_sinceOrigin since, ← Int.natCast_ediv, Int.toNat_natCast]
    rfl

theorem stamped_timestamp (m : Moment) : Stamped m (timestamp m) := by
  rw [timestamp_eq]
  have signs : 0 ≤ m.nanoseconds ↔ 0 ≤ m.nanoseconds / nanosPerMilli := by
    unfold nanosPerMilli
    omega
  constructor <;> omega

theorem timestamp_mono {m n : Moment} (h : m ≤ n) : timestamp m ≤ timestamp n := by
  rw [timestamp_eq, timestamp_eq]
  have later : m.nanoseconds / nanosPerMilli ≤ n.nanoseconds / nanosPerMilli :=
    Int.ediv_le_ediv (by decide) ((Moment.le_iff m n).mp h)
  omega

/-! ## What a line says -/

def members (e : Event) : List Json.Member :=
  [⟨"kind", _, _, .string e.kind.name⟩, ⟨"path", _, _, .string e.path.display⟩,
    ⟨"timestamp_ms", _, _, .natural (timestamp e.time)⟩]

theorem jsonLine_toList (e : Event) : (jsonLine e).toList = '\x7b' :: Json.writeMembers (members e) := by
  rw [← Json.writeObject_toList]
  simp only [jsonLine, ChangeKind.tag_eq_name, members, List.map_cons, List.map_nil, String.ofList_toList]

theorem read?_jsonLine (e : Event) :
    Json.read? (jsonLine e) = some (.object ((members e).map Json.Member.member)) :=
  Json.read?_of_written (jsonLine_toList e ▸ Json.Written.object (members e))

theorem plain_jsonLine (e : Event) : Json.Plain (jsonLine e).toList := by
  have plain : ∀ m ∈ members e, Json.Plain m.chars := by
    simp only [members, List.forall_mem_cons]
    exact ⟨Json.plain_writeString _, Json.plain_writeString _, Json.plain_writeNatural _, by simp⟩
  rw [jsonLine_toList]
  exact (Json.plain_writeMembers plain).cons (by decide)

/-- The bytes of a line, and what they are read as. -/
structure Tells (e : Event) (line : Bytes) : Prop where
  unbroken {b : UInt8} : b ∈ line → b ≠ 0x0A ∧ b ≠ 0x0D
  text : ∃ text, Text.Utf8.decode? line = some text ∧
    Json.read? text = some (.object
      [(some "kind", .string (some e.kind.name)), (some "path", .string (some e.path.display)),
        (some "timestamp_ms", .number (some (timestamp e.time)))])
  stamped : Stamped e.time (timestamp e.time)

theorem tells_jsonLine (e : Event) : Tells e (Text.Utf8.encode (jsonLine e)) where
  unbroken mem := by
    have shown := (plain_jsonLine e).le_of_mem_encode mem
    constructor
    · rintro rfl
      simp at shown
    · rintro rfl
      simp at shown
  text := ⟨jsonLine e, (Text.Utf8.decode?_eq_some_iff _ _).mpr rfl, read?_jsonLine e⟩
  stamped := stamped_timestamp e.time

/-! ## Printing -/

/-- The writer takes whatever it is given, and loses nothing of it. -/
structure Accepts {σ ε : Type} (out : Writer (StateT σ (Except ε))) (contents : σ → Bytes) : Prop where
  write (bytes : Bytes) (s : σ) :
    ∃ s', (out.write bytes).run s = .ok ((), s') ∧ contents s' = contents s ++ bytes
  flush (s : σ) : ∃ s', out.flush.run s = .ok ((), s') ∧ contents s' = contents s

section

variable {σ ε : Type} {out : Writer (StateT σ (Except ε))} {contents : σ → Bytes}

theorem Accepts.writeLine (h : Accepts out contents) (text : String) (s : σ) :
    ∃ s', (out.writeLine text).run s = .ok ((), s') ∧
      contents s' = contents s ++ (Text.Utf8.encode text ++ [newline]) := by
  obtain ⟨mid, wrote, held⟩ := h.write (Text.Utf8.encode text) s
  obtain ⟨last, ended, kept⟩ := h.write [newline] mid
  refine ⟨last, ?_, by rw [kept, held, List.append_assoc]⟩
  rw [Writer.writeLine, StateT.run_bind, wrote]
  exact ended

theorem Accepts.forM_writeLine (h : Accepts out contents) (texts : List String) (s : σ) :
    ∃ s', (texts.forM out.writeLine).run s = .ok ((), s') ∧
      contents s' = contents s ++ texts.flatMap fun text => Text.Utf8.encode text ++ [newline] := by
  induction texts generalizing s with
  | nil => exact ⟨s, rfl, by simp⟩
  | cons text rest ih =>
    obtain ⟨mid, wrote, held⟩ := h.writeLine text s
    obtain ⟨last, done, kept⟩ := ih mid
    refine ⟨last, ?_, by rw [kept, held, List.flatMap_cons, List.append_assoc]⟩
    rw [List.forM, StateT.run_bind, wrote]
    exact done

theorem encode_written (format : Format) (events : List Event) :
    Text.Utf8.encode (written format events) =
      (lines format events).flatMap fun text => Text.Utf8.encode text ++ [newline] := by
  have ended (text : String) :
      Text.Utf8.encode (text ++ "\n") = Text.Utf8.encode text ++ [newline] := by
    simp only [Text.Utf8.encode, String.toList_append, List.flatMap_append]
    rfl
  unfold written
  induction lines format events with
  | nil => rfl
  | cons text rest ih =>
    rw [List.map_cons, String.join_cons, List.flatMap_cons, ← ih, ← ended]
    simp only [Text.Utf8.encode, String.toList_append, List.flatMap_append]

theorem Accepts.print (h : Accepts out contents) (format : Format) (events : List Event) (s : σ) :
    ∃ s', (print out format events).run s = .ok (events.length, s') ∧
      contents s' = contents s ++ Text.Utf8.encode (written format events) := by
  obtain ⟨mid, wrote, held⟩ := h.forM_writeLine (lines format events) s
  obtain ⟨last, flushed, kept⟩ := h.flush mid
  refine ⟨last, ?_, by rw [kept, held, encode_written]⟩
  rw [Report.print, Writer.writeLines, StateT.run_bind, StateT.run_bind, wrote]
  change (out.flush.run mid >>= _) = _
  rw [flushed]
  rfl

/-- **Lines for programs.** -/
theorem json_lines (accepts : Accepts out contents) (events : List Event) (s : σ) :
    ∃ s' lines, (print out .json events).run s = .ok (events.length, s') ∧
      contents s' = contents s ++ lines.flatMap (· ++ [newline]) ∧
      List.Forall₂ Tells events lines ∧
      ∀ e f : Event, e.time ≤ f.time → timestamp e.time ≤ timestamp f.time := by
  obtain ⟨s', done, wrote⟩ := accepts.print .json events s
  refine ⟨s', events.map fun e => Text.Utf8.encode (jsonLine e), done, ?_, ?_, ?_⟩
  · rw [wrote, encode_written, lines, List.flatMap_map, List.flatMap_map]
    rfl
  · rw [List.forall₂_map_right_iff, List.forall₂_same]
    exact fun e _ => tells_jsonLine e
  · exact fun e f => timestamp_mono

end

/-- Two paths with a newline, a quote and a stray byte, one time just before the origin and one past
what 64 bits of milliseconds hold. -/
theorem json_lines_odd :
    let out : Writer (StateT Bytes (Except Unit)) := ⟨fun bytes => modify (· ++ bytes), pure ()⟩
    let events : List Event :=
      [⟨⟨[0x2F, 0x0A, 0x22, 0xFF]⟩, .renamedNew, ⟨-1, ⟨999999999, by decide⟩⟩⟩,
        ⟨⟨[0x2F, 0x0D, 0x5C]⟩, .created, ⟨Int64.maxValue, ⟨0, by decide⟩⟩⟩]
    Accepts out id ∧ ∃ bytes lines, (print out .json events).run [] = .ok (2, bytes) ∧
      bytes = lines.flatMap (· ++ [newline]) ∧ List.Forall₂ Tells events lines := by
  intro out events
  have accepts : Accepts out id :=
    ⟨fun bytes s => ⟨s ++ bytes, rfl, rfl⟩, fun s => ⟨s, rfl, rfl⟩⟩
  obtain ⟨bytes, lines, done, wrote, told, _⟩ := json_lines accepts events []
  exact ⟨accepts, bytes, lines, done, wrote, told⟩

example : jsonLine ⟨⟨[0x2F, 0x0A, 0x22, 0xFF]⟩, .renamedNew, ⟨-1, ⟨999999999, by decide⟩⟩⟩ =
    "\x7b\"kind\":\"renamed-new\",\"path\":\"/\\n\\\"\uFFFD\",\"timestamp_ms\":0\x7d" := by
  decide +kernel

end Report

end DirectoryWatch
