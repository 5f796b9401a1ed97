import DirectoryWatch.Event.Json
import DirectoryWatch.Proofs.Clock.Order
import DirectoryWatch.Proofs.Json.Written
import DirectoryWatch.Proofs.Text.Utf8

/-!
# Events as JSON and back

An event has a JSON form if its path is text and its time is not before the origin, and that form is
read as the event again. An event that was read from any text has one.
-/

namespace DirectoryWatch

open Text

/-! ## Paths that are text -/

namespace Path

theorem text?_eq_some_iff (p : Path) (text : String) : p.text? = some text ↔ p = ofString text := by
  rw [text?, Utf8.decode?_eq_some_iff, ofString, Path.mk.injEq]

theorem text?_of_encode {p : Path} {text : String} (h : p.bytes = Utf8.encode text) : p.text? = some text :=
  (Utf8.decode?_eq_some_iff p.bytes text).mpr h

theorem text?_eq_none_iff (p : Path) : p.text? = none ↔ ¬ ∃ text, p.bytes = Utf8.encode text := by
  rw [Option.eq_none_iff_forall_ne_some, not_exists]
  simp only [ne_eq, text?, Utf8.decode?_eq_some_iff]

end Path

/-! ## Times from the origin on -/

namespace Moment

theorem nanoseconds_nonneg_iff (m : Moment) : 0 ≤ m.nanoseconds ↔ 0 ≤ m.seconds.toInt := by
  have := m.nanos.isLt
  unfold nanoseconds nanosPerSecond at *
  omega

theorem sinceOrigin?_eq_none_iff (m : Moment) : m.sinceOrigin? = none ↔ m.nanoseconds < 0 := by
  rw [← Int.not_le, nanoseconds_nonneg_iff, sinceOrigin?]
  split <;> simp_all

theorem ofParts?_sinceOrigin {m : Moment} {elapsed : Duration} (h : m.sinceOrigin? = some elapsed) :
    ofParts? elapsed.seconds.toNat elapsed.nanos = some m := by
  unfold sinceOrigin? at h
  split at h
  · rename_i later
    obtain rfl := Option.some.inj h
    have bound : m.seconds.toInt ≤ Int64.maxValue.toInt := Int64.toInt_le m.seconds
    have greatest : Int64.maxValue.toInt = 9223372036854775807 := by decide
    have whole : m.seconds.toInt.toNat.toUInt64.toNat = m.seconds.toInt.toNat :=
      UInt64.toNat_ofNat_of_lt' (by unfold UInt64.size; omega)
    have same : ((m.seconds.toInt.toNat : Nat) : Int) = m.seconds.toInt := Int.toNat_of_nonneg later
    simp only [whole, same]
    exact ofParts?_self m
  · cases h

theorem nonneg_of_ofParts {s n : Nat} {m : Moment} (h : ofParts? s n = some m) : 0 ≤ m.nanoseconds := by
  simp only [ofParts?] at h
  generalize n / nanosPerSecond = carry at h
  split at h
  · rename_i bounds
    obtain rfl := Option.some.inj h
    have greatest : Int64.maxValue.toInt = 9223372036854775807 := by decide
    have least : Int64.minValue.toInt = -9223372036854775808 := by decide
    rw [nanoseconds_nonneg_iff, Int64.toInt_ofInt_of_le (by omega) (by omega)]
    omega
  · cases h

end Moment

namespace Event

/-! ## The members of the form -/

def stamp (elapsed : Duration) : List Json.Member :=
  [⟨secondsName, _, _, .natural elapsed.seconds.toNat⟩, ⟨nanosName, _, _, .natural elapsed.nanos⟩]

def members (path : String) (kind : ChangeKind) (elapsed : Duration) : List Json.Member :=
  [⟨"path", _, _, .string path⟩, ⟨"kind", _, _, .string kind.name⟩,
    ⟨"timestamp", _, _, .object (stamp elapsed)⟩]

theorem toJson_members {e : Event} {path : String} {elapsed : Duration} (text : e.path.text? = some path)
    (time : e.time.sinceOrigin? = some elapsed) :
    ∃ json, e.toJson = .ok json ∧
      json.toList = '\x7b' :: Json.writeMembers (members path e.kind elapsed) := by
  have inner : String.ofList ('\x7b' :: Json.writeMembers (stamp elapsed))
      = Json.writeObject [(secondsName, Json.writeNatural elapsed.seconds.toNat),
          (nanosName, Json.writeNatural elapsed.nanos)] := by
    rw [← Json.writeObject_toList, String.ofList_toList]
    simp only [stamp, List.map_cons, List.map_nil, String.ofList_toList]
  refine ⟨_, ?_, Json.writeObject_toList _⟩
  simp only [toJson, text, time, members, ChangeKind.tag_eq_name, List.map_cons, List.map_nil,
    String.ofList_toList, inner]

theorem ofJson?_members (path : String) (kind : ChangeKind) (elapsed : Duration) :
    ofJson? (.object ((members path kind elapsed).map Json.Member.member))
      = (Moment.ofParts? elapsed.seconds.toNat elapsed.nanos).map fun time =>
          ⟨.ofString path, kind, time⟩ := by
  have seconds : elapsed.seconds.toNat < UInt64.size := elapsed.seconds.toNat_lt
  have nanos : elapsed.nanos.val < UInt32.size := by
    have := elapsed.nanos.isLt
    unfold nanosPerSecond UInt32.size at *
    omega
  cases found : Moment.ofParts? elapsed.seconds.toNat elapsed.nanos <;>
    simp [ofJson?, members, Json.Member.member, Json.member?, ofParts?, Json.text?, kindOf?, timeOf?,
      stamp, secondsName, nanosName, momentOf?, Json.natural?, seconds, nanos, ChangeKind.ofName?_name,
      found]

/-! ## The round trip -/

theorem read?_toJson {e : Event} {json : String} (h : e.toJson = .ok json) : read? json = some e := by
  cases text : e.path.text? with
  | none => simp [toJson, text] at h
  | some path =>
    cases time : e.time.sinceOrigin? with
    | none => simp [toJson, text, time] at h
    | some elapsed =>
      obtain ⟨_, same, written⟩ := toJson_members text time
      obtain rfl := Except.ok.inj (h.symm.trans same)
      have whole : Json.Written json.toList _ := written ▸ Json.Written.object (members path e.kind elapsed)
      have found := Json.read?_of_written whole
      rw [read?, found, Option.bind_some, ofJson?_members, Moment.ofParts?_sinceOrigin time,
        Option.map_some, ← (Path.text?_eq_some_iff _ _).mp text]

theorem nonneg_of_momentOf {seconds nanos : Json} {m : Moment} (h : momentOf? seconds nanos = some m) :
    0 ≤ m.nanoseconds := by
  simp only [momentOf?, Option.bind_eq_bind, Option.bind_eq_some_iff] at h
  obtain ⟨s, -, n, -, h⟩ := h
  split at h
  · exact Moment.nonneg_of_ofParts h
  · cases h

theorem nonneg_of_timeOf {time : Json} {m : Moment} (h : timeOf? time = some m) : 0 ≤ m.nanoseconds := by
  unfold timeOf? at h
  split at h
  · exact nonneg_of_momentOf h
  · simp only [Option.bind_eq_bind, Option.bind_eq_some_iff] at h
    obtain ⟨seconds, -, nanos, -, h⟩ := h
    split at h
    · exact nonneg_of_momentOf h
    · cases h
  · cases h

/-- Every shape of an event comes down to three values. -/
theorem parts_of_json {v : Json} {e : Event} (h : ofJson? v = some e) :
    ∃ path kind time, ofParts? path kind time = some e := by
  unfold ofJson? at h
  split at h
  · exact ⟨_, _, _, h⟩
  · simp only [Option.bind_eq_bind, Option.bind_eq_some_iff] at h
    obtain ⟨path, -, kind, -, time, -, h⟩ := h
    split at h
    · exact ⟨_, _, _, h⟩
    · cases h
  · cases h

theorem known_of_read {text : String} {e : Event} (h : read? text = some e) :
    (∃ path, e.path.bytes = Utf8.encode path) ∧ 0 ≤ e.time.nanoseconds := by
  obtain ⟨v, -, h⟩ := Option.bind_eq_some_iff.mp h
  obtain ⟨path, kind, time, h⟩ := parts_of_json h
  simp only [ofParts?, Option.bind_eq_bind, Option.bind_eq_some_iff, Option.some.injEq] at h
  obtain ⟨path, -, kind, -, moment, later, rfl⟩ := h
  exact ⟨⟨path, rfl⟩, nonneg_of_timeOf later⟩

theorem toJson_of_known {e : Event} (text : ∃ path, e.path.bytes = Utf8.encode path)
    (time : 0 ≤ e.time.nanoseconds) : ∃ json, e.toJson = .ok json := by
  obtain ⟨path, text⟩ := text
  cases elapsed : e.time.sinceOrigin? with
  | none => exact absurd ((Moment.sinceOrigin?_eq_none_iff e.time).mp elapsed) (Int.not_lt.mpr time)
  | some since =>
    obtain ⟨json, written, -⟩ := toJson_members (Path.text?_of_encode text) elapsed
    exact ⟨json, written⟩

/-- What becomes of an event that is written as JSON and read again, and of one that is read and then
written. -/
structure RoundTrip (e : Event) : Prop where
  written : (∃ json, e.toJson = .ok json) ↔
    (∃ path, e.path.bytes = Utf8.encode path) ∧ 0 ≤ e.time.nanoseconds
  /-- A path that is not text is the first fault, whatever the time. -/
  path_first (h : ¬ ∃ path, e.path.bytes = Utf8.encode path) : e.toJson = .error .pathNotText
  time_next (h : ∃ path, e.path.bytes = Utf8.encode path) (early : e.time.nanoseconds < 0) :
    e.toJson = .error .beforeOrigin
  reread {json : String} (h : e.toJson = .ok json) : read? json = some e
  /-- However the text wrote the event, the event has a form of its own, and that is read as it. -/
  settled {text : String} (h : read? text = some e) :
    ∃ json, e.toJson = .ok json ∧ read? json = some e

/-- **An event whose path is text and whose time is not before the origin is written, and read back
it is the same event.** Any other event is refused, the path's fault first. -/
theorem json_round_trip (e : Event) : RoundTrip e where
  written := by
    constructor
    · rintro ⟨json, h⟩
      exact known_of_read (read?_toJson h)
    · rintro ⟨text, time⟩
      exact toJson_of_known text time
  path_first h := by
    rw [toJson, (Path.text?_eq_none_iff e.path).mpr h]
  time_next h early := by
    obtain ⟨path, text⟩ := h
    simp only [toJson, Path.text?_of_encode text, (Moment.sinceOrigin?_eq_none_iff e.time).mpr early]
  reread := read?_toJson
  settled h := by
    obtain ⟨text, time⟩ := known_of_read h
    obtain ⟨json, written⟩ := toJson_of_known text time
    exact ⟨json, written, read?_toJson written⟩

/-- Members in another order, one that is not known, the kind as an object, the time as an array and
nanoseconds past a second. -/
example : read? "\x7b\"size\":[1],\"timestamp\":[1,2500000000],\"kind\":\x7b\"created\":null\x7d,\"path\":\"a\"\x7d"
    = some ⟨.ofString "a", .created, ⟨3, ⟨500000000, by decide⟩⟩⟩ := by decide +kernel

end Event

end DirectoryWatch
