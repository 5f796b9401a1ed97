import DirectoryWatch.Text.Utf8
import Mathlib.Algebra.Group.Nat.Defs
import Mathlib.Tactic.SplitIfs

/-!
# Decoding what was encoded

The pieces of some bytes put together are the bytes again, and the pieces of an encoded text are its
characters. So bytes are decoded exactly if they encode a text, and then to that text.
-/

namespace DirectoryWatch.Text.Utf8

/-! ## The bytes of a character -/

theorem toNat_charOfNat {n : Nat} (h : n.isValidChar) : (Char.ofNat n).toNat = n := by
  unfold Char.ofNat
  rw [dif_pos h]
  rfl

/-- The last bytes of a character, `owed` in number, by its code. -/
def trail : Nat → Nat → Bytes
  | 0, _ => []
  | owed + 1, n => UInt8.ofNat (n / 64 ^ owed % 64 + 128) :: trail owed n

theorem encode_one {n : Nat} (h : n < 0x80) :
    String.utf8EncodeChar (Char.ofNat n) = [UInt8.ofNat n] := by
  have code : (Char.ofNat n).val.toNat = n := toNat_charOfNat (.inl (by omega))
  rw [String.utf8EncodeChar, code, if_pos (by omega)]

theorem encode_two {n : Nat} (low : 0x80 ≤ n) (high : n < 0x800) :
    String.utf8EncodeChar (Char.ofNat n) = UInt8.ofNat (n / 64 + 0xC0) :: trail 1 n := by
  have code : (Char.ofNat n).val.toNat = n := toNat_charOfNat (.inl (by omega))
  have lead : n / 64 % 32 = n / 64 := by omega
  simp only [String.utf8EncodeChar, code]
  rw [if_neg (by omega), if_pos (by omega), lead]
  simp [trail]

theorem encode_three {n : Nat} (valid : n.isValidChar) (low : 0x800 ≤ n) (high : n < 0x10000) :
    String.utf8EncodeChar (Char.ofNat n) = UInt8.ofNat (n / 4096 + 0xE0) :: trail 2 n := by
  have code : (Char.ofNat n).val.toNat = n := toNat_charOfNat valid
  have lead : n / 4096 % 16 = n / 4096 := by omega
  simp only [String.utf8EncodeChar, code]
  rw [if_neg (by omega), if_neg (by omega), if_pos (by omega), lead]
  simp [trail]

theorem encode_four {n : Nat} (low : 0x10000 ≤ n) (high : n < 0x110000) :
    String.utf8EncodeChar (Char.ofNat n) = UInt8.ofNat (n / 262144 + 0xF0) :: trail 3 n := by
  have code : (Char.ofNat n).val.toNat = n := toNat_charOfNat (.inr (by omega))
  have lead : n / 262144 % 8 = n / 262144 := by omega
  simp only [String.utf8EncodeChar, code]
  rw [if_neg (by omega), if_neg (by omega), if_neg (by omega), lead]
  simp [trail]

/-! ## Unfinished characters -/

namespace Unfinished

/-- The code may still come out. -/
structure Fits (u : Unfinished) (n : Nat) : Prop where
  value : n / 64 ^ u.owed = u.value
  low : u.low.toNat ≤ n / 64 ^ (u.owed - 1) % 64 + 128
  high : n / 64 ^ (u.owed - 1) % 64 + 128 ≤ u.high.toNat

/-- What was read starts the characters of all codes that may still come out. -/
structure Sound (u : Unfinished) : Prop where
  owed : 0 < u.owed
  low : 0x80 ≤ u.low.toNat
  high : u.high.toNat ≤ 0xBF
  written (n : Nat) (h : u.Fits n) : String.utf8EncodeChar (Char.ofNat n) = u.read ++ trail u.owed n

def ofTwo (k : Nat) : Unfinished := ⟨[UInt8.ofNat k], k - 0xC0, 1, 0x80, 0xBF⟩

def ofThree (k : Nat) : Unfinished :=
  ⟨[UInt8.ofNat k], k - 0xE0, 2, if k = 0xE0 then 0xA0 else 0x80, if k = 0xED then 0x9F else 0xBF⟩

def ofFour (k : Nat) : Unfinished :=
  ⟨[UInt8.ofNat k], k - 0xF0, 3, if k = 0xF0 then 0x90 else 0x80, if k = 0xF4 then 0x8F else 0xBF⟩

variable {k n : Nat}

theorem fits_ofTwo (h : 0xC2 ≤ k ∧ k ≤ 0xDF) :
    (ofTwo k).Fits n ↔ 0x80 ≤ n ∧ n < 0x800 ∧ k = n / 64 + 0xC0 := by
  constructor
  · rintro ⟨value, -, -⟩
    simp only [ofTwo] at value
    omega
  · rintro ⟨low, high, rfl⟩
    constructor <;> simp [ofTwo]
    omega

theorem fits_ofThree (h : 0xE0 ≤ k ∧ k ≤ 0xEF) :
    (ofThree k).Fits n ↔ n.isValidChar ∧ 0x800 ≤ n ∧ n < 0x10000 ∧ k = n / 4096 + 0xE0 := by
  constructor
  · rintro ⟨value, low, high⟩
    simp only [ofThree] at value low high
    unfold Nat.isValidChar
    split at low <;> split at high <;> simp at value low high <;> omega
  · rintro ⟨valid, low, high, rfl⟩
    unfold Nat.isValidChar at valid
    constructor <;> simp only [ofThree]
    · omega
    all_goals
      split <;> simp
      all_goals omega

theorem fits_ofFour (h : 0xF0 ≤ k ∧ k ≤ 0xF4) :
    (ofFour k).Fits n ↔ 0x10000 ≤ n ∧ n < 0x110000 ∧ k = n / 262144 + 0xF0 := by
  constructor
  · rintro ⟨value, low, high⟩
    simp only [ofFour] at value low high
    split at low <;> split at high <;> simp at value low high <;> omega
  · rintro ⟨low, high, rfl⟩
    constructor <;> simp only [ofFour]
    · omega
    all_goals
      split <;> simp
      all_goals omega

end Unfinished

open Unfinished

theorem lead?_ofNat : ∀ k, k < 256 → lead? (UInt8.ofNat k) =
    if 0xC2 ≤ k ∧ k ≤ 0xDF then some (ofTwo k)
    else if 0xE0 ≤ k ∧ k ≤ 0xEF then some (ofThree k)
    else if 0xF0 ≤ k ∧ k ≤ 0xF4 then some (ofFour k)
    else none := by
  decide +kernel

theorem bounds_of_lead : ∀ k, k < 256 → ∀ u ∈ lead? (UInt8.ofNat k),
    u.read = [UInt8.ofNat k] ∧ 0 < u.owed ∧ 0x80 ≤ u.low.toNat ∧ u.high.toNat ≤ 0xBF := by
  decide +kernel

theorem sound_of_lead {b : UInt8} {u : Unfinished} (h : lead? b = some u) : u.Sound ∧ u.read = [b] := by
  rw [← UInt8.ofNat_toNat (x := b)] at h
  obtain ⟨read, owed, low, high⟩ := bounds_of_lead _ b.toNat_lt u h
  refine ⟨⟨owed, low, high, fun n fits => ?_⟩, by rw [read, UInt8.ofNat_toNat]⟩
  rw [lead?_ofNat _ b.toNat_lt] at h
  split_ifs at h with two three four
  · obtain rfl := Option.some.inj h
    obtain ⟨low, high, lead⟩ := (fits_ofTwo two).mp fits
    rw [encode_two low high, ← lead]
    rfl
  · obtain rfl := Option.some.inj h
    obtain ⟨valid, low, high, lead⟩ := (fits_ofThree three).mp fits
    rw [encode_three valid low high, ← lead]
    rfl
  · obtain rfl := Option.some.inj h
    obtain ⟨low, high, lead⟩ := (fits_ofFour four).mp fits
    rw [encode_four low high, ← lead]
    rfl

theorem lead_of_code (c : Char) (long : 0x80 ≤ c.toNat) :
    ∃ b u, lead? b = some u ∧ ¬ b < 0x80 ∧ u.Fits c.toNat := by
  have valid : c.toNat.isValidChar := c.valid
  generalize c.toNat = n at valid long
  have bound : n < 0x110000 := by unfold Nat.isValidChar at valid; omega
  have past {k : Nat} (small : k < 256) (h : 0x80 ≤ k) : ¬ UInt8.ofNat k < 0x80 := by
    rw [UInt8.lt_iff_toNat_lt, UInt8.toNat_ofNat', Nat.mod_eq_of_lt small]
    exact Nat.not_lt.mpr h
  by_cases two : n < 0x800
  · have h : 0xC2 ≤ n / 64 + 0xC0 ∧ n / 64 + 0xC0 ≤ 0xDF := by omega
    refine ⟨UInt8.ofNat (n / 64 + 0xC0), _, ?_, past (by omega) (by omega),
      (fits_ofTwo h).mpr ⟨long, two, rfl⟩⟩
    rw [lead?_ofNat _ (by omega), if_pos h]
  · by_cases three : n < 0x10000
    · have h : 0xE0 ≤ n / 4096 + 0xE0 ∧ n / 4096 + 0xE0 ≤ 0xEF := by omega
      refine ⟨UInt8.ofNat (n / 4096 + 0xE0), _, ?_, past (by omega) (by omega),
        (fits_ofThree h).mpr ⟨valid, by omega, three, rfl⟩⟩
      rw [lead?_ofNat _ (by omega), if_neg (by omega), if_pos h]
    · have h : 0xF0 ≤ n / 262144 + 0xF0 ∧ n / 262144 + 0xF0 ≤ 0xF4 := by omega
      refine ⟨UInt8.ofNat (n / 262144 + 0xF0), _, ?_, past (by omega) (by omega),
        (fits_ofFour h).mpr ⟨by omega, bound, rfl⟩⟩
      rw [lead?_ofNat _ (by omega), if_neg (by omega), if_neg (by omega), if_pos h]

/-! ## One more byte -/

namespace Unfinished

variable {u : Unfinished}

/-- The next unfinished character, of which one more byte is read. -/
def next (u : Unfinished) (b : UInt8) : Unfinished :=
  ⟨u.read ++ [b], u.value * 64 + b.toNat % 64, u.owed - 1, 0x80, 0xBF⟩

theorem step_last {b : UInt8} (within : u.low ≤ b ∧ b ≤ u.high) (last : u.owed ≤ 1) :
    u.step b = ([.char (Char.ofNat (u.value * 64 + b.toNat % 64))], none) := by
  simp only [step, if_pos within, if_pos last]

theorem step_next {b : UInt8} (within : u.low ≤ b ∧ b ≤ u.high) (more : 1 < u.owed) :
    u.step b = ([], some (u.next b)) := by
  simp only [step, if_pos within, if_neg (Nat.not_le.mpr more), next]

theorem step_broken {b : UInt8} (outside : ¬ (u.low ≤ b ∧ b ≤ u.high)) :
    u.step b = (.stray u.read :: (start b).1, (start b).2) := by
  simp only [step, if_neg outside]

theorem fits_next {b : UInt8} {n : Nat} (sound : u.Sound) (within : u.low ≤ b ∧ b ≤ u.high)
    (h : n / 64 ^ (u.owed - 1) = u.value * 64 + b.toNat % 64) :
    u.Fits n ∧ trail u.owed n = b :: trail (u.owed - 1) n := by
  obtain ⟨owed, low, high, -⟩ := sound
  simp only [UInt8.le_iff_toNat_le] at within
  have byte : n / 64 ^ (u.owed - 1) % 64 + 128 = b.toNat := by omega
  obtain ⟨rest, more⟩ : ∃ k, u.owed = k + 1 := ⟨u.owed - 1, by omega⟩
  have earlier : n / 64 ^ u.owed = n / 64 ^ (u.owed - 1) / 64 := by
    rw [more, Nat.add_sub_cancel, Nat.pow_succ, Nat.div_div_eq_div_mul]
  refine ⟨⟨?_, ?_, ?_⟩, ?_⟩
  · omega
  · omega
  · omega
  · rw [more, Nat.add_sub_cancel] at byte ⊢
    rw [trail, byte, UInt8.ofNat_toNat]

theorem byte_of_fits {n : Nat} (sound : u.Sound) (fits : u.Fits n) :
    ∃ b, trail u.owed n = b :: trail (u.owed - 1) n ∧ (u.low ≤ b ∧ b ≤ u.high) ∧
      u.value * 64 + b.toNat % 64 = n / 64 ^ (u.owed - 1) := by
  obtain ⟨rest, more⟩ : ∃ k, u.owed = k + 1 := ⟨u.owed - 1, by have := sound.owed; omega⟩
  obtain ⟨value, low, high⟩ := fits
  have last := sound.high
  rw [more, Nat.pow_succ, ← Nat.div_div_eq_div_mul] at value
  rw [more, Nat.add_sub_cancel] at low high ⊢
  have code : (UInt8.ofNat (n / 64 ^ rest % 64 + 128)).toNat = n / 64 ^ rest % 64 + 128 := by
    rw [UInt8.toNat_ofNat', Nat.mod_eq_of_lt (by omega)]
  refine ⟨_, rfl, ?_, ?_⟩
  · simp only [UInt8.le_iff_toNat_le, code]
    exact ⟨low, high⟩
  · rw [code]
    omega

theorem Sound.next {b : UInt8} (sound : u.Sound) (within : u.low ≤ b ∧ b ≤ u.high) (more : 1 < u.owed) :
    (u.next b).Sound := by
  refine ⟨?_, by simp [Unfinished.next], by simp [Unfinished.next], ?_⟩
  · simp only [Unfinished.next]
    omega
  · intro n fits
    obtain ⟨before, byte⟩ := fits_next sound within fits.value
    rw [sound.written n before, byte]
    simp [Unfinished.next]

theorem Sound.finish {b : UInt8} (sound : u.Sound) (within : u.low ≤ b ∧ b ≤ u.high) (last : u.owed ≤ 1) :
    String.utf8EncodeChar (Char.ofNat (u.value * 64 + b.toNat % 64)) = u.read ++ [b] := by
  have one : u.owed = 1 := Nat.le_antisymm last sound.owed
  have found := fits_next sound within (by rw [one]; exact Nat.div_one _)
  rw [sound.written _ found.1, found.2, one]
  rfl

end Unfinished

/-! ## No byte is lost -/

theorem piecesFrom_cons (state : Option Unfinished) (b : UInt8) (rest : Bytes) :
    piecesFrom state (b :: rest) = (step state b).1 ++ piecesFrom (step state b).2 rest := by
  cases state <;> rfl

/-- The bytes read of a character that is not finished. -/
def held (state : Option Unfinished) : Bytes := state.elim [] Unfinished.read

theorem start_bytes (b : UInt8) :
    (start b).1.flatMap Piece.bytes ++ held (start b).2 = [b] ∧ ∀ u ∈ (start b).2, u.Sound := by
  unfold start
  split
  · rename_i ascii
    have code : b.toNat < 0x80 := UInt8.lt_iff_toNat_lt.mp ascii
    simp [Piece.bytes, encode_one code, held]
  · cases led : lead? b with
    | none => simp [Piece.bytes, held]
    | some u =>
      obtain ⟨sound, read⟩ := sound_of_lead led
      simp [held, read, sound]

theorem step_bytes {state : Option Unfinished} (sound : ∀ u ∈ state, u.Sound) (b : UInt8) :
    (step state b).1.flatMap Piece.bytes ++ held (step state b).2 = held state ++ [b] ∧
      ∀ u ∈ (step state b).2, u.Sound := by
  match state with
  | none => exact start_bytes b
  | some u =>
    have sound : u.Sound := sound u rfl
    change (u.step b).1.flatMap Piece.bytes ++ held (u.step b).2 = u.read ++ [b] ∧
      ∀ v ∈ (u.step b).2, v.Sound
    by_cases within : u.low ≤ b ∧ b ≤ u.high
    · by_cases last : u.owed ≤ 1
      · simp [step_last within last, Piece.bytes, sound.finish within last, held]
      · have more : 1 < u.owed := Nat.lt_of_not_le last
        have next : (u.next b).Sound := sound.next within more
        rw [step_next within more]
        exact ⟨rfl, fun v h => Option.some.inj h ▸ next⟩
    · obtain ⟨bytes, after⟩ := start_bytes b
      rw [step_broken within]
      exact ⟨by rw [List.flatMap_cons, List.append_assoc, bytes]; rfl, after⟩

theorem piecesFrom_bytes {state : Option Unfinished} (sound : ∀ u ∈ state, u.Sound) (bytes : Bytes) :
    (piecesFrom state bytes).flatMap Piece.bytes = held state ++ bytes := by
  induction bytes generalizing state with
  | nil => cases state <;> simp [piecesFrom, Piece.bytes, held]
  | cons b rest ih =>
    obtain ⟨found, after⟩ := step_bytes sound b
    rw [piecesFrom_cons, List.flatMap_append, ih after, ← List.append_assoc, found, List.append_assoc,
      List.singleton_append]

theorem pieces_bytes (bytes : Bytes) : (pieces bytes).flatMap Piece.bytes = bytes :=
  piecesFrom_bytes (by simp) bytes

/-! ## No character is broken off -/

theorem piecesFrom_trail {u : Unfinished} {n : Nat} (sound : u.Sound) (fits : u.Fits n) (rest : Bytes) :
    piecesFrom (some u) (trail u.owed n ++ rest) = .char (Char.ofNat n) :: piecesFrom none rest := by
  obtain ⟨owed, more⟩ : ∃ k, u.owed = k + 1 := ⟨u.owed - 1, by have := sound.owed; omega⟩
  induction owed generalizing u with
  | zero =>
    obtain ⟨b, bytes, within, code⟩ := byte_of_fits sound fits
    have last : u.owed ≤ 1 := by omega
    rw [bytes, List.cons_append, piecesFrom_cons, step, step_last within last, code, more]
    simp [trail]
  | succ owed ih =>
    obtain ⟨b, bytes, within, code⟩ := byte_of_fits sound fits
    have later : 1 < u.owed := by omega
    have fits : (u.next b).Fits n := by
      refine ⟨code.symm, ?_, ?_⟩
      · simp [Unfinished.next]
      · simp [Unfinished.next]
        omega
    have left : (u.next b).owed = owed + 1 := by simp [Unfinished.next, more]
    rw [bytes, List.cons_append, piecesFrom_cons, step, step_next within later, List.nil_append]
    exact ih (sound.next within later) fits left

theorem piecesFrom_encodeChar (c : Char) (rest : Bytes) :
    piecesFrom none (String.utf8EncodeChar c ++ rest) = .char c :: piecesFrom none rest := by
  by_cases ascii : c.toNat < 0x80
  · have byte : UInt8.ofNat c.toNat < 0x80 := by
      rw [UInt8.lt_iff_toNat_lt, UInt8.toNat_ofNat', Nat.mod_eq_of_lt (by omega)]
      exact ascii
    have written := encode_one ascii
    rw [Char.ofNat_toNat] at written
    have code : (UInt8.ofNat c.toNat).toNat = c.toNat := by
      rw [UInt8.toNat_ofNat', Nat.mod_eq_of_lt (by omega)]
    rw [written, List.singleton_append, piecesFrom_cons, step, start, if_pos byte, code, Char.ofNat_toNat]
    rfl
  · obtain ⟨b, u, led, past, fits⟩ := lead_of_code c (Nat.le_of_not_lt ascii)
    obtain ⟨sound, read⟩ := sound_of_lead led
    have written := sound.written _ fits
    rw [Char.ofNat_toNat, read] at written
    rw [written, List.append_assoc, List.singleton_append, piecesFrom_cons, step, start, if_neg past, led,
      List.nil_append, piecesFrom_trail sound fits, Char.ofNat_toNat]

theorem pieces_encode (text : String) : pieces (encode text) = text.toList.map .char := by
  unfold pieces encode
  induction text.toList with
  | nil => rfl
  | cons c chars ih => rw [List.flatMap_cons, piecesFrom_encodeChar, ih, List.map_cons]

/-! ## Decoding -/

theorem mapM_char?_map (chars : List Char) : (chars.map Piece.char).mapM Piece.char? = some chars := by
  induction chars with
  | nil => rfl
  | cons c chars ih => rw [List.map_cons, List.mapM_cons, Piece.char?, ih]; rfl

theorem bytes_of_mapM {ps : List Piece} {chars : List Char} (h : ps.mapM Piece.char? = some chars) :
    ps.flatMap Piece.bytes = chars.flatMap String.utf8EncodeChar := by
  induction ps generalizing chars with
  | nil =>
    obtain rfl : [] = chars := by simpa using h
    rfl
  | cons p ps ih =>
    cases p with
    | stray bytes => simp [Piece.char?] at h
    | char c =>
      simp only [List.mapM_cons, Piece.char?, Option.pure_def, Option.bind_eq_bind, Option.bind_some,
        Option.bind_eq_some_iff, Option.some.injEq] at h
      obtain ⟨others, found, rfl⟩ := h
      rw [List.flatMap_cons, List.flatMap_cons, ih found]
      rfl

theorem decode?_eq_some_iff (bytes : Bytes) (text : String) :
    decode? bytes = some text ↔ bytes = encode text := by
  unfold decode?
  constructor
  · intro h
    obtain ⟨chars, found, rfl⟩ := Option.map_eq_some_iff.mp h
    rw [encode, String.toList_ofList, ← bytes_of_mapM found, pieces_bytes]
  · rintro rfl
    rw [pieces_encode, mapM_char?_map, Option.map_some, String.ofList_toList]

end DirectoryWatch.Text.Utf8
