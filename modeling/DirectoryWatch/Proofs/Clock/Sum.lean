import DirectoryWatch.Proofs.Clock.Order

/-!
# Sums of moments and lengths

A sum is the moment at the exact distance, and there is none only where that would lie past the last
moment of the clock. A processor adds in words that wrap, and carries a second: it comes to the same.
-/

namespace DirectoryWatch

theorem Duration.nanoseconds_ofSeconds (s : UInt64) :
    (Duration.ofSeconds s).nanoseconds = s.toNat * nanosPerSecond :=
  Nat.add_zero _

namespace Moment

/-! ## The range of the clock -/

theorem nanoseconds_inj {m n : Moment} (h : m.nanoseconds = n.nanoseconds) : m = n := by
  obtain ⟨s, i, hi⟩ := m
  obtain ⟨t, j, hj⟩ := n
  simp only [nanoseconds, nanosPerSecond] at h hi hj
  obtain rfl : s = t := Int64.toInt_inj.mp (by omega)
  obtain rfl : i = j := by omega
  rfl

/-- The last moment that the clock can count to. -/
def last : Moment := ⟨Int64.maxValue, ⟨nanosPerSecond - 1, by decide⟩⟩

theorem nanoseconds_last : last.nanoseconds = 9223372036854775807999999999 := by decide

theorem le_last (m : Moment) : m ≤ last := by
  rw [le_iff, nanoseconds_last]
  have greatest : m.seconds.toInt ≤ 9223372036854775807 := Int64.toInt_le m.seconds
  have part : m.nanos.val < nanosPerSecond := m.nanos.isLt
  unfold nanoseconds
  unfold nanosPerSecond at *
  omega

/-! ## Exact sums -/

theorem nanoseconds_of_ofParts? {seconds : Int} {nanos : Nat} {m : Moment}
    (h : ofParts? seconds nanos = some m) : m.nanoseconds = seconds * nanosPerSecond + nanos := by
  simp only [ofParts?] at h
  split at h
  · rename_i within
    obtain rfl := Option.some.inj h
    have least : -9223372036854775808 ≤ seconds + (nanos / nanosPerSecond : Nat) := within.1
    have greatest : seconds + (nanos / nanosPerSecond : Nat) ≤ 9223372036854775807 := within.2
    have seconds_eq := Int64.toInt_ofInt_of_le (n := seconds + (nanos / nanosPerSecond : Nat)) least
      (by omega)
    simp only [nanoseconds, seconds_eq]
    unfold nanosPerSecond
    omega
  · cases h

theorem last_lt_of_ofParts? {seconds : Int} {nanos : Nat} (low : Int64.minValue.toInt ≤ seconds)
    (h : ofParts? seconds nanos = none) : last.nanoseconds < seconds * nanosPerSecond + nanos := by
  simp only [ofParts?] at h
  split at h
  · cases h
  · rename_i outside
    have least : Int64.minValue.toInt = -9223372036854775808 := by decide
    have greatest : Int64.maxValue.toInt = 9223372036854775807 := by decide
    rw [nanoseconds_last]
    unfold nanosPerSecond at *
    omega

variable {m n : Moment} {d : Duration}

theorem nanoseconds_sum (m : Moment) (d : Duration) :
    (m.seconds.toInt + d.seconds.toNat) * nanosPerSecond + (m.nanos.val + d.nanos.val : Nat) =
      m.nanoseconds + d.nanoseconds := by
  unfold nanoseconds Duration.nanoseconds nanosPerSecond
  omega

theorem nanoseconds_of_add? (h : m.add? d = some n) :
    n.nanoseconds = m.nanoseconds + d.nanoseconds := by
  rw [← nanoseconds_sum]
  exact nanoseconds_of_ofParts? h

theorem last_lt_of_add? (h : m.add? d = none) : last.nanoseconds < m.nanoseconds + d.nanoseconds := by
  rw [← nanoseconds_sum]
  apply last_lt_of_ofParts? _ h
  have least : Int64.minValue.toInt ≤ m.seconds.toInt := Int64.minValue_le_toInt m.seconds
  omega

theorem add?_eq_some_iff : m.add? d = some n ↔ n.nanoseconds = m.nanoseconds + d.nanoseconds := by
  refine ⟨nanoseconds_of_add?, fun exact => ?_⟩
  cases h : m.add? d with
  | some o => rw [nanoseconds_inj ((nanoseconds_of_add? h).trans exact.symm)]
  | none =>
    have past := last_lt_of_add? h
    have within := (le_iff n last).mp (le_last n)
    omega

theorem add?_eq_none_iff :
    m.add? d = none ↔ ∀ n : Moment, n.nanoseconds ≠ m.nanoseconds + d.nanoseconds := by
  simp only [Option.eq_none_iff_forall_ne_some, ne_eq, add?_eq_some_iff]

/-- Whether a sum is over by some moment can be told from the exact distance, whether the clock has the
sum or not. -/
theorem add?_le_iff : (∃ s, m.add? d = some s ∧ s ≤ n) ↔ m.nanoseconds + d.nanoseconds ≤ n.nanoseconds := by
  cases h : m.add? d with
  | some s => simp [le_iff, nanoseconds_of_add? h]
  | none =>
    have past := last_lt_of_add? h
    have within := (le_iff n last).mp (le_last n)
    simp only [reduceCtorEq, false_and, exists_false, false_iff]
    omega

/-! ## In words -/

/-- Seconds and nanoseconds in the words that hold them. -/
def words (m : Moment) : Int64 × UInt32 := (m.seconds, .ofNat m.nanos)

/-- Whole seconds later. A sum that wraps is smaller than what was added to. -/
def addSeconds? (seconds : Int64) (more : UInt64) : Option Int64 :=
  let sum := seconds + more.toInt64
  if sum < seconds then none else some sum

/-- The sum in words; of the nanoseconds a whole second is carried. -/
def addWords? (m : Moment) (d : Duration) : Option (Int64 × UInt32) :=
  match addSeconds? m.seconds d.seconds with
  | none => none
  | some seconds =>
    let nanos := UInt32.ofNat m.nanos + UInt32.ofNat d.nanos
    if nanos < 1000000000 then some (seconds, nanos)
    else (addSeconds? seconds 1).map fun seconds => (seconds, nanos - 1000000000)

theorem toInt_addWrapping (seconds : Int64) (more : UInt64) :
    (seconds + more.toInt64).toInt = seconds.toInt + more.toNat ∨
      (seconds + more.toInt64).toInt = seconds.toInt + more.toNat - 18446744073709551616 := by
  have signed : more.toInt64.toInt = (more.toNat : Int).bmod 18446744073709551616 :=
    BitVec.toInt_eq_toNat_bmod more.toBitVec
  have sum : (seconds + more.toInt64).toInt =
      (seconds.toInt + more.toInt64.toInt).bmod 18446744073709551616 := Int64.toInt_add _ _
  have least : -9223372036854775808 ≤ seconds.toInt := Int64.minValue_le_toInt seconds
  have greatest : seconds.toInt ≤ 9223372036854775807 := Int64.toInt_le seconds
  have small : more.toNat < 18446744073709551616 := more.toNat_lt
  rw [sum, signed, Int.add_bmod_bmod, Int.bmod_def]
  omega

theorem addSeconds?_eq (seconds : Int64) (more : UInt64) :
    addSeconds? seconds more =
      if seconds.toInt + more.toNat ≤ Int64.maxValue.toInt then
        some (Int64.ofInt (seconds.toInt + more.toNat))
      else none := by
  have small : more.toNat < 18446744073709551616 := more.toNat_lt
  have most : (seconds + more.toInt64).toInt ≤ Int64.maxValue.toInt := Int64.toInt_le _
  have least : -9223372036854775808 ≤ (seconds + more.toInt64).toInt := Int64.minValue_le_toInt _
  have greatest : Int64.maxValue.toInt = 9223372036854775807 := by decide
  simp only [addSeconds?, Int64.lt_iff_toInt_lt]
  rcases toInt_addWrapping seconds more with exact | wrapped
  · rw [if_neg (by omega), if_pos (by omega), ← exact, Int64.ofInt_toInt]
  · rw [if_pos (by omega), if_neg (by omega)]

theorem add?_eq (m : Moment) (d : Duration) :
    let nanos := m.nanos.val + d.nanos.val
    let seconds := m.seconds.toInt + d.seconds.toNat + (if nanos < 1000000000 then 0 else 1)
    m.add? d =
      if seconds ≤ Int64.maxValue.toInt then
        some ⟨.ofInt seconds, ⟨nanos % nanosPerSecond, Nat.mod_lt _ (by decide)⟩⟩
      else none := by
  intro nanos seconds
  have least : Int64.minValue.toInt ≤ m.seconds.toInt := Int64.minValue_le_toInt m.seconds
  have part : m.nanos.val < 1000000000 := m.nanos.isLt
  have part' : d.nanos.val < 1000000000 := d.nanos.isLt
  have carried : m.seconds.toInt + d.seconds.toNat + (nanos / nanosPerSecond : Nat) = seconds := by
    unfold seconds nanos nanosPerSecond
    split <;> omega
  have low : Int64.minValue.toInt ≤ seconds := by
    unfold seconds
    split <;> omega
  simp only [add?, ofParts?, nanos, carried, low, true_and]

theorem toNat_add_nanos (m : Moment) (d : Duration) :
    (UInt32.ofNat m.nanos + UInt32.ofNat d.nanos).toNat = m.nanos.val + d.nanos.val := by
  have part : m.nanos.val < 1000000000 := m.nanos.isLt
  have part' : d.nanos.val < 1000000000 := d.nanos.isLt
  rw [UInt32.toNat_add, UInt32.toNat_ofNat', UInt32.toNat_ofNat']
  omega

theorem addWords?_eq (m : Moment) (d : Duration) : m.addWords? d = (m.add? d).map words := by
  have least : -9223372036854775808 ≤ m.seconds.toInt := Int64.minValue_le_toInt m.seconds
  have greatest : Int64.maxValue.toInt = 9223372036854775807 := by decide
  have part : m.nanos.val < 1000000000 := m.nanos.isLt
  have part' : d.nanos.val < 1000000000 := d.nanos.isLt
  have nanos := toNat_add_nanos m d
  have second : (1000000000 : UInt32).toNat = 1000000000 := by decide
  have one : (1 : UInt64).toNat = 1 := by decide
  rw [add?_eq]
  simp only [addWords?, addSeconds?_eq, UInt32.lt_iff_toNat_lt, nanos, second]
  by_cases within : m.seconds.toInt + d.seconds.toNat ≤ Int64.maxValue.toInt
  · have sum := Int64.toInt_ofInt_of_le (n := m.seconds.toInt + d.seconds.toNat) (by omega) (by omega)
    simp only [if_pos within, sum, one]
    by_cases small : m.nanos.val + d.nanos.val < 1000000000
    · have rest : (m.nanos.val + d.nanos.val) % nanosPerSecond = m.nanos.val + d.nanos.val :=
        Nat.mod_eq_of_lt small
      simp [words, small, rest, within]
    · have rest :
          (m.nanos.val + d.nanos.val) % nanosPerSecond = m.nanos.val + d.nanos.val - 1000000000 := by
        unfold nanosPerSecond
        omega
      have difference : UInt32.ofNat m.nanos + UInt32.ofNat d.nanos - 1000000000 =
          UInt32.ofNat (m.nanos.val + d.nanos.val - 1000000000) := by
        apply UInt32.toNat_inj.mp
        rw [UInt32.toNat_sub_of_le _ _ (by rw [UInt32.le_iff_toNat_le]; omega), nanos, second,
          UInt32.toNat_ofNat_of_lt' (by unfold UInt32.size; omega)]
      simp only [if_neg small, rest, difference, Int.natCast_one]
      by_cases carried : m.seconds.toInt + d.seconds.toNat + 1 ≤ Int64.maxValue.toInt
      · rw [if_pos carried, if_pos carried]
        rfl
      · rw [if_neg carried, if_neg carried]
        rfl
  · have past : ¬ m.seconds.toInt + d.seconds.toNat +
        (if m.nanos.val + d.nanos.val < 1000000000 then 0 else 1) ≤ Int64.maxValue.toInt := by
      split <;> omega
    rw [if_neg within, if_neg past]
    rfl

end Moment

end DirectoryWatch
