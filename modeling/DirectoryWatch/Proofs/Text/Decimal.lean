import DirectoryWatch.Text.Decimal
import Mathlib.Data.List.TakeDrop

/-!
# Reading what `decimal` writes

The digits of a number, read in base ten, are the number again. Of the readers of whole numbers each
takes a run of digits to its end: what follows is left alone if it starts with none.
-/

namespace DirectoryWatch.Text

/-! ## Runs of characters -/

/-- What follows does not start with a character of the class. -/
def StopsAt (p : Char → Bool) (rest : List Char) : Prop := ∀ c ∈ rest.head?, p c = false

theorem StopsAt.cons {p : Char → Bool} {c : Char} (h : p c = false) (rest : List Char) :
    StopsAt p (c :: rest) := by
  intro d hd
  obtain rfl : c = d := by simpa using hd
  exact h

theorem dropWhile_of_stopsAt {p : Char → Bool} {rest : List Char} (h : StopsAt p rest) :
    rest.dropWhile p = rest := by
  cases rest with
  | nil => rfl
  | cons c rest => simp [h c (by simp)]

theorem span_of_stopsAt {p : Char → Bool} {run rest : List Char} (all : ∀ c ∈ run, p c = true)
    (stops : StopsAt p rest) : (run ++ rest).span p = (run, rest) := by
  have none : rest.takeWhile p = [] := by
    cases rest with
    | nil => rfl
    | cons c rest => simp [stops c (by simp)]
  rw [List.span_eq_takeWhile_dropWhile, List.takeWhile_append_of_pos all,
    List.dropWhile_append_of_pos all, none, dropWhile_of_stopsAt stops, List.append_nil]

/-! ## Digits -/

theorem digit?_of_isDigit {c : Char} (h : c.isDigit = true) : digit? 10 c = some (c.toNat - '0'.toNat) := by
  have bounds : '0' ≤ c ∧ c ≤ '9' := by
    rw [Char.isDigit, Bool.and_eq_true, decide_eq_true_eq, decide_eq_true_eq] at h
    exact h
  have small : c.toNat - 48 < 10 := by
    have last : c.toNat ≤ 57 := bounds.2
    omega
  unfold digit?
  rw [if_pos bounds]
  exact Option.filter_some_pos (by simpa using small)

theorem mapM_digit? {chars : List Char} (all : ∀ c ∈ chars, c.isDigit = true) :
    chars.mapM (digit? 10) = some (chars.map fun c => c.toNat - '0'.toNat) := by
  induction chars with
  | nil => rfl
  | cons c chars ih =>
    rw [List.forall_mem_cons] at all
    simp [digit?_of_isDigit all.1, ih all.2]

theorem number?_of_digits {chars : List Char} (nonempty : chars ≠ [])
    (all : ∀ c ∈ chars, c.isDigit = true) :
    number? 10 chars = some (Nat.ofDigitChars 10 chars 0) := by
  unfold number?
  split
  · contradiction
  · rw [mapM_digit? all, Option.map_some, List.foldl_map, Nat.ofDigitChars_eq_foldl]
    simp only [Nat.mul_comm]

/-! ## Written digits -/

theorem isDigit_of_mem_decimal {n : Nat} {c : Char} (h : c ∈ (decimal n).toList) : c.isDigit = true := by
  rw [decimal, String.toList_ofList] at h
  exact Nat.isDigit_of_mem_toDigits (by decide) (by decide) h

theorem decimal_ne_nil (n : Nat) : (decimal n).toList ≠ [] := by
  rw [decimal, String.toList_ofList]
  exact Nat.toDigits_ne_nil

theorem number?_decimal (n : Nat) : number? 10 (decimal n).toList = some n := by
  rw [number?_of_digits (decimal_ne_nil n) fun c => isDigit_of_mem_decimal, decimal,
    String.toList_ofList, Nat.ofDigitChars_toDigits (by decide) (by decide)]

theorem head?_toDigits_ne_zero {n : Nat} (pos : 0 < n) : (Nat.toDigits 10 n).head? ≠ some '0' := by
  induction n using Nat.strongRecOn with
  | ind n ih =>
    rw [Nat.toDigits_eq_if (by decide)]
    split
    · rename_i small
      have digit : ∀ d, d < 10 → 0 < d → [Nat.digitChar d].head? ≠ some '0' := by decide
      exact digit n small pos
    · rename_i large
      rw [List.head?_append, Option.or_of_isSome (List.isSome_head?.mpr Nat.toDigits_ne_nil)]
      exact ih (n / 10) (by omega) (by omega)

theorem decimal_eq_cons (n : Nat) :
    ∃ c rest, (decimal n).toList = c :: rest ∧ c.isDigit = true ∧ (c = '0' → rest = []) := by
  match digits : (decimal n).toList with
  | [] => exact absurd digits (decimal_ne_nil n)
  | c :: rest =>
    refine ⟨c, rest, rfl, isDigit_of_mem_decimal (digits ▸ List.mem_cons_self), ?_⟩
    rintro rfl
    rw [decimal, String.toList_ofList] at digits
    rcases Nat.eq_zero_or_pos n with rfl | pos
    · exact (List.cons.inj digits).2.symm
    · exact absurd (by rw [digits]; rfl) (head?_toDigits_ne_zero pos)

theorem word?_decimal {n : Nat} (small : n ≤ maxWord) : word? (decimal n) = some n := by
  obtain ⟨c, rest, digits, digit, _⟩ := decimal_eq_cons n
  have unsigned : c ≠ '+' := by
    rintro rfl
    cases digit
  have number := number?_decimal n
  rw [digits] at number
  have read : word? (decimal n) = (number? 10 (c :: rest)).filter (· ≤ maxWord) := by
    unfold word?
    rw [digits]
    split
    · rename_i same
      exact absurd (List.cons.inj same).1 unsigned
    · rfl
  rw [read, number]
  exact Option.filter_some_pos (by simpa using small)

end DirectoryWatch.Text
