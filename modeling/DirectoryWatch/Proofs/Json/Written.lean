import DirectoryWatch.Json.Reader
import DirectoryWatch.Json.Writer
import DirectoryWatch.Proofs.Text.Decimal
import Mathlib.Tactic.SplitIfs

/-!
# Reading the JSON that is written

Strings, natural numbers and objects of values that are read back are read back themselves. What
follows a value here closes something, goes on behind a comma, or is nothing at all.
-/

namespace DirectoryWatch.Json

open Text

/-! ## Strings -/

/-- The element is the character, written as it is or by its number. -/
inductive Names : Element → Char → Prop where
  | char (c : Char) : Names (.char c) c
  | unit (c : Char) : Names (.unit c.toNat) c

theorem hexUnit_of_control {c : Char} (h : c.toNat < 0x20) :
    hexUnit? '0' '0' (Nat.digitChar (c.toNat / 16)) (Nat.digitChar (c.toNat % 16)) = some c.toNat := by
  have table : ∀ n, n < 0x20 →
      hexUnit? '0' '0' (Nat.digitChar (n / 16)) (Nat.digitChar (n % 16)) = some n := by
    decide +kernel
  exact table c.toNat h

/-- The characters that are escaped by a letter, and their letters. -/
def letters : List (Char × Char) :=
  [('"', '"'), ('\\', '\\'), ('\x08', 'b'), ('\x0c', 'f'), ('\n', 'n'), ('\r', 'r'), ('\t', 't')]

theorem elements?_letter {c letter : Char} (h : (c, letter) ∈ letters) (rest : List Char) :
    elements? ('\\' :: letter :: rest)
      = (elements? rest).map fun found => (.char c :: found.1, found.2) := by
  simp only [letters, List.mem_cons, Prod.mk.injEq, List.not_mem_nil, or_false] at h
  rcases h with ⟨rfl, rfl⟩ | ⟨rfl, rfl⟩ | ⟨rfl, rfl⟩ | ⟨rfl, rfl⟩ | ⟨rfl, rfl⟩ | ⟨rfl, rfl⟩ | ⟨rfl, rfl⟩
  all_goals
    rw [Option.map_eq_bind]
    rfl

theorem escape_letter {c : Char} (h : c ∈ letters.map Prod.fst) :
    ∃ letter, (c, letter) ∈ letters ∧ escape c = ['\\', letter] := by
  simp only [letters, List.map_cons, List.map_nil, List.mem_cons, List.not_mem_nil, or_false] at h
  rcases h with rfl | rfl | rfl | rfl | rfl | rfl | rfl
  all_goals exact ⟨_, by decide, rfl⟩

theorem escape_other {c : Char} (h : c ∉ letters.map Prod.fst) :
    escape c = if c.toNat < 0x20 then
      ['\\', 'u', '0', '0', Nat.digitChar (c.toNat / 16), Nat.digitChar (c.toNat % 16)] else [c] := by
  simp only [letters, List.map_cons, List.map_nil, List.mem_cons, List.not_mem_nil, or_false, not_or] at h
  simp only [escape, h, if_false]

theorem elements?_escape (c : Char) : ∃ e, Names e c ∧
    ∀ rest, elements? (escape c ++ rest) = (elements? rest).map fun found => (e :: found.1, found.2) := by
  by_cases special : c ∈ letters.map Prod.fst
  · obtain ⟨letter, mem, written⟩ := escape_letter special
    refine ⟨_, .char c, fun rest => ?_⟩
    rw [written]
    exact elements?_letter mem rest
  · rw [escape_other special]
    split_ifs with control
    · refine ⟨_, .unit c, fun rest => ?_⟩
      cases later : elements? rest <;> simp [elements?, hexUnit_of_control control, later]
    · have plain : c ≠ '"' ∧ c ≠ '\\' := by
        constructor <;> rintro rfl <;> exact special (by decide)
      refine ⟨_, .char c, fun rest => ?_⟩
      cases later : elements? rest <;> simp [elements?, plain, control, later]

theorem elements?_string (chars : List Char) (rest : List Char) :
    ∃ es, List.Forall₂ Names es chars ∧
      elements? (chars.flatMap escape ++ '"' :: rest) = some (es, rest) := by
  induction chars with
  | nil => exact ⟨[], .nil, by simp [elements?]⟩
  | cons c chars ih =>
    obtain ⟨es, named, found⟩ := ih
    obtain ⟨e, name, read⟩ := elements?_escape c
    refine ⟨e :: es, .cons name named, ?_⟩
    rw [List.flatMap_cons, List.append_assoc, read, found, Option.map_some]

theorem not_surrogate (c : Char) : isHigh c.toNat = false ∧ isLow c.toNat = false := by
  have valid : c.toNat.isValidChar := c.valid
  unfold Nat.isValidChar at valid
  constructor
  · simp [isHigh]
    omega
  · simp [isLow]
    omega

theorem join?_unit {n : Nat} (high : isHigh n = false) (low : isLow n = false) (es : List Element) :
    join? (.unit n :: es) = (join? es).map (Char.ofNat n :: ·) := by
  match es with
  | .unit _ :: _ => simp [join?, high, low]
  | .char _ :: _ => simp [join?, high, low]
  | [] => simp [join?, high, low]

theorem join?_of_names {es : List Element} {chars : List Char} (h : List.Forall₂ Names es chars) :
    join? es = some chars := by
  induction h with
  | nil => rfl
  | @cons e c es chars name _ ih =>
    cases name with
    | char => simp [join?, ih]
    | unit =>
      obtain ⟨noHigh, noLow⟩ := not_surrogate c
      simp [join?_unit noHigh noLow, ih]

theorem string?_written (text : String) (rest : List Char) :
    string? (text.toList.flatMap escape ++ '"' :: rest) = some (some text, rest) := by
  obtain ⟨es, named, found⟩ := elements?_string text.toList rest
  rw [string?, found]
  simp [join?_of_names named]

/-! ## Numbers -/

/-- Nothing here goes on with a number. -/
def Ends (rest : List Char) : Prop := ∀ c ∈ rest.head?, c = ',' ∨ c = '\x7d'

theorem Ends.stopsAt {rest : List Char} (h : Ends rest) : StopsAt Char.isDigit rest := by
  intro c head
  rcases h c head with rfl | rfl <;> decide

theorem whole?_decimal (n : Nat) {rest : List Char} (ends : Ends rest) :
    whole? ((decimal n).toList ++ rest) = some ((decimal n).toList, rest) := by
  have run : ((decimal n).toList ++ rest).span Char.isDigit = ((decimal n).toList, rest) :=
    span_of_stopsAt (fun c => isDigit_of_mem_decimal) ends.stopsAt
  obtain ⟨c, digits, start, -, alone⟩ := decimal_eq_cons n
  rw [start] at run ⊢
  have found : digits? (c :: digits ++ rest) = some (c :: digits, rest) := by
    rw [digits?, run]
  rw [whole?, found]
  match digits, alone with
  | [], _ => simp
  | d :: digits, alone =>
    have other : c ≠ '0' := fun zero => List.cons_ne_nil _ _ (alone zero)
    simp [other]

theorem fraction?_of_ends {rest : List Char} (ends : Ends rest) : fraction? rest = some (false, rest) := by
  match rest with
  | [] => rfl
  | c :: rest => rcases ends c rfl with rfl | rfl <;> rfl

theorem exponent?_of_ends {rest : List Char} (ends : Ends rest) : exponent? rest = some (false, rest) := by
  match rest with
  | [] => rfl
  | c :: rest => rcases ends c rfl with rfl | rfl <;> rfl

theorem number?_written (n : Nat) {rest : List Char} (ends : Ends rest) :
    number? ((decimal n).toList ++ rest) = some (some n, rest) := by
  have whole := whole?_decimal n ends
  have value := Text.number?_decimal n
  obtain ⟨c, digits, start, digit, -⟩ := decimal_eq_cons n
  have unsigned : c ≠ '-' := by rintro rfl; cases digit
  rw [start] at whole value ⊢
  rw [List.cons_append] at whole ⊢
  simp [number?, unsigned, whole, fraction?_of_ends ends, exponent?_of_ends ends, value]

/-! ## Values -/

/-- A value and the characters that write it. -/
structure Written (chars : List Char) (value : Json) : Prop where
  read (depth : Nat) (h : chars.length ≤ depth) (rest : List Char) (ends : Ends rest) :
    value? (depth + 1) (chars ++ rest) = some (value, rest)

theorem Written.string (text : String) : Written (writeString text).toList (.string (some text)) where
  read depth _ rest _ := by
    have found := string?_written text rest
    simp [value?, writeString, skipBlanks, isBlank, found]

theorem Written.natural (n : Nat) : Written (writeNatural n).toList (.number (some n)) where
  read depth _ rest ends := by
    have found := number?_written n ends
    obtain ⟨c, digits, start, digit, -⟩ := decimal_eq_cons n
    have blank : isBlank c = false := by
      by_contra h
      simp only [isBlank, Bool.not_eq_false, Bool.or_eq_true, decide_eq_true_eq] at h
      rcases h with ((rfl | rfl) | rfl) | rfl <;> cases digit
    have skipped : skipBlanks (c :: (digits ++ rest)) = c :: (digits ++ rest) :=
      dropWhile_of_stopsAt (.cons blank _)
    have other : c ≠ '\x7b' ∧ c ≠ '[' ∧ c ≠ '"' ∧ c ≠ 'n' ∧ c ≠ 't' ∧ c ≠ 'f' := by
      refine ⟨?_, ?_, ?_, ?_, ?_, ?_⟩ <;> rintro rfl <;> cases digit
    rw [start, List.cons_append] at found
    rw [writeNatural, start, List.cons_append, value?, skipped]
    simp [other, found]

/-! ## Objects -/

structure Member where
  name : String
  chars : List Char
  value : Json
  written : Written chars value

namespace Member

def text (m : Member) : List Char := '"' :: (m.name.toList.flatMap escape ++ '"' :: ':' :: m.chars)

def member (m : Member) : Option String × Json := (some m.name, m.value)

end Member

/-- Members behind one another, up to the brace that closes them. -/
def writeMembers (ms : List Member) : List Char := [','].intercalate (ms.map Member.text) ++ ['\x7d']

theorem writeMembers_singleton (m : Member) : writeMembers [m] = m.text ++ ['\x7d'] := by
  simp [writeMembers]

theorem writeMembers_cons_cons (m n : Member) (ms : List Member) :
    writeMembers (m :: n :: ms) = m.text ++ ',' :: writeMembers (n :: ms) := by
  simp [writeMembers, List.intercalate_cons_cons]

theorem members?_last (m : Member) {depth : Nat} (h : m.chars.length ≤ depth) (rest : List Char) :
    members? (depth + 2) (m.text ++ '\x7d' :: rest) = some ([m.member], rest) := by
  have name := string?_written m.name (':' :: (m.chars ++ '\x7d' :: rest))
  have value := m.written.read depth h ('\x7d' :: rest) (by simp [Ends])
  simp [members?, Member.text, Member.member, skipBlanks, isBlank, name, value]

theorem members?_more (m : Member) {depth : Nat} (h : m.chars.length ≤ depth) (rest : List Char) :
    members? (depth + 2) (m.text ++ ',' :: rest)
      = (members? (depth + 1) rest).map fun found => (m.member :: found.1, found.2) := by
  have name := string?_written m.name (':' :: (m.chars ++ ',' :: rest))
  have value := m.written.read depth h (',' :: rest) (by simp [Ends])
  rw [members?]
  cases later : members? (depth + 1) rest <;>
    simp [Member.text, Member.member, skipBlanks, isBlank, name, value, later]

theorem members?_writeMembers {ms : List Member} (nonempty : ms ≠ []) {depth : Nat}
    (h : (writeMembers ms).length ≤ depth) (rest : List Char) :
    members? depth (writeMembers ms ++ rest) = some (ms.map Member.member, rest) := by
  induction ms generalizing depth with
  | nil => contradiction
  | cons m ms ih =>
    match ms with
    | [] =>
      rw [writeMembers_singleton] at h ⊢
      obtain ⟨depth, rfl⟩ : ∃ d, depth = d + 2 := ⟨depth - 2, by simp [Member.text] at h; omega⟩
      have fits : m.chars.length ≤ depth := by simp [Member.text] at h; omega
      simpa using members?_last m fits rest
    | n :: ms =>
      rw [writeMembers_cons_cons] at h ⊢
      obtain ⟨depth, rfl⟩ : ∃ d, depth = d + 2 := ⟨depth - 2, by simp [Member.text] at h; omega⟩
      have fits : m.chars.length ≤ depth := by simp [Member.text] at h; omega
      have later : (writeMembers (n :: ms)).length ≤ depth + 1 := by simp at h; omega
      have others := ih (List.cons_ne_nil n ms) later
      rw [List.append_assoc, List.cons_append, members?_more m fits, others]
      rfl

theorem Written.object (ms : List Member) :
    Written ('\x7b' :: writeMembers ms) (.object (ms.map Member.member)) where
  read depth h rest _ := by
    match ms with
    | [] => simp [value?, writeMembers, skipBlanks, isBlank]
    | m :: ms =>
      have found := members?_writeMembers (List.cons_ne_nil m ms) (Nat.le_of_succ_le h) rest
      obtain ⟨body, start⟩ : ∃ body, writeMembers (m :: ms) = '"' :: body := by
        match ms with
        | [] => exact ⟨_, writeMembers_singleton m⟩
        | n :: ms => exact ⟨_, writeMembers_cons_cons m n ms⟩
      rw [start, List.cons_append] at found
      rw [start]
      simp [value?, skipBlanks, isBlank, found]

theorem writeObject_toList (ms : List Member) :
    (writeObject (ms.map fun m => (m.name, String.ofList m.chars))).toList = '\x7b' :: writeMembers ms := by
  simp [writeObject, writeMembers, writeString, Function.comp_def]
  rfl

/-! ## Texts -/

theorem read?_of_written {text : String} {value : Json} (h : Written text.toList value) :
    read? text = some value := by
  have found := h.read text.toList.length (Nat.le_refl _) [] (by simp [Ends])
  rw [List.append_nil] at found
  simp [read?, found, skipBlanks]

end DirectoryWatch.Json
