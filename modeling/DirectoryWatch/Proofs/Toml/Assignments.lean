import DirectoryWatch.Proofs.Text.Decimal
import DirectoryWatch.Proofs.Toml.Quotation
import DirectoryWatch.Toml.Document

/-!
# Assignments, one on a line

A bare key, an equals sign and a value that is written on one line are read as that assignment, and
what follows the line is left alone. Values of this kind are integers, truth values and arrays of
strings.
-/

namespace DirectoryWatch.Toml

open Text

/-! ## What the reader does not pass over -/

/-- What starts a line here is neither blank nor a comment. -/
structure Solid (c : Char) : Prop where
  space : isSpace c = false
  comment : c ≠ '#'
  line : c ≠ '\n'
  carriage : c ≠ '\r'

theorem isSpace_eq_false {p : Char → Bool} {c : Char} (h : p c = true) (blank : p ' ' = false)
    (tab : p '\t' = false) : isSpace c = false := by
  by_contra space
  simp only [isSpace, Bool.or_eq_false_iff, not_and_or, Bool.not_eq_false, decide_eq_true_eq] at space
  rcases space with rfl | rfl
  · exact Bool.false_ne_true (blank.symm.trans h)
  · exact Bool.false_ne_true (tab.symm.trans h)

theorem skipSpaces_solid {c : Char} (h : isSpace c = false) (rest : List Char) :
    skipSpaces (c :: rest) = c :: rest :=
  dropWhile_of_stopsAt (.cons h rest)

theorem skipLines?_solid {c : Char} (h : Solid c) {blanks : List Char}
    (blank : ∀ b ∈ blanks, isSpace b = true) (rest : List Char) (steps : Nat) :
    skipLines? (steps + 1) (blanks ++ c :: rest) = some (c :: rest) := by
  have skipped : skipSpaces (blanks ++ c :: rest) = c :: rest := by
    rw [skipSpaces, List.dropWhile_append_of_pos blank]
    exact skipSpaces_solid h.space rest
  obtain ⟨-, comment, line, carriage⟩ := h
  rw [skipLines?, skipped]
  simp [skipComment?, newline?, comment, line, carriage]

theorem skipLines?_stays {c : Char} (h : Solid c) (rest : List Char) (steps : Nat) :
    skipLines? (steps + 1) (c :: rest) = some (c :: rest) :=
  skipLines?_solid h (List.forall_mem_nil _) rest steps

/-! ## Scalars -/

theorem isInteger_iff (n : Int) : isInteger n = true ↔ leastInteger ≤ n ∧ n ≤ greatestInteger := by
  rw [isInteger, Bool.and_eq_true, decide_eq_true_iff, decide_eq_true_iff]

theorem joinDigits?_all {p : Char → Bool} {chars : List Char} (nonempty : chars ≠ [])
    (all : ∀ c ∈ chars, p c = true) (underscore : '_' ∉ chars) : joinDigits? p chars = some chars := by
  induction chars with
  | nil => contradiction
  | cons c chars ih =>
    rw [List.forall_mem_cons] at all
    rw [List.mem_cons, not_or] at underscore
    match chars with
    | [] => simp [joinDigits?, all.1]
    | d :: chars =>
      have other : d ≠ '_' := fun h => underscore.2 (h ▸ List.mem_cons_self)
      simp [joinDigits?, other, all.1, ih (List.cons_ne_nil _ _) all.2 underscore.2]

theorem isBaseDigit_of_isDigit {c : Char} (h : c.isDigit = true) : isBaseDigit 10 c = true := by
  rw [isBaseDigit, digit?_of_isDigit h]
  rfl

theorem natural_decimal (n : Nat) : natural 10 (decimal n).toList = some n := by
  have plain : '_' ∉ (decimal n).toList := fun h => absurd (isDigit_of_mem_decimal h) (by decide)
  rw [natural, joinDigits?_all (decimal_ne_nil n)
    (fun c h => isBaseDigit_of_isDigit (isDigit_of_mem_decimal h)) plain]
  exact number?_decimal n

theorem plainDecimal?_decimal (n : Nat) : plainDecimal? (decimal n).toList = some n := by
  have found := natural_decimal n
  have number := number?_decimal n
  obtain ⟨c, rest, digits, -, alone⟩ := decimal_eq_cons n
  rw [digits] at found number ⊢
  by_cases zero : c = '0'
  · subst zero
    obtain rfl := alone rfl
    exact number
  · rw [plainDecimal?]
    · exact found
    all_goals simp [zero]

theorem signed?_decimal (n : Nat) : signed? (decimal n).toList = some (n : Int) := by
  have found := plainDecimal?_decimal n
  obtain ⟨c, rest, digits, digit, -⟩ := decimal_eq_cons n
  have unsigned : c ≠ '+' ∧ c ≠ '-' := by constructor <;> rintro rfl <;> cases digit
  rw [digits] at found ⊢
  simp [signed?, unsigned, found]

theorem integer?_decimal {n : Nat} (h : isInteger n = true) :
    integer? (decimal n).toList = some (n : Int) := by
  have found := signed?_decimal n
  obtain ⟨c, rest, digits, -, alone⟩ := decimal_eq_cons n
  rw [digits] at found ⊢
  by_cases zero : c = '0'
  · obtain rfl := alone zero
    simp [integer?, found, h]
  · simp [integer?, zero, found, h]

theorem scalar?_decimal {n : Nat} (h : isInteger n = true) :
    scalar? (decimal n).toList = some (.integer n) := by
  have noWord (word : String) (c : Char) (letter : c ∈ word.toList) (h : c.isDigit = false) :
      (decimal n).toList ≠ word.toList := by
    intro same
    rw [isDigit_of_mem_decimal (same ▸ letter)] at h
    cases h
  rw [scalar?, if_neg (noWord _ 't' (by decide) (by decide)), if_neg (noWord _ 'f' (by decide) (by decide)),
    integer?_decimal h]

/-! ## Values on one line -/

/-- A value and the characters that write it, wherever the line ends behind them. -/
structure Written (chars : List Char) (value : Toml) : Prop where
  starts : ∃ c rest, chars = c :: rest ∧ isSpace c = false
  read (depth : Nat) (h : chars.length ≤ depth) (rest : List Char) :
    value? (depth + 1) (chars ++ '\n' :: rest) = some (value, '\n' :: rest)

theorem Written.scalar {chars : List Char} {value : Toml} (nonempty : chars ≠ [])
    (all : ∀ c ∈ chars, isWordChar c = true) (h : scalar? chars = some value) : Written chars value := by
  match chars, nonempty with
  | c :: chars, _ =>
    have first : isWordChar c = true := all c List.mem_cons_self
    refine ⟨⟨c, chars, rfl, isSpace_eq_false first (by decide) (by decide)⟩, ?_⟩
    intro depth _ rest
    have found : word (c :: chars ++ '\n' :: rest) = (c :: chars, '\n' :: rest) := by
      rw [word, span_of_stopsAt all (.cons (by decide) rest)]
      simp
    have other : c ≠ '"' ∧ c ≠ '\'' ∧ c ≠ '[' ∧ c ≠ '\x7b' := by
      refine ⟨?_, ?_, ?_, ?_⟩ <;> rintro rfl <;> cases first
    rw [List.cons_append] at found ⊢
    simp [value?, other, found, h]

theorem Written.integer {n : Nat} (h : isInteger n = true) : Written (decimal n).toList (.integer n) := by
  refine .scalar (decimal_ne_nil n) (fun c mem => ?_) (scalar?_decimal h)
  have digit := isDigit_of_mem_decimal mem
  simp [isWordChar, Char.isAlphanum, digit]

theorem Written.boolean (b : Bool) : Written (if b then "true" else "false").toList (.boolean b) := by
  cases b <;> exact .scalar (by decide) (List.all_eq_true.mp (by decide)) (by rfl)

/-! ## Arrays of strings -/

theorem writeChars_eq_cons (chars : List Char) :
    ∃ q rest, writeChars chars = q :: rest ∧ (q = '"' ∨ q = '\'') := by
  simp only [writeChars]
  split_ifs <;> simp [longDouble, longSingle]

theorem solid_of_quote {q : Char} (h : q = '"' ∨ q = '\'') : Solid q := by
  rcases h with rfl | rfl <;> exact ⟨by decide, by decide, by decide, by decide⟩

theorem value?_writeChars (chars : List Char) (depth : Nat) (rest : List Char)
    (double : rest.head? ≠ some '"') (single : rest.head? ≠ some '\'') :
    value? (depth + 1) (writeChars chars ++ rest) = some (.string (String.ofList chars), rest) := by
  have found := quotation?_writeChars chars double single
  obtain ⟨q, text, start, quote⟩ := writeChars_eq_cons chars
  rw [start, List.cons_append] at found ⊢
  rcases quote with rfl | rfl <;> simp [value?, found]

/-- Strings behind one another, up to the bracket that closes them. -/
def writeItems (texts : List (List Char)) : List Char :=
  [',', ' '].intercalate (texts.map writeChars) ++ [']']

theorem writeItems_singleton (text : List Char) : writeItems [text] = writeChars text ++ [']'] := by
  simp [writeItems]

theorem writeItems_cons_cons (text next : List Char) (texts : List (List Char)) :
    writeItems (text :: next :: texts) = writeChars text ++ ',' :: ' ' :: writeItems (next :: texts) := by
  simp [writeItems, List.intercalate_cons_cons]

theorem length_lt_writeItems (texts : List (List Char)) : texts.length < (writeItems texts).length := by
  induction texts with
  | nil => simp [writeItems]
  | cons text texts ih =>
    obtain ⟨q, body, start, -⟩ := writeChars_eq_cons text
    match texts with
    | [] => simp [writeItems_singleton, start]
    | next :: texts =>
      simp only [writeItems_cons_cons, start, List.length_cons, List.length_append] at ih ⊢
      omega

theorem items?_last {c : Char} (solid : Solid c) (inside : c ≠ ']') {blanks : List Char}
    (blank : ∀ b ∈ blanks, isSpace b = true) {depth : Nat} {body rest : List Char} {item : Toml}
    (h : value? depth (c :: body) = some (item, ']' :: rest)) :
    items? (depth + 1) (blanks ++ c :: body) = some ([item], rest) := by
  have closing : Solid ']' := ⟨by decide, by decide, by decide, by decide⟩
  rw [items?, skipLines?_solid solid blank]
  simp [inside, h, skipLines?_stays closing]

theorem items?_more {c : Char} (solid : Solid c) (inside : c ≠ ']') {blanks : List Char}
    (blank : ∀ b ∈ blanks, isSpace b = true) {depth : Nat} {body rest : List Char} {item : Toml}
    (h : value? depth (c :: body) = some (item, ',' :: rest)) :
    items? (depth + 1) (blanks ++ c :: body)
      = (items? depth rest).map fun (others, rest) => (item :: others, rest) := by
  have comma : Solid ',' := ⟨by decide, by decide, by decide, by decide⟩
  rw [items?, skipLines?_solid solid blank]
  cases later : items? depth rest <;> simp [inside, h, skipLines?_stays comma, later]

theorem items?_writeItems (texts : List (List Char)) {blanks : List Char}
    (blank : ∀ b ∈ blanks, isSpace b = true) {depth : Nat} (h : texts.length ≤ depth) (rest : List Char) :
    items? (depth + 1) (blanks ++ (writeItems texts ++ rest))
      = some (texts.map fun text => .string (String.ofList text), rest) := by
  induction texts generalizing blanks depth with
  | nil =>
    have closing : Solid ']' := ⟨by decide, by decide, by decide, by decide⟩
    simp [items?, writeItems, skipLines?_solid closing blank rest]
  | cons text texts ih =>
    obtain ⟨depth, rfl⟩ : ∃ d, depth = d + 1 := ⟨depth - 1, by simp at h; omega⟩
    have item := value?_writeChars text depth
    obtain ⟨q, body, start, quote⟩ := writeChars_eq_cons text
    have inside : q ≠ ']' := by rcases quote with rfl | rfl <;> decide
    simp only [start, List.cons_append] at item
    match texts with
    | [] =>
      have item := item (']' :: rest) (by simp) (by simp)
      simpa [writeItems_singleton, start] using items?_last (solid_of_quote quote) inside blank item
    | next :: texts =>
      have one : ∀ b ∈ [' '], isSpace b = true := List.all_eq_true.mp rfl
      have others := ih one (Nat.le_of_succ_le_succ h)
      generalize tail : writeItems (next :: texts) ++ rest = more at others
      have item := item (',' :: ' ' :: more) (by simp) (by simp)
      have found := items?_more (solid_of_quote quote) inside blank item
      rw [List.singleton_append] at others
      rw [others] at found
      simpa [writeItems_cons_cons, start, tail] using found

theorem Written.texts (texts : List (List Char)) :
    Written ('[' :: writeItems texts) (.array (texts.map fun text => .string (String.ofList text))) := by
  refine ⟨⟨'[', _, rfl, by decide⟩, ?_⟩
  intro depth h rest
  have longer := length_lt_writeItems texts
  rw [List.length_cons] at h
  obtain ⟨depth, rfl⟩ : ∃ d, depth = d + 1 := ⟨depth - 1, by omega⟩
  have enough : texts.length ≤ depth := by omega
  have found := items?_writeItems texts (List.forall_mem_nil _) enough ('\n' :: rest)
  rw [List.nil_append] at found
  simp [value?, found]

/-! ## Lines -/

/-- Key characters only, and at least one. -/
structure Bare (key : String) : Prop where
  nonempty : key.toList ≠ []
  chars : ∀ c ∈ key.toList, isBareChar c = true

def line (key : String) (value : List Char) : List Char :=
  key.toList ++ ' ' :: '=' :: ' ' :: (value ++ ['\n'])

theorem Bare.eq_cons {key : String} (h : Bare key) :
    ∃ c rest, key.toList = c :: rest ∧ Solid c ∧ c ≠ '"' ∧ c ≠ '\'' ∧ c ≠ '[' ∧ c ≠ '\uFEFF' := by
  match chars : key.toList, h.nonempty with
  | c :: rest, _ =>
    have first : isBareChar c = true := h.chars c (chars ▸ List.mem_cons_self)
    have space : isSpace c = false := isSpace_eq_false first (by decide) (by decide)
    refine ⟨c, rest, rfl, ⟨space, ?_, ?_, ?_⟩, ?_, ?_, ?_, ?_⟩
    all_goals rintro rfl; cases first

theorem keys?_bare {key : String} (bare : Bare key) (steps : Nat) (rest : List Char) :
    keys? (steps + 1) (key.toList ++ ' ' :: '=' :: rest) = some ([key], '=' :: rest) := by
  have run : (key.toList ++ ' ' :: '=' :: rest).span isBareChar = (key.toList, ' ' :: '=' :: rest) :=
    span_of_stopsAt bare.chars (.cons (by decide) _)
  have whole : String.ofList key.toList = key := String.ofList_toList
  obtain ⟨c, chars, start, solid, double, single, -⟩ := bare.eq_cons
  simp only [start, List.cons_append] at run whole ⊢
  have simple : simpleKey? (c :: (chars ++ ' ' :: '=' :: rest)) = some (key, ' ' :: '=' :: rest) := by
    rw [simpleKey?, run]
    · simp only [whole]
    all_goals simp [double, single]
  rw [keys?, skipSpaces_solid solid.space, simple]
  simp [skipSpaces, isSpace]

theorem statement?_line {key : String} (bare : Bare key) {chars : List Char} {value : Toml}
    (written : Written chars value) (rest : List Char) :
    statement? (line key chars ++ rest) = some (.assign [key] value, '\n' :: rest) := by
  have keys := keys?_bare bare
  obtain ⟨c, more, start, -, -, -, header, -⟩ := bare.eq_cons
  obtain ⟨v, body, first, solid⟩ := written.starts
  have text : line key chars ++ rest
      = c :: (more ++ ' ' :: '=' :: ' ' :: (chars ++ '\n' :: rest)) := by
    simp [line, start]
  have skipped : skipSpaces (' ' :: (chars ++ '\n' :: rest)) = chars ++ '\n' :: rest := by
    rw [first]
    exact skipSpaces_solid solid _
  have found := written.read (' ' :: (chars ++ '\n' :: rest)).length (by simp; omega) rest
  simp only [start, List.cons_append] at keys
  rw [text, statement?, keys]
  · simp only [Option.bind_eq_bind, Option.bind_some, skipped, found]
  all_goals simp [header]

theorem statements?_line {key : String} (bare : Bare key) {chars : List Char} {value : Toml}
    (written : Written chars value) (steps : Nat) (rest : List Char) :
    statements? (steps + 1) (line key chars ++ rest)
      = (statements? steps rest).map (.assign [key] value :: ·) := by
  have found := statement?_line bare written rest
  obtain ⟨c, more, start, solid, -⟩ := bare.eq_cons
  obtain ⟨body, text⟩ : ∃ body, line key chars ++ rest = c :: body := ⟨_, by simp [line, start]; rfl⟩
  rw [text] at found ⊢
  have ended : endLine? ('\n' :: rest) = some rest := by
    simp [endLine?, skipSpaces, isSpace, skipComment?, newline?]
  rw [statements?, skipLines?_stays solid]
  cases later : statements? steps rest <;> simp [found, ended, later]

/-! ## Documents -/

/-- A line of a document and what it says. -/
structure Assignment where
  key : String
  chars : List Char
  value : Toml
  bare : Bare key
  written : Written chars value

namespace Assignment

def text (a : Assignment) : List Char := line a.key a.chars

def statement (a : Assignment) : Statement := .assign [a.key] a.value

def member (a : Assignment) : String × Toml := (a.key, a.value)

def item (a : Assignment) : String × Item := (a.key, .value a.value)

end Assignment

theorem statements?_assignments (lines : List Assignment) {steps : Nat} (h : lines.length ≤ steps) :
    statements? (steps + 1) (lines.flatMap Assignment.text) = some (lines.map Assignment.statement) := by
  induction lines generalizing steps with
  | nil => simp [statements?, skipLines?, skipSpaces, skipComment?, newline?]
  | cons a lines ih =>
    obtain ⟨steps, rfl⟩ : ∃ s, steps = s + 1 := ⟨steps - 1, by simp at h; omega⟩
    rw [List.flatMap_cons, Assignment.text, statements?_line a.bare a.written,
      ih (Nat.le_of_succ_le_succ h)]
    rfl

theorem length_le_text (lines : List Assignment) :
    lines.length ≤ (lines.flatMap Assignment.text).length := by
  induction lines with
  | nil => simp
  | cons a lines ih =>
    simp only [List.flatMap_cons, List.length_cons, List.length_append, Assignment.text, line]
    omega

theorem readStatements?_assignments (lines : List Assignment) :
    readStatements? (String.ofList (lines.flatMap Assignment.text))
      = some (lines.map Assignment.statement) := by
  have unmarked : dropMark (lines.flatMap Assignment.text) = lines.flatMap Assignment.text := by
    match lines with
    | [] => rfl
    | a :: lines =>
      obtain ⟨c, rest, start, -, -, -, -, mark⟩ := a.bare.eq_cons
      simp [Assignment.text, line, start, dropMark, mark]
  rw [readStatements?, String.toList_ofList, unmarked]
  exact statements?_assignments lines (length_le_text lines)

theorem assign?_new {key : String} {members : Members} (h : key ∉ members.map Prod.fst) (value : Toml) :
    Members.assign? value [key] members = some (members ++ [(key, .value value)]) := by
  have missing : members.lookup key = none := by
    rw [List.lookup_eq_none_iff]
    intro m mem
    exact bne_iff_ne.mpr fun same => h (same ▸ List.mem_map_of_mem mem)
  simp [Members.assign?, Members.change?, missing]

theorem build?_assignments (lines : List Assignment) {members : Members}
    (distinct : (members.map Prod.fst ++ lines.map Assignment.key).Nodup) :
    Members.build? (lines.map Assignment.statement) [] members
      = some (members ++ lines.map Assignment.item) := by
  induction lines generalizing members with
  | nil => simp [Members.build?]
  | cons a lines ih =>
    have new : a.key ∉ members.map Prod.fst := by
      intro old
      exact (List.nodup_append.mp distinct).2.2 _ old _ List.mem_cons_self rfl
    have later : ((members ++ [a.item]).map Prod.fst ++ lines.map Assignment.key).Nodup := by
      simpa [Assignment.item] using distinct
    rw [List.map_cons, Assignment.statement, Members.build?, Members.change?, assign?_new new]
    simpa [Assignment.item] using ih later

theorem finishMembers_items (lines : List Assignment) :
    finishMembers (lines.map Assignment.item) = lines.map Assignment.member := by
  induction lines with
  | nil => rfl
  | cons a lines ih => simp [finishMembers, Assignment.item, Item.finish, ih, Assignment.member]

theorem read?_assignments {lines : List Assignment} (distinct : (lines.map Assignment.key).Nodup) :
    Toml.read? (String.ofList (lines.flatMap Assignment.text)) = some (lines.map Assignment.member) := by
  rw [Toml.read?, readStatements?_assignments, Option.bind_eq_bind, Option.bind_some,
    build?_assignments lines (by simpa using distinct), Option.bind_eq_bind, Option.bind_some,
    List.nil_append, finishMembers_items]

end DirectoryWatch.Toml
