import DirectoryWatch.Toml.Quotation
import Mathlib.Tactic.SplitIfs

/-!
# Strings in TOML

Every text is read back from what `writeChars` makes of it. Each of the four readers undoes one
character of its writer; where a long string holds quotes, they are told from the closing ones by
what stands behind them.
-/

namespace DirectoryWatch.Toml

/-! ## Escapes -/

theorem number_of_isForbidden {c : Char} (h : isForbidden c = true) :
    ∃ w x y z, (Text.padLeft '0' 4 (Text.upperHex c.toNat)).toList = [w, x, y, z] ∧
      charOfHex? [w, x, y, z] = some c := by
  have table : ∀ n, n < 128 → isForbidden (Char.ofNat n) = true →
      (Text.padLeft '0' 4 (Text.upperHex n)).toList.length = 4 ∧
        charOfHex? (Text.padLeft '0' 4 (Text.upperHex n)).toList = some (Char.ofNat n) := by
    decide +kernel
  have small : c.toNat < 128 := by
    simp only [isForbidden, Bool.or_eq_true, Bool.and_eq_true, decide_eq_true_eq] at h
    omega
  obtain ⟨four, found⟩ := table c.toNat small (by rwa [Char.ofNat_toNat])
  rw [Char.ofNat_toNat] at found
  match digits : (Text.padLeft '0' 4 (Text.upperHex c.toNat)).toList, four with
  | [w, x, y, z], _ => exact ⟨w, x, y, z, rfl, digits ▸ found⟩

/-- How one character is written between double quotes. -/
inductive Escape (long : Bool) (c : Char) : List Char → Prop where
  | letter (e : Char) (h : escaped? e = some c) : Escape long c ['\\', e]
  | number (w x y z : Char) (h : charOfHex? [w, x, y, z] = some c) : Escape long c ['\\', 'u', w, x, y, z]
  | plain (h : isForbidden c = false) (backslash : c ≠ '\\') (line : c = '\n' → long = true) :
    Escape long c [c]

theorem escape_escapeChar (long : Bool) (c : Char) : Escape long c (escapeChar long c) := by
  unfold escapeChar
  split_ifs with h1 h2 h3 h4 h5 h6 h7 h8
  · exact h1 ▸ .letter 'b' rfl
  · exact h2 ▸ .letter 't' rfl
  · subst h3
    exact .plain (by decide) (by decide) fun _ => h4
  · exact h3 ▸ .letter 'n' rfl
  · exact h5 ▸ .letter 'f' rfl
  · exact h6 ▸ .letter 'r' rfl
  · subst h7
    exact .letter '\\' rfl
  · obtain ⟨w, x, y, z, digits, found⟩ := number_of_isForbidden h8
    rw [digits]
    exact .number w x y z found
  · exact .plain (by simpa using h8) h7 fun line => absurd line h3

theorem ne_return {c : Char} (plain : isForbidden c = false) : c ≠ '\r' := by
  rintro rfl
  cases plain

theorem ne_number {e c : Char} (h : escaped? e = some c) : e ≠ 'u' ∧ e ≠ 'U' := by
  constructor <;> rintro rfl <;> cases h

theorem basic?_escape {c : Char} (quote : c ≠ '"') {written : List Char} (h : Escape false c written)
    (rest : List Char) : basic? (written ++ rest) = prepend c (basic? rest) := by
  cases h with
  | letter e found => simp [basic?, found, ne_number found]
  | number w x y z found => simp [basic?, found]
  | plain h backslash line =>
    have inLine : c ≠ '\n' := fun h => Bool.false_ne_true (line h)
    simp [basic?, h, backslash, inLine]

theorem longBasic?_escape {c : Char} (quote : c ≠ '"') {written : List Char} (h : Escape true c written)
    (rest : List Char) :
    longBasic? false (written ++ rest) = prepend c (longBasic? false rest) := by
  cases h with
  | letter e found => simp [longBasic?, found, ne_number found]
  | number w x y z found => simp [longBasic?, found]
  | plain h backslash line => simp [longBasic?, quote, h, backslash, ne_return h]

theorem head_ne_quote {long : Bool} {c : Char} (quote : c ≠ '"') {written : List Char}
    (h : Escape long c written) (rest : List Char) : (written ++ rest).head? ≠ some '"' := by
  cases h <;> simp [quote]

theorem head_ne_line {long : Bool} {c : Char} (line : c ≠ '\n') {written : List Char}
    (h : Escape long c written) (rest : List Char) :
    (written ++ rest).head? ∉ [some '\n', some '\r'] := by
  cases h with
  | letter | number => simp
  | plain h => simp [line, ne_return h]

theorem head_escapeText_ne_quote {long : Bool} {c : Char} {chars : List Char} {run : Nat}
    (h : c = '"' → (if long then 2 else 0) ≤ run) (rest : List Char) :
    (escapeText long (c :: chars) run ++ rest).head? ≠ some '"' := by
  by_cases quote : c = '"'
  · simp [escapeText, quote, Nat.not_lt.mpr (h quote)]
  · rw [escapeText, if_neg quote, List.append_assoc]
    exact head_ne_quote quote (escape_escapeChar long c) _

/-! ## Two quotes ahead -/

theorem head?_of_start {q : Char} {more rest : List Char} (h : q :: more <+: rest) :
    rest.head? = some q := by
  obtain ⟨_, rfl⟩ := h
  rfl

theorem apart {q a b : Char} {rest : List Char} (h : ¬ [q, q] <+: a :: b :: rest) : a = q → b ≠ q := by
  rintro rfl rfl
  exact h ⟨rest, rfl⟩

/-! ## Between double quotes -/

theorem basic?_escapeText (chars : List Char) (run : Nat) (rest : List Char) :
    basic? (escapeText false chars run ++ '"' :: rest) = some (chars, rest) := by
  induction chars generalizing run with
  | nil => simp [escapeText, basic?]
  | cons c chars ih =>
    by_cases quote : c = '"'
    · subst quote
      simp [escapeText, basic?, escaped?, ih, prepend]
    · rw [escapeText, if_neg quote, List.append_assoc,
        basic?_escape quote (escape_escapeChar false c), ih]
      rfl

/-! ## Between three double quotes -/

theorem longBasic?_quote {rest : List Char} (h : ¬ ['"', '"'] <+: rest) :
    longBasic? false ('"' :: rest) = prepend '"' (longBasic? false rest) := by
  match rest, h with
  | [], _ => rfl
  | [a], _ => simp [longBasic?, isForbidden]
  | a :: b :: rest, h =>
    have apart := apart h
    rw [longBasic?] <;> simp_all [isForbidden]

theorem longBasic?_close {rest : List Char} (after : rest.head? ≠ some '"') :
    longBasic? false (longDouble ++ rest) = some ([], rest) := by
  match rest, after with
  | [], _ => rfl
  | c :: rest, after =>
    have other : c ≠ '"' := by simpa using after
    simp [longDouble, longBasic?, other]

theorem quotes_at_end {chars : List Char} {run : Nat} {rest : List Char}
    (h : ['"', '"'] <+: escapeText true chars (run + 1) ++ (longDouble ++ rest)) :
    chars = [] ∨ run = 0 ∧ chars = ['"'] := by
  match chars with
  | [] => exact .inl rfl
  | c :: chars =>
    obtain ⟨rest', start⟩ := h
    by_cases free : c = '"' ∧ run = 0
    · obtain ⟨rfl, rfl⟩ := free
      refine .inr ⟨rfl, ?_⟩
      match chars with
      | [] => rfl
      | d :: chars =>
        have next : (escapeText true (d :: chars) 2 ++ (longDouble ++ rest)).head? ≠ some '"' :=
          head_escapeText_ne_quote (fun _ => Nat.le_refl 2) _
        have second := congrArg (fun text => text.tail.head?) start
        exact absurd (by simpa [escapeText] using second.symm) next
    · have later : c = '"' → 2 ≤ run + 1 := by
        intro quote
        have : run ≠ 0 := fun none => free ⟨quote, none⟩
        omega
      have first := congrArg List.head? start
      exact absurd first.symm (head_escapeText_ne_quote later _)

theorem longBasic?_escapeText (chars : List Char) (run : Nat) {rest : List Char}
    (after : rest.head? ≠ some '"') :
    longBasic? false (escapeText true chars run ++ (longDouble ++ rest)) = some (chars, rest) := by
  have other : ∀ more, rest = '"' :: more → False := by
    rintro more rfl
    exact after rfl
  induction chars generalizing run with
  | nil => exact longBasic?_close after
  | cons c chars ih =>
    by_cases quote : c = '"'
    · subst quote
      by_cases free : run < 2
      · by_cases closing : ['"', '"'] <+: escapeText true chars (run + 1) ++ (longDouble ++ rest)
        · obtain rfl | ⟨rfl, rfl⟩ := quotes_at_end closing
          · simp [escapeText, free, longDouble, longBasic?]
          · simp [escapeText, longDouble, longBasic?]
        · simp only [escapeText, if_pos free, ite_true, List.cons_append]
          rw [longBasic?_quote closing, ih]
          rfl
      · simp [escapeText, free, longBasic?, escaped?, ih, prepend]
    · rw [escapeText, if_neg quote, List.append_assoc,
        longBasic?_escape quote (escape_escapeChar true c), ih]
      rfl

/-! ## Between single quotes -/

theorem literal?_plain {chars : List Char} (quote : '\'' ∉ chars) (line : '\n' ∉ chars)
    (plain : ∀ c ∈ chars, isForbidden c = false) (rest : List Char) :
    literal? (chars ++ '\'' :: rest) = some (chars, rest) := by
  induction chars with
  | nil => simp [literal?]
  | cons c chars ih =>
    rw [List.mem_cons, not_or] at quote line
    rw [List.forall_mem_cons] at plain
    simp [literal?, Ne.symm quote.1, Ne.symm line.1, plain.1, ih quote.2 line.2 plain.2, prepend]

/-! ## Between three single quotes -/

theorem longestRun_mono (q : Char) (chars : List Char) {run more : Nat} (h : run ≤ more) :
    longestRun q chars run ≤ longestRun q chars more := by
  induction chars generalizing run more with
  | nil => exact h
  | cons c chars ih =>
    simp only [longestRun]
    split
    · exact ih (Nat.add_le_add_right h 1)
    · omega

theorem longestRun_tail_le (q c : Char) (chars : List Char) :
    longestRun q chars 0 ≤ longestRun q (c :: chars) 0 := by
  rw [longestRun]
  split
  · exact longestRun_mono q chars (Nat.zero_le 1)
  · omega

theorem le_longestRun (q : Char) (chars : List Char) (run : Nat) : run ≤ longestRun q chars run := by
  induction chars generalizing run with
  | nil => exact Nat.le_refl run
  | cons c chars ih =>
    rw [longestRun]
    split
    · exact Nat.le_of_succ_le (ih (run + 1))
    · omega

theorem notMem_of_longestRun {q : Char} {chars : List Char} (h : longestRun q chars 0 = 0) : q ∉ chars := by
  induction chars with
  | nil => simp
  | cons c chars ih =>
    rw [List.mem_cons, not_or]
    constructor
    · rintro rfl
      have one := le_longestRun q chars 1
      simp only [longestRun, ite_true, Nat.zero_add] at h
      omega
    · have tail := longestRun_tail_le q c chars
      exact ih (by omega)

theorem longLiteral?_quote {rest : List Char} (h : ¬ ['\'', '\''] <+: rest) :
    longLiteral? ('\'' :: rest) = prepend '\'' (longLiteral? rest) := by
  match rest, h with
  | [], _ => rfl
  | [a], _ => simp [longLiteral?, isForbidden]
  | a :: b :: rest, h =>
    have apart := apart h
    rw [longLiteral?] <;> simp_all [isForbidden]

theorem longLiteral?_close {rest : List Char} (after : rest.head? ≠ some '\'') :
    longLiteral? (longSingle ++ rest) = some ([], rest) := by
  match rest, after with
  | [], _ => rfl
  | c :: rest, after =>
    have other : c ≠ '\'' := by simpa using after
    simp [longSingle, longLiteral?, other]

theorem singles_at_end {chars rest : List Char} (h : ['\'', '\''] <+: chars ++ (longSingle ++ rest))
    (runs : longestRun '\'' ('\'' :: chars) 0 ≤ 2) : chars = [] ∨ chars = ['\''] := by
  match chars with
  | [] => exact .inl rfl
  | [c] =>
    obtain ⟨rfl, -⟩ := List.cons_prefix_cons.mp h
    exact .inr rfl
  | c :: d :: chars =>
    obtain ⟨rfl, second⟩ := List.cons_prefix_cons.mp h
    obtain ⟨rfl, -⟩ := List.cons_prefix_cons.mp second
    have three := le_longestRun '\'' chars 3
    simp only [longestRun, ite_true, Nat.zero_add, Nat.reduceAdd] at runs
    omega

theorem longLiteral?_plain {chars : List Char} (runs : longestRun '\'' chars 0 ≤ 2)
    (plain : ∀ c ∈ chars, isForbidden c = false) {rest : List Char} (after : rest.head? ≠ some '\'') :
    longLiteral? (chars ++ (longSingle ++ rest)) = some (chars, rest) := by
  have other : ∀ more, rest = '\'' :: more → False := by
    rintro more rfl
    exact after rfl
  induction chars with
  | nil => exact longLiteral?_close after
  | cons c chars ih =>
    rw [List.forall_mem_cons] at plain
    have ih := ih (Nat.le_trans (longestRun_tail_le _ c chars) runs) plain.2
    by_cases quote : c = '\''
    · subst quote
      by_cases closing : ['\'', '\''] <+: chars ++ (longSingle ++ rest)
      · obtain rfl | rfl := singles_at_end closing runs
        · simp [longSingle, longLiteral?]
        · simp [longSingle, longLiteral?]
      · rw [List.cons_append, longLiteral?_quote closing, ih]
        rfl
    · simp [longLiteral?, quote, plain.1, ne_return plain.1, ih, prepend]

/-! ## The six forms -/

theorem dropFirstLine_firstLine {chars body : List Char}
    (h : '\n' ∉ chars → body.head? ∉ [some '\n', some '\r']) :
    dropFirstLine (firstLine chars ++ body) = body := by
  unfold firstLine
  split_ifs with line
  · rfl
  · match body, h line with
    | [], _ => rfl
    | c :: body, other =>
      have : c ≠ '\n' ∧ c ≠ '\r' := by simpa using other
      simp [dropFirstLine, this]

theorem quotation?_double {body : List Char} (h : ¬ ['"', '"'] <+: body) :
    quotation? ('"' :: body) = basic? body := by
  match body, h with
  | [], _ => rfl
  | [a], _ => simp [quotation?]
  | a :: b :: body, h =>
    have apart := apart h
    rw [quotation?]
    simp_all

theorem quotation?_single {body : List Char} (h : ¬ ['\'', '\''] <+: body) :
    quotation? ('\'' :: body) = literal? body := by
  match body, h with
  | [], _ => rfl
  | [a], _ => simp [quotation?]
  | a :: b :: body, h =>
    have apart := apart h
    rw [quotation?]
    simp_all

theorem quotation?_basic (chars : List Char) {rest : List Char} (after : rest.head? ≠ some '"') :
    quotation? (['"'] ++ escapeText false chars 0 ++ ['"'] ++ rest) = some (chars, rest) := by
  have short : ¬ ['"', '"'] <+: escapeText false chars 0 ++ '"' :: rest := by
    intro long
    match chars with
    | [] => exact after (head?_of_start (List.cons_prefix_cons.mp long).2)
    | c :: chars => exact head_escapeText_ne_quote (fun _ => Nat.le_refl 0) _ (head?_of_start long)
  simpa using (quotation?_double short).trans (basic?_escapeText chars 0 rest)

theorem quotation?_literal {chars : List Char} (quote : '\'' ∉ chars) (line : '\n' ∉ chars)
    (plain : ∀ c ∈ chars, isForbidden c = false) {rest : List Char} (after : rest.head? ≠ some '\'') :
    quotation? (['\''] ++ chars ++ ['\''] ++ rest) = some (chars, rest) := by
  have short : ¬ ['\'', '\''] <+: chars ++ '\'' :: rest := by
    intro long
    match chars with
    | [] => exact after (head?_of_start (List.cons_prefix_cons.mp long).2)
    | c :: chars => exact quote ((List.cons_prefix_cons.mp long).1 ▸ List.mem_cons_self)
  simpa using (quotation?_single short).trans (literal?_plain quote line plain rest)

theorem head_escapeText_ne_line {chars : List Char} (line : '\n' ∉ chars) (rest : List Char) :
    (escapeText true chars 0 ++ (longDouble ++ rest)).head? ∉ [some '\n', some '\r'] := by
  match chars with
  | [] => simp [escapeText, longDouble]
  | c :: chars =>
    have other : c ≠ '\n' := fun h => line (h ▸ List.mem_cons_self)
    by_cases quote : c = '"'
    · simp [escapeText, quote]
    · rw [escapeText, if_neg quote, List.append_assoc]
      exact head_ne_line other (escape_escapeChar true c) _

theorem quotation?_longBasic (chars : List Char) {rest : List Char} (after : rest.head? ≠ some '"') :
    quotation? (longDouble ++ firstLine chars ++ escapeText true chars 0 ++ longDouble ++ rest)
      = some (chars, rest) := by
  have kept : dropFirstLine (firstLine chars ++ (escapeText true chars 0 ++ (longDouble ++ rest)))
      = escapeText true chars 0 ++ (longDouble ++ rest) :=
    dropFirstLine_firstLine fun line => head_escapeText_ne_line line rest
  rw [← longBasic?_escapeText chars 0 after, ← kept]
  simp [longDouble, quotation?]

theorem quotation?_longLiteral {chars : List Char} (runs : longestRun '\'' chars 0 ≤ 2)
    (plain : ∀ c ∈ chars, isForbidden c = false) {rest : List Char} (after : rest.head? ≠ some '\'') :
    quotation? (longSingle ++ firstLine chars ++ chars ++ longSingle ++ rest) = some (chars, rest) := by
  have kept : dropFirstLine (firstLine chars ++ (chars ++ (longSingle ++ rest)))
      = chars ++ (longSingle ++ rest) := by
    apply dropFirstLine_firstLine
    intro line
    match chars with
    | [] => simp [longSingle]
    | c :: chars =>
      have other : c ≠ '\n' := fun h => line (h ▸ List.mem_cons_self)
      simp [other, ne_return (plain c List.mem_cons_self)]
  have found := longLiteral?_plain runs plain after
  rw [← kept] at found
  simpa [longSingle, quotation?] using found

/-- Whatever form a text is written in, it is read back, and nothing past it. -/
theorem quotation?_writeChars (chars : List Char) {rest : List Char}
    (double : rest.head? ≠ some '"') (single : rest.head? ≠ some '\'') :
    quotation? (writeChars chars ++ rest) = some (chars, rest) := by
  have plain_of (h : (!chars.any isForbidden) = true) : ∀ c ∈ chars, isForbidden c = false := by
    simpa using h
  simp only [writeChars]
  split_ifs with h1 h2 h3 h4 h5
  · exact quotation?_basic chars double
  · exact quotation?_literal (notMem_of_longestRun h2.2.1) h2.2.2 (plain_of h2.1) single
  · exact quotation?_longBasic chars double
  · exact quotation?_longLiteral h4.2 (plain_of h4.1) single
  · exact quotation?_longBasic chars double
  · exact quotation?_basic chars double

end DirectoryWatch.Toml
