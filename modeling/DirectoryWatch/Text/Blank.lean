/-!
# White space

The characters of the Unicode property White_Space, and what is left of a text without them at
its ends.
-/

namespace DirectoryWatch.Text

/-- The ranges of White_Space, ends included. -/
def blankRanges : List (Nat × Nat) :=
  [(0x9, 0xD), (0x20, 0x20), (0x85, 0x85), (0xA0, 0xA0), (0x1680, 0x1680), (0x2000, 0x200A),
    (0x2028, 0x2029), (0x202F, 0x202F), (0x205F, 0x205F), (0x3000, 0x3000)]

def isBlankChar (c : Char) : Bool := blankRanges.any fun (low, high) => low ≤ c.toNat && c.toNat ≤ high

/-- Nothing but white space, or nothing at all. -/
def isBlank (text : String) : Bool := text.toList.all isBlankChar

/-- The text without the white space at its end. -/
def trimEnd (chars : List Char) : List Char :=
  (chars.reverse.dropWhile isBlankChar).reverse

end DirectoryWatch.Text
