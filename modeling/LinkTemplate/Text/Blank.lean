import LinkTemplate.Text.Alphabet

/-!
# Blanks

The characters that are trimmed from the ends of a setting: the Unicode white space, and the
four ASCII separators `0x1C` to `0x1F`. The zero-width space `0x200B` and the byte-order mark
`0xFEFF` are not among them.
-/

namespace LinkTemplate.Text

/-- The ranges of blank characters. -/
def blanks : List (Nat × Nat) :=
  [(0x09, 0x0D), (0x1C, 0x20), (0x85, 0x85), (0xA0, 0xA0), (0x1680, 0x1680), (0x2000, 0x200A),
    (0x2028, 0x2029), (0x202F, 0x202F), (0x205F, 0x205F), (0x3000, 0x3000)]

def isBlank (c : Char) : Bool := blanks.any fun (low, high) => low ≤ c.toNat && c.toNat ≤ high

/-- The text without the blanks at its two ends. -/
def trim (text : Text) : Text :=
  ((text.dropWhile isBlank).reverse.dropWhile isBlank).reverse

end LinkTemplate.Text
