import LinkTemplate.Text.Alphabet

/-!
# Letter case

Names of levels are matched in capitals and flag words in small letters, both after the Unicode
case maps. Only ASCII words are ever matched, so the maps below carry just the characters whose
image is ASCII and leave every other character alone: an image that is not ASCII matches no
word either way.

To capitals, these are the ASCII letters, the dotless `ı`, the long `ſ`, the sharp `ß` and the
Latin ligatures. To small letters, they are the ASCII letters and the Kelvin sign.
-/

namespace LinkTemplate.Text

/-- The capitals of a character, where they are ASCII. -/
def capital (c : Char) : Text :=
  if 'a' ≤ c ∧ c ≤ 'z' then [Char.ofNat (c.toNat - 0x20)]
  else match c with
    | 'ı' => ['I']
    | 'ſ' => ['S']
    | 'ß' => ['S', 'S']
    | 'ﬀ' => ['F', 'F']
    | 'ﬁ' => ['F', 'I']
    | 'ﬂ' => ['F', 'L']
    | 'ﬃ' => ['F', 'F', 'I']
    | 'ﬄ' => ['F', 'F', 'L']
    | 'ﬅ' => ['S', 'T']
    | 'ﬆ' => ['S', 'T']
    | c => [c]

/-- A text in capitals. -/
def capitals (text : Text) : Text := text.flatMap capital

/-- The small letter of a character, where it is ASCII. -/
def small (c : Char) : Char :=
  if 'A' ≤ c ∧ c ≤ 'Z' then Char.ofNat (c.toNat + 0x20)
  else if c = '\u212A' then 'k'
  else c

/-- A text in small letters. -/
def smalls (text : Text) : Text := text.map small

end LinkTemplate.Text
