import LinkTemplate.Text.Alphabet

/-!
# Triplets

A triplet is a well-formed escape, `%` and two hex digits. `startsTriplet` asks for one at the
head of a text. `tripletAt` asks for one at a position; positions may count from the end of the
text, `-1` being its last character, and a position that falls before the start has no answer.
-/

namespace LinkTemplate.Percent

variable {α : Type} [Alphabet α]

/-- The text begins with `%` and two hex digits. -/
def startsTriplet : List α → Bool
  | a :: b :: c :: _ => isPercent a && isHexDigit b && isHexDigit c
  | _ => false

/-- The character at a position, counted from the end when negative. -/
def charAt? (text : List α) (i : Int) : Option α :=
  let j := if i < 0 then i + text.length else i
  if j < 0 then none else text[j.toNat]?

/-- Whether a triplet stands at position `i`, the characters being looked at one after the other
until one is wrong. No answer if one that is looked at lies outside the text. -/
def tripletAt (text : List α) (i : Int) : Option Bool :=
  if i + 2 < text.length then do
    let a ← charAt? text i
    if !isPercent a then return false
    let b ← charAt? text (i + 1)
    if !isHexDigit b then return false
    let c ← charAt? text (i + 2)
    return isHexDigit c
  else
    return false

end LinkTemplate.Percent
