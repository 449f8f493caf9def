import LinkTemplate.Decimal.Integer
import LinkTemplate.Text.Blank
import LinkTemplate.Text.Case
import LinkTemplate.Text.Cut

/-!
# Decimal numerals

A numeral keeps its digits as they were given: `1.50` and `1.5` are two numerals of one value.
It is a coefficient scaled by a power of ten, or one of the special values infinity and
not-a-number, the latter with an optional diagnostic number.

A numeral is written positionally when its exponent is at most zero and its first digit stands
at most six places behind the point, and in scientific notation otherwise.
-/

namespace LinkTemplate

open Decimal Text

/-- A decimal numeral. -/
inductive Numeral where
  /-- `coefficient · 10 ^ exponent`, negated if `negative`. -/
  | finite (negative : Bool) (coefficient : Nat) (exponent : Int)
  | infinity (negative : Bool)
  /-- Not a number; `diagnostic` zero is not shown. -/
  | nan (negative signaling : Bool) (diagnostic : Nat)
  deriving DecidableEq, Inhabited

namespace Numeral

/-! ## Writing -/

/-- A minus sign, if negative. -/
def signText (negative : Bool) : Text := if negative then ['-'] else []

/-- Digits with a decimal point after the first `point` of them; `point` may be zero or
negative, and zeros then lead. -/
def pointed (digits : Text) (point : Int) : Text :=
  if point ≤ 0 then '0' :: '.' :: List.replicate point.natAbs '0' ++ digits
  else digits.take point.toNat ++ '.' :: digits.drop point.toNat

/-- An exponent with its sign always shown and at least `width` digits. -/
def exponentText (width : Nat) (exponent : Int) : Text :=
  let digits := natText exponent.natAbs
  (if exponent < 0 then '-' else '+') :: List.replicate (width - digits.length) '0' ++ digits

/-- Digits in scientific notation, with a point after the first digit if more follow. -/
def scientific (mark : Char) (width : Nat) (digits : Text) (exponent : Int) : Text :=
  (if digits.length ≤ 1 then digits else pointed digits 1) ++ mark :: exponentText width exponent

/-- The digits and the exponent as they were given. -/
def toText : Numeral → Text
  | finite negative coefficient exponent =>
    let digits := natText coefficient
    let adjusted := exponent + digits.length - 1
    signText negative ++
      if exponent ≤ 0 ∧ -6 ≤ adjusted then
        if exponent = 0 then digits else pointed digits (digits.length + exponent)
      else scientific 'E' 1 digits adjusted
  | infinity negative => signText negative ++ "Infinity".toList
  | nan negative signaling diagnostic =>
    signText negative ++ (if signaling then "sNaN".toList else "NaN".toList) ++
      if diagnostic = 0 then [] else natText diagnostic

/-! ## Reading -/

/-- The values of decimal digits of any script; none at all is allowed. -/
def digitValues? (text : Text) : Option (List Nat) := text.mapM decimalValue?

/-- At least one digit. -/
def readDigits? (text : Text) : Option Nat :=
  if text.isEmpty then none else (digitValues? text).map ofDigits

/-- The exponent behind `e`: an optional sign, then digits. -/
def readExponent? : Text → Option Int
  | '-' :: rest => (readDigits? rest).map fun n => -(n : Int)
  | '+' :: rest => (readDigits? rest).map fun n => (n : Int)
  | text => (readDigits? text).map fun n => (n : Int)

/-- Digits with an optional point and an optional exponent. -/
def readFinite? (negative : Bool) (text : Text) : Option Numeral := do
  let (mantissa, exponent) ← match cut 'e' text with
    | none => some (text, (0 : Int))
    | some (mantissa, exponent) => (readExponent? exponent).map (mantissa, ·)
  let (whole, fraction) := (cut '.' mantissa).getD (mantissa, [])
  let whole ← digitValues? whole
  let fraction ← digitValues? fraction
  if whole.isEmpty && fraction.isEmpty then none
  else return finite negative (ofDigits (whole ++ fraction)) (exponent - fraction.length)

/-- A numeral without its sign, in small letters. -/
def readUnsigned? (negative : Bool) (text : Text) : Option Numeral :=
  if text = "inf".toList ∨ text = "infinity".toList then some (infinity negative)
  else if "nan".toList.isPrefixOf text then
    (digitValues? (text.drop 3)).map fun ds => nan negative false (ofDigits ds)
  else if "snan".toList.isPrefixOf text then
    (digitValues? (text.drop 4)).map fun ds => nan negative true (ofDigits ds)
  else readFinite? negative text

/-- The numeral that a text stands for, blanks at its ends and underscores left out. -/
def read? (text : Text) : Option Numeral :=
  match smalls ((trim text).filter (· ≠ '_')) with
  | '-' :: rest => readUnsigned? true rest
  | '+' :: rest => readUnsigned? false rest
  | rest => readUnsigned? false rest

end Numeral

end LinkTemplate
