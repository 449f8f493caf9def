import LinkTemplate.Text.Digit

/-!
# Whole numbers as text

Numbers are written in decimal without leading zeros. Two conversions are refused rather than
carried out at any cost: writing a number of more than `maxDigits` digits, and reading that many
digits. The count for reading takes leading zeros along and leaves sign and underscores out.
-/

namespace LinkTemplate.Decimal

open LinkTemplate.Text

/-- The most digits a number may have when it is read or written. -/
def maxDigits : Nat := 4300

/-- A natural number in decimal. -/
def natText (n : Nat) : Text := Nat.toDigits 10 n

/-- A whole number in decimal, with `-` in front if it is negative. -/
def intText (n : Int) : Text := if n < 0 then '-' :: natText n.natAbs else natText n.natAbs

/-- Digits without the zeros at their end. -/
def dropFinalZeros (digits : Text) : Text := (digits.reverse.dropWhile (· = '0')).reverse

/-- The number can be written within the digit limit. -/
def withinDigits (n : Int) : Bool := n.natAbs < Nat.pow 10 maxDigits

theorem withinDigits_iff {n : Int} :
    withinDigits n = true ↔ (natText n.natAbs).length ≤ maxDigits := by
  rw [natText, Nat.length_toDigits_le_iff (by decide) (by decide), withinDigits,
    decide_eq_true_eq, Nat.pow_eq]

/-- A whole number in decimal, within the digit limit. -/
def intText? (n : Int) : Option Text := if withinDigits n then some (intText n) else none

/-- The number with the given decimal digits, the most significant first. -/
def ofDigits (digits : List Nat) : Nat := digits.foldl (fun n d => 10 * n + d) 0

/-- Decimal digits of any script, with at most one underscore between two of them. -/
def digits? : Text → Option (List Nat)
  | [] => none
  | [c] => (decimalValue? c).map ([·])
  | c :: '_' :: rest => do
    let d ← decimalValue? c
    let more ← digits? rest
    return d :: more
  | c :: rest => do
    let d ← decimalValue? c
    let more ← digits? rest
    return d :: more

/-- The number that digits stand for, within the digit limit. -/
def readNat? (text : Text) : Option Nat := do
  let digits ← digits? text
  if digits.length ≤ maxDigits then some (ofDigits digits) else none

/-- The number that a text stands for: an optional sign, then digits. -/
def readInt? : Text → Option Int
  | '-' :: rest => (readNat? rest).map fun n => -(n : Int)
  | '+' :: rest => (readNat? rest).map fun n => (n : Int)
  | text => (readNat? text).map fun n => (n : Int)

end LinkTemplate.Decimal
