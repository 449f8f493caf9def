import LinkTemplate.Decimal.Numeral

/-!
# Double-precision numbers

A finite double is `significand · 2 ^ exponent` with a significand below `2 ^ 53` and an
exponent from `-1074` to `971`, kept in the form with the smallest exponent that leaves the
significand whole: below `2 ^ 52` only where the exponent is `-1074`.

Nothing here is computed in floating point. A numeral is rounded to the nearest double by exact
arithmetic on natural numbers, halves going to the even significand.
-/

namespace LinkTemplate

/-- A double-precision number. -/
inductive Binary64 where
  /-- `significand · 2 ^ exponent`, negated if `negative`. -/
  | finite (negative : Bool) (significand : Nat) (exponent : Int)
  | infinity (negative : Bool)
  | nan
  deriving DecidableEq, Inhabited

namespace Binary64

/-- The whole number nearest to `num / den`, the even one of two. -/
def roundHalfEven (num den : Nat) : Nat :=
  let floor := num / den
  let rest := num % den
  if 2 * rest < den then floor
  else if den < 2 * rest then floor + 1
  else if floor % 2 = 0 then floor else floor + 1

/-- What is rounded lies within half a unit of the result. -/
theorem roundHalfEven_near {den : Nat} (num : Nat) (h : 0 < den) :
    2 * (den * roundHalfEven num den) ≤ 2 * num + den ∧
      2 * num ≤ 2 * (den * roundHalfEven num den) + den := by
  have whole : den * (num / den) + num % den = num := Nat.div_add_mod num den
  have rest : num % den < den := Nat.mod_lt num h
  have next : den * (num / den + 1) = den * (num / den) + den := Nat.mul_succ _ _
  simp only [roundHalfEven]
  split
  · omega
  split
  · omega
  split <;> omega

/-- `num / den` in units of `2 ^ exponent`, as a fraction. -/
def inUnits (num den : Nat) (exponent : Int) : Nat × Nat :=
  if exponent < 0 then (num * Nat.pow 2 exponent.natAbs, den)
  else (num, den * Nat.pow 2 exponent.natAbs)

/-- The exponent at which `num / den` has a significand of 53 bits, or the least exponent. -/
def exponentFor (num den : Nat) : Int :=
  let guess := max (-1074) ((num.log2 : Int) - den.log2 - 53)
  let (n, d) := inUnits num den guess
  if Nat.pow 2 53 ≤ n / d then guess + 1 else guess

/-- The double nearest to `num / den`. -/
def nearest (negative : Bool) (num den : Nat) : Binary64 :=
  let exponent := exponentFor num den
  let (n, d) := inUnits num den exponent
  let significand := roundHalfEven n d
  let (significand, exponent) :=
    if significand = Nat.pow 2 53 then (Nat.pow 2 52, exponent + 1) else (significand, exponent)
  if 971 < exponent then infinity negative else finite negative significand exponent

/-- The double nearest to a whole number. -/
def ofInt (n : Int) : Binary64 := nearest (n < 0) n.natAbs 1

/-- The double nearest to a numeral. Beyond four hundred places before or behind the point no
power of ten is computed: the double is infinite or zero. -/
def ofNumeral : Numeral → Binary64
  | .finite negative coefficient exponent =>
    let places := exponent + (Decimal.natText coefficient).length
    if coefficient = 0 ∨ places < -400 then finite negative 0 (-1074)
    else if 400 < places then infinity negative
    else if exponent < 0 then nearest negative coefficient (Nat.pow 10 exponent.natAbs)
    else nearest negative (coefficient * Nat.pow 10 exponent.natAbs) 1
  | .infinity negative => infinity negative
  | .nan .. => nan

/-- The sign is a minus; not-a-number has none. -/
def isNegative : Binary64 → Bool
  | finite negative _ _ => negative
  | infinity negative => negative
  | nan => false

/-- The double nearest to the number that a text stands for. -/
def read? (text : Text) : Option Binary64 := (Numeral.read? text).map ofNumeral

end Binary64

end LinkTemplate
