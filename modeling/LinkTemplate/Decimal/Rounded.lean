import LinkTemplate.Decimal.Scale

/-!
# Decimals of a set precision

A double can be written with as many digits as one asks for: the decimal of that many digits
that lies nearest to it, of two equally near ones the one with the even last digit.

What the precision counts depends on the style. The positional style counts the places behind
the point, the scientific style those behind the point of a number with one digit before it. The
general style counts all digits that carry weight, at least one; it is positional while the first
digit stands neither too far behind the point nor further in front of it than there are digits,
scientific otherwise, and leaves out zeros at the end of the fraction.

A point without digits behind it is left out. Both omissions can be forbidden by asking for a
number *in full*.
-/

namespace LinkTemplate.Decimal

/-- What a precision counts. -/
inductive Style where
  | positional
  | scientific
  | general
  deriving DecidableEq, Inhabited

/-- A whole part and a fraction, the point in between. -/
def withFraction (full : Bool) (whole fraction : Text) : Text :=
  if fraction.isEmpty && !full then whole else whole ++ '.' :: fraction

/-- `m · 2 ^ q` with a number of places behind the point. -/
def positionalText (full : Bool) (places m : Nat) (q : Int) : Text :=
  let digits := natText (inTens m q (-places))
  let digits := List.replicate (places + 1 - digits.length) '0' ++ digits
  withFraction full (digits.take (digits.length - places)) (digits.drop (digits.length - places))

/-- The first `count` digits of `m · 2 ^ q`, rounded, and the exponent of the first one. Rounding
up to a power of ten moves the first digit by one place. -/
def leadingDigits (count m : Nat) (q : Int) : Text × Int :=
  if m = 0 then (List.replicate count '0', 0)
  else
    let lead := leadingExponent m q
    let digits := natText (inTens m q (lead + 1 - count))
    if digits.length ≤ count then (digits, lead) else (digits.take count, lead + 1)

/-- An exponent behind its mark. -/
def exponentMarked (exponent : Int) : Text := 'e' :: Numeral.exponentText 2 exponent

/-- `m · 2 ^ q` with one digit before the point and a number of places behind it. -/
def scientificText (full : Bool) (places m : Nat) (q : Int) : Text :=
  let (digits, lead) := leadingDigits (places + 1) m q
  withFraction full (digits.take 1) (digits.drop 1) ++ exponentMarked lead

/-- The furthest place behind the point that the general style lets the first digit have. -/
def furthestPlace : Int := 4

/-- `m · 2 ^ q` with a number of digits, in the style that suits its size. -/
def generalText (full : Bool) (precision m : Nat) (q : Int) : Text :=
  let count := max 1 precision
  let (digits, lead) := leadingDigits count m q
  let fraction (digits : Text) : Text := if full then digits else dropFinalZeros digits
  if -furthestPlace ≤ lead ∧ lead < count then
    let digits := List.replicate (-lead).toNat '0' ++ digits
    let whole := lead.toNat + 1
    withFraction full (digits.take whole) (fraction (digits.drop whole))
  else withFraction full (digits.take 1) (fraction (digits.drop 1)) ++ exponentMarked lead

/-- A double without its sign, rounded to a precision. Only a finite one has digits. -/
def roundedText (style : Style) (full : Bool) (precision : Nat) : Binary64 → Text
  | .finite _ m q =>
    match style with
    | .positional => positionalText full precision m q
    | .scientific => scientificText full precision m q
    | .general => generalText full precision m q
  | .infinity _ => "inf".toList
  | .nan => "nan".toList

end LinkTemplate.Decimal
