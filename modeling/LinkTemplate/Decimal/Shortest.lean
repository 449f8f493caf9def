import LinkTemplate.Decimal.Scale

/-!
# Shortest decimal form of a double

Many decimals round to the same double. The one that is written has the fewest digits of them
all and, among those of that length, lies nearest to the double; of two equally near ones it is
the one with the even last digit.

The reals that round to `m · 2 ^ q` form an interval around it, whose ends belong to it when `m`
is even. Decimals of a given length lie on a grid, and if any point of a grid falls into the
interval then so does one of the two neighbours of the double on that grid. So `shortest` tries
grid after grid, from one digit to seventeen, and looks at two points of each. All comparisons
are exact.
-/

namespace LinkTemplate.Decimal

/-- The interval of the reals that round to `m · 2 ^ q`, in quarters of `2 ^ q`: its lower end,
its upper end, and whether the ends belong to it. The double below a power of two is nearer than
the one above it. -/
structure Interval where
  low : Nat
  high : Nat
  closed : Bool

def Interval.around (m : Nat) (q : Int) : Interval where
  low := if m = Nat.pow 2 52 ∧ -1074 < q then 4 * m - 1 else 4 * m - 2
  high := 4 * m + 2
  closed := m % 2 = 0

/-- The decimal on the grid of multiples of `10 ^ k` that lies nearest to `m · 2 ^ q`, if one
rounds to it. -/
def onGrid? (m : Nat) (q k : Int) : Option Nat :=
  let interval := Interval.around m q
  let (tens, tensBelow) := scaled 10 4 k
  let (twos, twosBelow) := scaled 2 1 q
  -- `c · 10 ^ k` and `x` quarters of `2 ^ q` compare as `c * unit` and `x * quarter`.
  let unit := tens * twosBelow
  let quarter := twos * tensBelow
  let inside (c : Nat) : Bool :=
    if interval.closed then
      interval.low * quarter ≤ c * unit && c * unit ≤ interval.high * quarter
    else interval.low * quarter < c * unit && c * unit < interval.high * quarter
  let value := 4 * m * quarter
  let floor := value / unit
  match inside floor, inside (floor + 1) with
  | false, false => none
  | true, false => some floor
  | false, true => some (floor + 1)
  | true, true =>
    let below := value - floor * unit
    let above := (floor + 1) * unit - value
    if below < above then some floor
    else if above < below then some (floor + 1)
    else if floor % 2 = 0 then some floor else some (floor + 1)

/-- The shortest decimal `c · 10 ^ k` that rounds to `m · 2 ^ q`, as `(c, k)`. -/
def shortest (m : Nat) (q : Int) : Nat × Int :=
  let lead := leadingExponent m q
  let grids := (List.range 17).map fun (extra : Nat) => lead - (extra : Int)
  (grids.findSome? fun k => (onGrid? m q k).map (·, k)).getD (m, q)

/-! ## The written form -/

/-- How a double is laid out: the leading exponents that are written positionally, the mark of
the exponent and the least number of its digits. -/
structure Layout where
  positionalFrom : Int
  positionalBelow : Int
  mark : Char
  exponentWidth : Nat

/-- Doubles are positional from one ten-thousandth up to below ten to the sixteenth; beyond, the
exponent has two digits at least. -/
def Layout.double : Layout where
  positionalFrom := -4
  positionalBelow := 16
  mark := 'e'
  exponentWidth := 2

/-- Digits and the exponent of the first one. A whole number gets `.0`. -/
def Layout.text (layout : Layout) (digits : Text) (lead : Int) : Text :=
  if layout.positionalFrom ≤ lead ∧ lead < layout.positionalBelow then
    if digits.length ≤ lead + 1 then
      digits ++ List.replicate (lead.toNat + 1 - digits.length) '0' ++ ['.', '0']
    else Numeral.pointed digits (lead + 1)
  else Numeral.scientific layout.mark layout.exponentWidth digits lead

end Decimal

/-- The shortest decimal form of a double. -/
def Binary64.toText : Binary64 → Text
  | finite negative 0 _ => Numeral.signText negative ++ "0.0".toList
  | finite negative m q =>
    let (c, k) := Decimal.shortest m q
    let digits := Decimal.natText c
    Numeral.signText negative ++
      Decimal.Layout.double.text (Decimal.dropFinalZeros digits) (k + digits.length - 1)
  | infinity negative => Numeral.signText negative ++ "inf".toList
  | nan => "nan".toList

end LinkTemplate
