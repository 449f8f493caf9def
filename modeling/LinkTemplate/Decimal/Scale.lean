import LinkTemplate.Decimal.Binary64

/-!
# Doubles on a decimal scale

To write a double in decimal one must know where its first digit stands and what it comes to in
units of a power of ten. Both questions are settled here by comparing products of natural
numbers; no approximation enters.
-/

namespace LinkTemplate.Decimal

/-- `n · base ^ exponent` as a fraction. -/
def scaled (base n : Nat) (exponent : Int) : Nat × Nat :=
  if exponent < 0 then (n, base.pow exponent.natAbs) else (n * base.pow exponent.natAbs, 1)

/-- `10 ^ k ≤ m · 2 ^ q`. -/
def tenPowLe (k : Int) (m : Nat) (q : Int) : Bool :=
  let (a, b) := scaled 10 1 k
  let (c, d) := scaled 2 m q
  a * d ≤ c * b

/-- Raise `k` while its successor is still small enough, at most `fuel` times. -/
def climb (m : Nat) (q : Int) : Nat → Int → Int
  | 0, k => k
  | fuel + 1, k => if tenPowLe (k + 1) m q then climb m q fuel (k + 1) else k

/-- The greatest `k` with `10 ^ k ≤ m · 2 ^ q`. The estimate from the binary logarithm is never
too large and misses by two at most. -/
def leadingExponent (m : Nat) (q : Int) : Int :=
  climb m q 4 (Int.fdiv (((m.log2 : Int) + q) * 30103) 100000 - 1)

/-- `m · 2 ^ q` in units of `10 ^ k`, to the nearest whole number. -/
def inTens (m : Nat) (q k : Int) : Nat :=
  let (twos, twosBelow) := scaled 2 m q
  let (tens, tensBelow) := scaled 10 1 k
  Binary64.roundHalfEven (twos * tensBelow) (twosBelow * tens)

end LinkTemplate.Decimal
