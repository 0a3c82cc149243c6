import SqlBuilder.Number.Double

/-!
# The shortest decimal of a double

`Double.shortest` finds, among the decimals that round to a given finite number, one with the
fewest digits, and of those the nearest; of two equally near ones it takes the one with the even
last digit.  For each count of digits only the two neighbours of the value on the grid of that
count can qualify, and seventeen digits always suffice.
-/

namespace SqlBuilder

/-- The count of decimal digits of a number; zero has one. -/
def decimalLength (n : Nat) : Nat :=
  (Nat.toDigits 10 n).length

namespace Double

/-- The reals that round to a positive finite number, as multiples of `1 / den`. -/
structure Basin where
  low : Nat
  value : Nat
  high : Nat
  den : Nat
  /-- Whether the ends round to the number too. -/
  closed : Bool

/-- The basin of a finite number that is not zero, without its sign.  The gap below a power of two
is half the gap above it, unless it is the least one. -/
def basin (x : Double) : Basin :=
  let (m, e) := BinaryFormat.double.parts x.magnitude
  let narrow := m == twoTo 52 && -1074 < e
  let (scale, den) := if 0 ≤ e then (twoTo e.toNat, 4) else (1, 4 * twoTo (-e).toNat)
  { low := (4 * m - if narrow then 1 else 2) * scale
    value := 4 * m * scale
    high := (4 * m + 2) * scale
    den := den
    closed := m % 2 == 0 }

/-- The exponent of the leading decimal digit of a positive quotient. -/
def leadingExponent (num den : Nat) : Int :=
  if den ≤ num then (decimalLength (num / den) : Int) - 1
  else -(decimalLength ((den - 1) / num) : Int)

/-- The decimal `d · 10 ^ k` as a multiple of `1 / den`, kept exact as a quotient: the numerator
and the factor by which the basin has to grow to be compared with it. -/
def gridPoint (den d : Nat) (k : Int) : Nat × Nat :=
  if 0 ≤ k then (d * tenTo k.toNat * den, 1) else (d * den, tenTo (-k).toNat)

/-- Whether `d · 10 ^ k` lies in the basin. -/
def Basin.contains (b : Basin) (d : Nat) (k : Int) : Bool :=
  let (p, f) := gridPoint b.den d k
  if b.closed then b.low * f ≤ p && p ≤ b.high * f else b.low * f < p && p < b.high * f

/-- The decimal with exponent `k` that lies in the basin and is nearest to its value, if any. -/
def Basin.nearest (b : Basin) (k : Int) : Option Nat :=
  let d :=
    if 0 ≤ k then b.value / (b.den * tenTo k.toNat) else b.value * tenTo (-k).toNat / b.den
  match b.contains d k, b.contains (d + 1) k with
  | false, false => none
  | true, false => some d
  | false, true => some (d + 1)
  | true, true =>
    let (p, f) := gridPoint b.den d k
    let (p', _) := gridPoint b.den (d + 1) k
    let below := b.value * f - p
    let above := p' - b.value * f
    if below < above || (below == above && d % 2 == 0) then some d else some (d + 1)

/-- Tries the grids from the one with exponent `k` on towards finer ones. -/
def Basin.search (b : Basin) : Nat → Int → Nat × Int
  | 0, k => (b.value * tenTo (-k).toNat / b.den, k)
  | n + 1, k =>
    match b.nearest k with
    | some d => (d, k)
    | none => b.search n (k - 1)

/-- A decimal without trailing zeros in its digits. -/
def stripZeros : Nat → Nat × Int → Nat × Int
  | 0, p => p
  | n + 1, (d, k) => if d % 10 = 0 then stripZeros n (d / 10, k + 1) else (d, k)

/-- The digits and the exponent of the last digit of the shortest decimal that rounds to a finite
number that is not zero, without its sign. -/
def shortest (x : Double) : Nat × Int :=
  let b := x.basin
  stripZeros 17 (b.search 17 (leadingExponent b.value b.den))

end Double

end SqlBuilder
