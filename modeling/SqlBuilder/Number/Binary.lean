import SqlBuilder.Number.Power

/-!
# Binary floating-point formats

A `BinaryFormat` is one of the interchange formats: a significand of `precision` bits, a least
exponent, and the word of infinity.  `BinaryFormat.round` gives the word of the value of the format
that is nearest to a quotient of natural numbers, and of two equally near ones the one with an even
significand.  It works on exact quotients only, so its result depends on no machine arithmetic.
-/

namespace SqlBuilder

/-- The shape of a floating-point format, for values without sign. -/
structure BinaryFormat where
  /-- The number of bits of a significand, the leading one included. -/
  precision : Nat
  /-- The exponent of the unit of the smallest values, negated. -/
  leastExponent : Nat
  /-- The word of infinity. -/
  infinity : Nat

namespace BinaryFormat

/-- Numbers of 64 bits. -/
def double : BinaryFormat := ⟨53, 1074, 2047 * twoTo 52⟩

/-- Numbers of 32 bits. -/
def single : BinaryFormat := ⟨24, 149, 255 * twoTo 23⟩

/-- The natural number nearest to a quotient; a tie goes to the even one. -/
def roundDiv (num den : Nat) : Nat :=
  let q := num / den
  let r := num % den
  if 2 * r < den || (2 * r == den && q % 2 == 0) then q else q + 1

/-- The quotient `num / den` divided by two to the power `e`, as numerator and denominator. -/
def descale (num den : Nat) (e : Int) : Nat × Nat :=
  if 0 ≤ e then (num, den * twoTo e.toNat) else (num * twoTo (-e).toNat, den)

/-- The exponent of the unit in which a positive quotient has a significand of full length, or the
least exponent if that is greater. -/
def unitExponent (f : BinaryFormat) (num den : Nat) : Int :=
  let guess : Int := (Nat.log2 num : Int) - Nat.log2 den - (f.precision - 1 : Nat)
  let (n, d) := descale num den guess
  let e := if n / d < twoTo (f.precision - 1) then guess - 1 else guess
  max e (-(f.leastExponent : Int))

/-- The word of the value nearest to `num / den`; what is too large becomes infinity. -/
def round (f : BinaryFormat) (num den : Nat) : Nat :=
  if num = 0 then 0
  else
    let e := f.unitExponent num den
    let (n, d) := descale num den e
    min f.infinity ((e + f.leastExponent).toNat * twoTo (f.precision - 1) + roundDiv n d)

/-- The significand and the exponent of the unit of a finite word. -/
def parts (f : BinaryFormat) (word : Nat) : Nat × Int :=
  let step := twoTo (f.precision - 1)
  let biased := word / step
  if biased = 0 then (word % step, -(f.leastExponent : Int))
  else (step + word % step, (biased : Int) - 1 - f.leastExponent)

/-- The value of a finite word, as numerator and denominator. -/
def ratio (f : BinaryFormat) (word : Nat) : Nat × Nat :=
  let (m, e) := f.parts word
  if 0 ≤ e then (m * twoTo e.toNat, 1) else (m, twoTo (-e).toNat)

end BinaryFormat

end SqlBuilder
