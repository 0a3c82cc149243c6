import SqlBuilder.Json.Basic
import SqlBuilder.Text.Digits

/-!
# Numerals

A `Numeral` is a written number taken apart: sign, digits before and after the point, exponent.
`Numeral.value` is the number that it denotes.  A numeral of digits only is an integer if it fits.
Every other numeral is a double: its digits are gathered into a significand below two to the power
64, digits that no longer fit are dropped and only counted, and the significand is multiplied or
divided by powers of ten of at most 308, with a rounding at each step.
-/

namespace SqlBuilder

namespace Json

/-- The parts of a written number. -/
structure Numeral where
  negative : Bool
  whole : List Char
  /-- The digits after the point; empty if there is no point. -/
  fraction : List Char
  /-- The sign and the digits of the exponent. -/
  exponent : Option (Bool × List Char)

namespace Numeral

/-- Appends digits to a significand as long as it stays below two to the power 64, and gives the
digits that are left. -/
def gather : Nat → List Char → Nat × List Char
  | n, [] => (n, [])
  | n, c :: cs =>
    let n' := 10 * n + digitValue c
    if n' < twoTo 64 then gather n' cs else (n, c :: cs)

/-- The greatest exponent that is taken at its value. -/
def maxExponent : Nat := twoTo 31 - 1

/-- A number if it is finite. -/
def finite? (x : Double) : Option Number :=
  if h : x.isFinite = true then some (.double x h) else none

/-- An integer if it fits. -/
def integer? (i : Int) : Option Number :=
  if h : -9223372036854775808 ≤ i ∧ i < 18446744073709551616 then
    some (.integer i h.1 h.2)
  else none

/-- The double `n · 10 ^ e`, computed from the double nearest to `n` by steps of at most 308
powers of ten; a significand below two to the power 64 is gone after two steps down. -/
def scaled (n : Nat) (e : Int) : Option Double :=
  let x := Double.ofInt n
  let k := e.natAbs
  if 0 ≤ e then
    if k ≤ 308 then some (x.timesTenPow k) else if x.isZero then some x else none
  else if k ≤ 308 then some (x.overTenPow k)
  else if k ≤ 616 then some ((x.overTenPow 308).overTenPow (k - 308))
  else some ((x.overTenPow 308).overTenPow 308)

/-- The finite double with a sign and a value. -/
def signed (negative : Bool) (x : Double) : Option Number :=
  finite? (if negative then x.neg else x)

/-- The number of a significand, the exponent of its last digit and a written exponent. -/
def withExponent (negative : Bool) (n : Nat) (e : Int) : Option (Bool × List Char) → Option Number
  | none => (scaled n e).bind (signed negative)
  | some (down, digits) =>
    let k := digitsValue digits
    if k ≤ maxExponent then
      (scaled n (if down then e - k else e + k)).bind (signed negative)
    else if n = 0 || down then signed negative (Double.ofInt 0)
    else none

/-- The number that a numeral denotes; none if it is beyond the range of doubles. -/
def value (s : Numeral) : Option Number :=
  let (n, left) := gather 0 s.whole
  if left.isEmpty && s.fraction.isEmpty && s.exponent.isNone then
    if s.negative && (n = 0 || twoTo 63 < n) then signed true (Double.ofInt n)
    else integer? (if s.negative then -n else n)
  else
    let (n', left') := gather n s.fraction
    let e : Int := (left.length : Int) - (s.fraction.length - left'.length : Nat)
    withExponent s.negative n' e s.exponent

end Numeral

end Json

end SqlBuilder
