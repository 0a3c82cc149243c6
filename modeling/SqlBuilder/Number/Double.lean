import SqlBuilder.Number.Binary

/-!
# Double-precision numbers

A `Double` is its sixty-four bits, so that the two zeros and all the words that are no number stay
apart.  Comparison (`ieeeEq`) and the conversions from and to single precision are defined on the
words; arithmetic is exact arithmetic on quotients, rounded once.
-/

namespace SqlBuilder

/-- A floating-point number of 64 bits, as its word. -/
structure Double where
  bits : UInt64
  deriving DecidableEq, Repr

namespace Double

/-- The word of the bit that holds the sign. -/
def signBit : Nat := twoTo 63

/-- The word without its sign. -/
def magnitude (x : Double) : Nat :=
  x.bits.toNat % signBit

/-- Whether the sign bit is set. -/
def isNegative (x : Double) : Bool :=
  signBit ≤ x.bits.toNat

/-- The number with the given sign and word without sign. -/
def ofMagnitude (negative : Bool) (word : Nat) : Double :=
  ⟨UInt64.ofNat ((if negative then signBit else 0) + word)⟩

/-- Whether the word stands for no number. -/
def isNaN (x : Double) : Bool :=
  BinaryFormat.double.infinity < x.magnitude

/-- Whether the word stands for a number, and not for infinity. -/
def isFinite (x : Double) : Bool :=
  x.magnitude < BinaryFormat.double.infinity

/-- Whether the number is zero, of either sign. -/
def isZero (x : Double) : Bool :=
  x.magnitude == 0

/-- Equality of numbers: the two zeros are equal and what is no number differs from all. -/
def ieeeEq (x y : Double) : Bool :=
  !x.isNaN && !y.isNaN && ((x.isZero && y.isZero) || x.bits == y.bits)

/-- The number nearest to a quotient of natural numbers. -/
def ofRatio (negative : Bool) (num den : Nat) : Double :=
  ofMagnitude negative (BinaryFormat.double.round num den)

/-- The number nearest to an integer. -/
def ofInt (i : Int) : Double :=
  ofRatio (i < 0) i.natAbs 1

/-- The value of a finite number without its sign, as numerator and denominator. -/
def ratio (x : Double) : Nat × Nat :=
  BinaryFormat.double.ratio x.magnitude

/-- The number nearest to a power of ten. -/
def tenPow (k : Nat) : Double :=
  ofRatio false (tenTo k) 1

/-- The product of a finite number with `tenPow k`, rounded. -/
def timesTenPow (x : Double) (k : Nat) : Double :=
  let (n, d) := x.ratio
  let (n', d') := (tenPow k).ratio
  ofRatio x.isNegative (n * n') (d * d')

/-- The quotient of a finite number by `tenPow k`, rounded. -/
def overTenPow (x : Double) (k : Nat) : Double :=
  let (n, d) := x.ratio
  let (n', d') := (tenPow k).ratio
  ofRatio x.isNegative (n * d') (d * n')

/-- The number with its sign changed. -/
def neg (x : Double) : Double :=
  ofMagnitude (!x.isNegative) x.magnitude

/-! ## Single precision -/

/-- The fraction bits of a word that is no number get this bit, which makes it a quiet one. -/
def quietBit : Nat := twoTo 51

/-- The number that a single-precision word stands for; the payload of a word that is no number is
kept. -/
def ofSingle (word : UInt32) : Double :=
  let negative : Bool := twoTo 31 ≤ word.toNat
  let m := word.toNat % twoTo 31
  if m < BinaryFormat.single.infinity then
    let (num, den) := BinaryFormat.single.ratio m
    ofRatio negative num den
  else if m = BinaryFormat.single.infinity then
    ofMagnitude negative BinaryFormat.double.infinity
  else
    let payload := (m - BinaryFormat.single.infinity) * twoTo 29
    ofMagnitude negative (BinaryFormat.double.infinity + (payload ||| quietBit))

/-- The single-precision word nearest to a number; the leading part of the payload of a word that
is no number is kept. -/
def toSingle (x : Double) : UInt32 :=
  let sign := if x.isNegative then twoTo 31 else 0
  let m := x.magnitude
  let word :=
    if x.isFinite then
      let (num, den) := x.ratio
      BinaryFormat.single.round num den
    else if x.isNaN then
      let payload := (m - BinaryFormat.double.infinity) / twoTo 29
      BinaryFormat.single.infinity + (payload ||| twoTo 22)
    else BinaryFormat.single.infinity
  UInt32.ofNat (sign + word)

end Double

end SqlBuilder
