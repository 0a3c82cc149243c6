/-!
# Hexadecimal digits

Both cases are read; lower case is written.  `hexBytes` reads two digits to the byte, the high one
first, and `writeHexBytes` is its inverse on lower-case text.
-/

namespace SqlBuilder

/-- The value of a hexadecimal digit. -/
def hexValue? (c : Char) : Option Nat :=
  if '0' ≤ c && c ≤ '9' then some (c.toNat - '0'.toNat)
  else if 'a' ≤ c && c ≤ 'f' then some (c.toNat - 'a'.toNat + 10)
  else if 'A' ≤ c && c ≤ 'F' then some (c.toNat - 'A'.toNat + 10)
  else none

/-- The lower-case digit of a number below sixteen. -/
def hexDigit (n : Nat) : Char :=
  Nat.digitChar n

/-- The bytes that a text of hexadecimal digits spells. -/
def hexBytes : List Char → Option (List UInt8)
  | [] => some []
  | [_] => none
  | a :: b :: cs => do
    let high ← hexValue? a
    let low ← hexValue? b
    let rest ← hexBytes cs
    return UInt8.ofNat (16 * high + low) :: rest

/-- The two lower-case digits of a byte. -/
def hexOfByte (b : UInt8) : List Char :=
  [hexDigit (b.toNat / 16), hexDigit (b.toNat % 16)]

/-- The lower-case digits of some bytes. -/
def writeHexBytes (bs : List UInt8) : List Char :=
  bs.flatMap hexOfByte

end SqlBuilder
