import SqlBuilder.Text.Hex

/-!
# Universally unique identifiers

Sixteen bytes.  They are written in lower case with hyphens after the fourth, sixth, eighth and
tenth byte, and read in any case from that form, from thirty-two bare digits, from the form between
braces and from the form after `urn:uuid:`, whose letters may be in any case too.
-/

namespace SqlBuilder

/-- An identifier of sixteen bytes. -/
structure Uuid where
  bytes : List UInt8
  length_eq : bytes.length = 16
  deriving DecidableEq

namespace Uuid

/-- The identifier of the given bytes, if they are sixteen. -/
def ofBytes (bs : List UInt8) : Option Uuid :=
  if h : bs.length = 16 then some ⟨bs, h⟩ else none

/-- The five runs of digits of the written form. -/
def write (u : Uuid) : List Char :=
  let part (a b : Nat) := writeHexBytes ((u.bytes.drop a).take (b - a))
  part 0 4 ++ '-' :: part 4 6 ++ '-' :: part 6 8 ++ '-' :: part 8 10 ++ '-' :: part 10 16

/-- Reads thirty-two digits. -/
def readBare (cs : List Char) : Option Uuid :=
  (hexBytes cs).bind ofBytes

/-- Reads the form with hyphens, which must stand at their four places. -/
def readHyphenated (cs : List Char) : Option Uuid :=
  let digits := cs.take 8 ++ (cs.drop 9).take 4 ++ (cs.drop 14).take 4 ++ (cs.drop 19).take 4 ++
    cs.drop 24
  if cs.length = 36 && [8, 13, 18, 23].all fun i => cs[i]? == some '-' then readBare digits
  else none

/-- The text after a beginning given in lower case, which may stand there in any case. -/
def afterStart : List Char → List Char → Option (List Char)
  | [], cs => some cs
  | _ :: _, [] => none
  | p :: ps, c :: cs => if p = c.toLower then afterStart ps cs else none

/-- Reads any of the four written forms. -/
def read (text : String) : Option Uuid :=
  let cs := text.toList
  match cs.length with
  | 32 => readBare cs
  | 36 => readHyphenated cs
  | 38 =>
    if cs.head? == some '\x7b' && cs.getLast? == some '\x7d' then
      readHyphenated (cs.tail.take 36)
    else none
  | 45 => (afterStart "urn:uuid:".toList cs).bind readHyphenated
  | _ => none

end Uuid

end SqlBuilder
