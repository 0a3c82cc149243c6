import SqlBuilder.Number.Power
import SqlBuilder.Text.Blank
import SqlBuilder.Text.Digits
import SqlBuilder.Time.Timestamp

/-!
# Instants as text

`Timestamp.write` gives the extended date and time of universal time with a final `Z`: as many
places after the point as are exact, in threes, and a signed year outside 0 to 9999.  Nanoseconds
that have run on are carried into the seconds, which makes second sixty of the last of a minute.
`Timestamp.read` is more liberal: blanks may stand between the parts, numbers may be short, the
date and the time may be joined by a letter of either case or a blank, and any offset of less than
a day may follow.
-/

namespace SqlBuilder

namespace Timestamp

/-- The digits of the year: a sign is written outside 0 to 9999. -/
def writeYear (y : Int) : List Char :=
  if y < 0 then '-' :: padded 4 y.natAbs
  else if y ≤ 9999 then padded 4 y.toNat
  else '+' :: padded 4 y.toNat

/-- The places after the point: none, three, six or nine, the fewest that are exact. -/
def writeFraction (nanos : Nat) : List Char :=
  if nanos = 0 then []
  else if nanos % 1000000 = 0 then '.' :: padded 3 (nanos / 1000000)
  else if nanos % 1000 = 0 then '.' :: padded 6 (nanos / 1000)
  else '.' :: padded 9 nanos

/-- The date and time of universal time. -/
def write (t : Timestamp) : List Char :=
  let date := Date.ofDays (t.seconds / 86400)
  let second := (t.seconds % 86400).toNat
  let leap := t.nanos / nanosPerSecond
  writeYear date.year ++ '-' :: padded 2 date.month ++ '-' :: padded 2 date.day ++
    'T' :: padded 2 (second / 3600) ++ ':' :: padded 2 (second / 60 % 60) ++
    ':' :: padded 2 (second % 60 + leap) ++ writeFraction (t.nanos % nanosPerSecond) ++ ['Z']

/-! ## Reading -/

/-- A number of at least one and, unless `width` is absent, at most `width` digits, and what
follows it. -/
def number (width : Option Nat) (cs : List Char) : Option (Nat × List Char) :=
  let run := cs.takeWhile Char.isDigit
  let digits := match width with
    | some w => run.take w
    | none => run
  if digits.isEmpty then none else some (digitsValue digits, cs.drop digits.length)

/-- The text after a given character, blanks before it being passed over. -/
def mark (c : Char) (cs : List Char) : Option (List Char) :=
  match trimBlank cs with
  | d :: rest => if c = d then some rest else none
  | [] => none

/-- A number of one or two digits between two bounds, after blanks. -/
def field (low high : Nat) (cs : List Char) : Option (Nat × List Char) := do
  let (n, rest) ← number (some 2) (trimBlank cs)
  if low ≤ n && n ≤ high then some (n, rest) else none

/-- A year: of up to four digits, or of any length after a sign. -/
def year (cs : List Char) : Option (Int × List Char) :=
  match trimBlank cs with
  | '-' :: rest => (number none rest).map fun (n, rest) => (-(n : Int), rest)
  | '+' :: rest => (number none rest).map fun (n, rest) => ((n : Int), rest)
  | rest => (number (some 4) rest).map fun (n, rest) => ((n : Int), rest)

/-- The nanoseconds after a point, if there is one; digits beyond the ninth are dropped. -/
def fraction (cs : List Char) : Option (Nat × List Char) :=
  match cs with
  | '.' :: rest =>
    let run := rest.takeWhile Char.isDigit
    let digits := run.take 9
    if digits.isEmpty then none
    else some (digitsValue digits * tenTo (9 - digits.length), rest.drop run.length)
  | _ => some (0, cs)

/-- A sign: the mathematical minus counts as one. -/
def sign (cs : List Char) : Option (Int × List Char) :=
  match cs with
  | '+' :: rest => some (1, rest)
  | '-' :: rest => some (-1, rest)
  | '−' :: rest => some (-1, rest)
  | _ => none

/-- Exactly two digits. -/
def twoDigits (cs : List Char) : Option (Nat × List Char) :=
  match cs with
  | a :: b :: rest =>
    if a.isDigit && b.isDigit then some (digitsValue [a, b], rest) else none
  | _ => none

/-- The offset from universal time in seconds, and what follows it. -/
def zone (cs : List Char) : Option (Int × List Char) :=
  if (cs.take 3).map Char.toUpper = ['U', 'T', 'C'] then some (0, cs.drop 3)
  else match cs with
    | 'Z' :: rest => some (0, rest)
    | 'z' :: rest => some (0, rest)
    | _ => do
      let (s, rest) ← sign cs
      let (hours, rest) ← twoDigits rest
      let (minutes, rest) ← twoDigits (rest.dropWhile fun c => c == ':' || isBlank c)
      if minutes < 60 && hours < 24 then some (s * (hours * 3600 + minutes * 60), rest) else none

/-- The instant of a date and time at an offset; second sixty is a leap second. -/
def ofFields (date : Date) (hour minute second nanos : Nat) (offset : Int) : Option Timestamp :=
  let leap := second / 60
  let localSecond := date.toDays * 86400 + (hour * 3600 + minute * 60 + (second - leap) : Nat)
  if date.isValid && firstSecond ≤ localSecond && localSecond ≤ lastSecond then
    ofParts (localSecond - offset) (nanos + leap * nanosPerSecond)
  else none

/-- Reads a date, a time and an offset. -/
def read (text : String) : Option Timestamp := do
  let (y, cs) ← year text.toList
  let cs ← mark '-' cs
  let (month, cs) ← field 1 12 cs
  let cs ← mark '-' cs
  let (day, cs) ← field 1 31 cs
  let cs ← match cs with
    | c :: rest => if c = 'T' || c = 't' || c = ' ' then some rest else none
    | [] => none
  let (hour, cs) ← field 0 23 cs
  let cs ← mark ':' cs
  let (minute, cs) ← field 0 59 cs
  let cs ← mark ':' cs
  let (second, cs) ← field 0 60 cs
  let (nanos, cs) ← fraction cs
  let (offset, cs) ← zone (trimBlank cs)
  if (trimBlank cs).isEmpty then
    ofFields { year := y, month := month, day := day } hour minute second nanos offset
  else none

end Timestamp

end SqlBuilder
