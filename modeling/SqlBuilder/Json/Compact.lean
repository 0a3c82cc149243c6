import SqlBuilder.Json.Basic
import SqlBuilder.Number.Shortest

/-!
# The compact text of JSON values

No blanks.  Strings escape the double quote, the backslash and the control characters below 0x20,
five of which have a letter of their own.  Doubles are written with their shortest digits:
positionally, with at least one place after the point, when the exponent of the leading digit lies
between -5 and 15, and with a signed exponent otherwise.
-/

namespace SqlBuilder

namespace Json

/-- A character inside a string. -/
def escape (c : Char) : List Char :=
  if c = '"' then ['\\', '"']
  else if c = '\\' then ['\\', '\\']
  else if c = '\x08' then ['\\', 'b']
  else if c = '\x0c' then ['\\', 'f']
  else if c = '\n' then ['\\', 'n']
  else if c = '\r' then ['\\', 'r']
  else if c = '\t' then ['\\', 't']
  else if c.toNat < 0x20 then
    ['\\', 'u', '0', '0', Nat.digitChar (c.toNat / 16), Nat.digitChar (c.toNat % 16)]
  else [c]

/-- A string between quotes. -/
def quote (s : String) : List Char :=
  '"' :: s.toList.flatMap escape ++ ['"']

/-- An integer in decimal. -/
def writeInt (i : Int) : List Char :=
  if i < 0 then '-' :: Nat.toDigits 10 i.natAbs else Nat.toDigits 10 i.natAbs

/-- The exponents of the leading digit for which doubles are written positionally. -/
def isPositional (leading : Int) : Bool :=
  -5 ≤ leading && leading ≤ 15

/-- A positive decimal `d · 10 ^ k` whose digits do not end in a zero. -/
def writeDecimal (d : Nat) (k : Int) : List Char :=
  let digits := Nat.toDigits 10 d
  let leading : Int := k + digits.length - 1
  if isPositional leading then
    if 0 ≤ k then digits ++ List.replicate k.toNat '0' ++ ['.', '0']
    else if 0 ≤ leading then
      digits.take (leading.toNat + 1) ++ '.' :: digits.drop (leading.toNat + 1)
    else '0' :: '.' :: List.replicate (-leading - 1).toNat '0' ++ digits
  else
    let exponent := (if leading < 0 then '-' else '+') :: Nat.toDigits 10 leading.natAbs
    match digits with
    | [c] => c :: 'e' :: exponent
    | c :: cs => c :: '.' :: cs ++ 'e' :: exponent
    | [] => []

/-- A finite double. -/
def writeDouble (x : Double) : List Char :=
  let magnitude :=
    if x.isZero then ['0', '.', '0']
    else
      let (d, k) := x.shortest
      writeDecimal d k
  if x.isNegative then '-' :: magnitude else magnitude

/-- An integer in digits, or a double with a point or an exponent. -/
def Number.write : Number → List Char
  | .integer i _ _ => writeInt i
  | .double d _ => writeDouble d

mutual

/-- The characters of the compact text. -/
def write : Json → List Char
  | .null => ['n', 'u', 'l', 'l']
  | .bool true => ['t', 'r', 'u', 'e']
  | .bool false => ['f', 'a', 'l', 's', 'e']
  | .number n => n.write
  | .string s => quote s
  | .array [] => ['[', ']']
  | .array (j :: rest) => '[' :: write j ++ writeItems rest
  | .object [] => ['\x7b', '\x7d']
  | .object ((k, j) :: rest) => '\x7b' :: quote k ++ ':' :: write j ++ writeMembers rest

/-- The items after the first, and the closing bracket. -/
def writeItems : List Json → List Char
  | [] => [']']
  | j :: rest => ',' :: write j ++ writeItems rest

/-- The members after the first, and the closing brace. -/
def writeMembers : List (String × Json) → List Char
  | [] => ['\x7d']
  | (k, j) :: rest => ',' :: quote k ++ ':' :: write j ++ writeMembers rest

end

/-- The compact text. -/
def compact (j : Json) : String :=
  String.ofList j.write

end Json

end SqlBuilder
