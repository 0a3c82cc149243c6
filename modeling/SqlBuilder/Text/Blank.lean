/-!
# Blank characters

`isBlank` is the Unicode property White_Space, twenty-five code points.  `blankWords` cuts a text
at its runs of blanks, so that leading, trailing and repeated blanks leave no trace, and
`trimBlank` drops the leading run only.
-/

namespace SqlBuilder

/-- The characters of the Unicode property White_Space. -/
def isBlank (c : Char) : Bool :=
  let n := c.toNat
  (0x09 ≤ n && n ≤ 0x0D) || n == 0x20 || n == 0x85 || n == 0xA0 || n == 0x1680 ||
    (0x2000 ≤ n && n ≤ 0x200A) || n == 0x2028 || n == 0x2029 || n == 0x202F || n == 0x205F ||
    n == 0x3000

/-- The text after its leading blanks. -/
def trimBlank (cs : List Char) : List Char :=
  cs.dropWhile isBlank

/-- Puts a letter at the front of the first of some words. -/
def extendFirst (c : Char) : List (List Char) → List (List Char)
  | [] => [[c]]
  | w :: ws => (c :: w) :: ws

/-- The maximal runs of characters that are not blank, in order. -/
def blankWords : List Char → List (List Char)
  | [] => []
  | [c] => if isBlank c then [] else [[c]]
  | c :: d :: cs =>
    if isBlank c then blankWords (d :: cs)
    else if isBlank d then [c] :: blankWords (d :: cs)
    else extendFirst c (blankWords (d :: cs))

theorem blankWords_cons_blank {c : Char} (h : isBlank c = true) (cs : List Char) :
    blankWords (c :: cs) = blankWords cs := by
  cases cs <;> simp [blankWords, h]

end SqlBuilder
