import SqlBuilder.Json.Numeral
import SqlBuilder.Json.Outline
import SqlBuilder.Text.Hex

/-!
# Scanning JSON texts

`Outline.scan` gives the outline of the value at the head of a text, and the rest of the text if
the value is complete.  Blanks are the space, the tab, the line feed and the carriage return.
-/

namespace SqlBuilder

namespace Json

/-- The blanks of the format. -/
def isBlank (c : Char) : Bool :=
  c == ' ' || c == '\n' || c == '\t' || c == '\r'

/-- The text after its leading blanks. -/
def afterBlanks (cs : List Char) : List Char :=
  cs.dropWhile isBlank

/-- The fault of a text that goes on with something wrong, or does not go on. -/
def faultAt : List Char → Fault
  | [] => .truncated
  | _ => .malformed

/-! ## Strings -/

/-- A piece of a string: a character, or a 16-bit unit given by its number. -/
inductive Piece where
  | char (c : Char)
  | unit (n : Nat)

/-- The character that a letter after a backslash stands for. -/
def escapedChar : Char → Option Char
  | '"' => some '"'
  | '\\' => some '\\'
  | '/' => some '/'
  | 'b' => some '\x08'
  | 'f' => some '\x0c'
  | 'n' => some '\n'
  | 'r' => some '\r'
  | 't' => some '\t'
  | _ => none

/-- The number that four hexadecimal digits spell. -/
def unitValue (a b c d : Char) : Option Nat := do
  let a ← hexValue? a
  let b ← hexValue? b
  let c ← hexValue? c
  let d ← hexValue? d
  return ((a * 16 + b) * 16 + c) * 16 + d

/-- The fault of fewer than four characters, or of four that are no digits, after `\u`: a text of
fewer than four bytes ends too early. -/
def unitFault (cs : List Char) : Fault :=
  if (String.ofList (cs.take 4)).utf8ByteSize < 4 then .truncated else .malformed

/-- The pieces of a string up to its closing quote, and the text after it; a fault if there is no
such quote or something wrong before it. -/
def scanPieces : List Char → List Piece × Except Fault (List Char)
  | [] => ([], .error .truncated)
  | '"' :: rest => ([], .ok rest)
  | '\\' :: 'u' :: a :: b :: c :: d :: rest =>
    match unitValue a b c d with
    | some n =>
      let (ps, r) := scanPieces rest
      (.unit n :: ps, r)
    | none => ([], .error .malformed)
  | '\\' :: 'u' :: rest => ([], .error (unitFault rest))
  | '\\' :: c :: rest =>
    match escapedChar c with
    | some e =>
      let (ps, r) := scanPieces rest
      (.char e :: ps, r)
    | none => ([], .error .malformed)
  | ['\\'] => ([], .error .truncated)
  | c :: rest =>
    if c.toNat < 0x20 then ([], .error .malformed)
    else
      let (ps, r) := scanPieces rest
      (.char c :: ps, r)

/-- Whether a unit is the first half of a surrogate pair. -/
def isLeading (n : Nat) : Bool :=
  0xD800 ≤ n && n < 0xDC00

/-- Whether a unit is the second half of a surrogate pair. -/
def isTrailing (n : Nat) : Bool :=
  0xDC00 ≤ n && n < 0xE000

/-- The characters of a string whose surrogates all stand in pairs. -/
def joinPieces : List Piece → Option (List Char)
  | [] => some []
  | .char c :: ps => (joinPieces ps).map (c :: ·)
  | .unit n :: .unit m :: ps =>
    if isLeading n then
      if isTrailing m then
        (joinPieces ps).map (Char.ofNat (0x10000 + (n - 0xD800) * 0x400 + (m - 0xDC00)) :: ·)
      else none
    else if isTrailing n then none
    else (joinPieces (.unit m :: ps)).map (Char.ofNat n :: ·)
  | .unit n :: ps =>
    if isLeading n || isTrailing n then none else (joinPieces ps).map (Char.ofNat n :: ·)

/-- Whether reading pieces up to a place where the string goes wrong meets a surrogate without its
other half before.  The first half of a pair may stand last: what is wrong is then what follows. -/
def isUnpairedBefore (ps : List Piece) : Bool :=
  let settled := match ps.getLast? with
    | some (.unit n) => if isLeading n then ps.dropLast else ps
    | _ => ps
  (joinPieces settled).isNone

/-- The string after an opening quote: its text and what follows, or the faults of reading and of
passing over. -/
def scanString (cs : List Char) : Except (Fault × Fault) (Option String × List Char) :=
  match scanPieces cs with
  | (ps, .ok rest) => .ok ((joinPieces ps).map String.ofList, rest)
  | (ps, .error f) => .error (if isUnpairedBefore ps then .malformed else f, f)

/-! ## Numerals -/

/-- A run of digits that must not be empty, and what follows. -/
def scanDigits (cs : List Char) : Except Fault (List Char × List Char) :=
  let run := cs.takeWhile Char.isDigit
  if run.isEmpty then .error (faultAt cs) else .ok (run, cs.drop run.length)

/-- The fraction of a numeral, if a point stands at the head. -/
def scanFraction : List Char → Except Fault (List Char × List Char)
  | '.' :: rest => scanDigits rest
  | cs => .ok ([], cs)

/-- The digits of an exponent after its letter. -/
def scanExponentDigits (down : Bool) (cs : List Char) :
    Except Fault (Option (Bool × List Char) × List Char) :=
  (scanDigits cs).map fun (run, rest) => (some (down, run), rest)

/-- The exponent of a numeral, if its letter stands at the head. -/
def scanExponent : List Char → Except Fault (Option (Bool × List Char) × List Char)
  | c :: cs =>
    if c = 'e' || c = 'E' then
      match cs with
      | '+' :: rest => scanExponentDigits false rest
      | '-' :: rest => scanExponentDigits true rest
      | _ => scanExponentDigits false cs
    else .ok (none, c :: cs)
  | [] => .ok (none, [])

/-- The numeral at the head of a text; a leading zero stands alone. -/
def scanNumeral (cs : List Char) : Except Fault (Numeral × List Char) := do
  let (negative, cs) := match cs with
    | '-' :: rest => (true, rest)
    | _ => (false, cs)
  let (whole, cs) ← scanDigits cs
  if 1 < whole.length && whole.head? == some '0' then throw .malformed
  let (fraction, cs) ← scanFraction cs
  let (exponent, cs) ← scanExponent cs
  return ({ negative, whole, fraction, exponent }, cs)

/-! ## Values -/

/-- A fixed word of the format: what is left of it to be met, and the value it stands for.  A word
that goes wrong is never a choice. -/
def scanWord (value : Outline) : List Char → List Char → Outline × Option (List Char)
  | [], rest => (value, some rest)
  | _ :: _, [] => (.broken .truncated .truncated .malformed, none)
  | w :: ws, c :: cs =>
    if w = c then scanWord value ws cs else (.broken .malformed .malformed .malformed, none)

/-- Whether a numeral begins with this character. -/
def startsNumeral (c : Char) : Bool :=
  c == '-' || c.isDigit

mutual

/-- The outline of the value at the head of a text, and the rest if the value is complete; the
first number bounds the steps. -/
def scanValue : Nat → List Char → Outline × Option (List Char)
  | 0, _ => (.broken .truncated .truncated .truncated, none)
  | n + 1, cs =>
    match afterBlanks cs with
    | [] => (.broken .truncated .truncated .truncated, none)
    | 'n' :: rest => scanWord .null ['u', 'l', 'l'] rest
    | 't' :: rest => scanWord (.bool true) ['r', 'u', 'e'] rest
    | 'f' :: rest => scanWord (.bool false) ['a', 'l', 's', 'e'] rest
    | '"' :: rest =>
      match scanString rest with
      | .ok (s, rest) => (.string s, some rest)
      | .error (r, s) => (.broken r s r, none)
    | '[' :: rest =>
      match afterBlanks rest with
      | [] => (.array [] (.broken .truncated), none)
      | ']' :: rest => (.array [] .closed, some rest)
      | rest =>
        let (items, ending, rest) := scanItems n rest
        (.array items ending, rest)
    | '\x7b' :: rest =>
      match afterBlanks rest with
      | '\x7d' :: rest => (.object [] .closed, some rest)
      | '"' :: rest =>
        match scanString rest with
        | .ok (k, rest) =>
          let (members, ending, rest) := scanMembers n k rest
          (.object members ending, rest)
        | .error (r, s) => (.object [] (.keyless r s), none)
      | rest => (.object [] (.keyless (faultAt rest) (faultAt rest)), none)
    | c :: rest =>
      if startsNumeral c then
        match scanNumeral (c :: rest) with
        | .ok (numeral, rest) => (.number numeral.value, some rest)
        | .error f => (.broken f .malformed .malformed, none)
      else (.broken .malformed .malformed .malformed, none)

/-- The items of an array from one that must stand here on, what ends them, and the rest. -/
def scanItems : Nat → List Char → List Outline × Ending × Option (List Char)
  | 0, _ => ([], .broken .truncated, none)
  | n + 1, cs =>
    match scanValue n cs with
    | (item, none) => ([item], .broken .truncated, none)
    | (item, some rest) =>
      match afterBlanks rest with
      | ']' :: rest => ([item], .closed, some rest)
      | ',' :: rest =>
        match afterBlanks rest with
        | [] => ([item], .comma .truncated .truncated, none)
        | ']' :: _ => ([item], .comma .malformed .malformed, none)
        | rest =>
          let (items, ending, rest) := scanItems n rest
          (item :: items, ending, rest)
      | rest => ([item], .broken (faultAt rest), none)

/-- The members of an object after a first key, what ends them, and the rest. -/
def scanMembers : Nat → Option String → List Char →
    List (Option String × Outline) × Ending × Option (List Char)
  | 0, _, _ => ([], .broken .truncated, none)
  | n + 1, k, cs =>
    match afterBlanks cs with
    | ':' :: rest =>
      match scanValue n rest with
      | (value, none) => ([(k, value)], .broken .truncated, none)
      | (value, some rest) =>
        match afterBlanks rest with
        | '\x7d' :: rest => ([(k, value)], .closed, some rest)
        | ',' :: rest =>
          match afterBlanks rest with
          | '"' :: rest =>
            match scanString rest with
            | .ok (k', rest) =>
              let (members, ending, rest) := scanMembers n k' rest
              ((k, value) :: members, ending, rest)
            | .error (r, s) => ([(k, value)], .comma r s, none)
          | rest => ([(k, value)], .comma (faultAt rest) (faultAt rest), none)
        | rest => ([(k, value)], .broken (faultAt rest), none)
    | rest =>
      let f := faultAt rest
      ([(k, .broken f f f)], .broken f, none)

end

/-- The outline of the value at the head of a text, and the rest if the value is complete. -/
def scan (cs : List Char) : Outline × Option (List Char) :=
  scanValue (2 * cs.length + 2) cs

end Json

end SqlBuilder
