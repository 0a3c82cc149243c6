import SqlBuilder.Proofs.Numerals

/-!
# Compact texts are scanned back

`Json.outline` is the outline of a value, and `Json.reread` the value with each number as it is
read again.  Scanning the compact text of a value takes exactly this text, leaves what follows, and
gives the outline of the value read again (`scan_write`); that is the value itself if its doubles
are recovered (`reread_of_recovered`).
-/

namespace SqlBuilder

namespace Json

/-! ## The shape of a value -/

mutual

/-- The greatest number of arrays and objects that stand inside each other. -/
def nesting : Json → Nat
  | .array items => nestingItems items + 1
  | .object members => nestingMembers members + 1
  | _ => 0

/-- The greatest nesting among some items. -/
def nestingItems : List Json → Nat
  | [] => 0
  | j :: rest => max (nesting j) (nestingItems rest)

/-- The greatest nesting among the values of some members. -/
def nestingMembers : List (String × Json) → Nat
  | [] => 0
  | (_, j) :: rest => max (nesting j) (nestingMembers rest)

end

mutual

/-- The doubles in a value, in the order of writing. -/
def doubles : Json → List Double
  | .number (.double x _) => [x]
  | .array items => doublesItems items
  | .object members => doublesMembers members
  | _ => []

/-- The doubles in some items, item after item. -/
def doublesItems : List Json → List Double
  | [] => []
  | j :: rest => doubles j ++ doublesItems rest

/-- The doubles in the values of some members. -/
def doublesMembers : List (String × Json) → List Double
  | [] => []
  | (_, j) :: rest => doubles j ++ doublesMembers rest

end

mutual

/-- The outline of the text of a value: complete, and with every number and string as it is. -/
def outline : Json → Outline
  | .null => .null
  | .bool b => .bool b
  | .number n => .number (some n)
  | .string s => .string (some s)
  | .array items => .array (outlineItems items) .closed
  | .object members => .object (outlineMembers members) .closed

/-- The outlines of some items. -/
def outlineItems : List Json → List Outline
  | [] => []
  | j :: rest => outline j :: outlineItems rest

/-- The outlines of some members, whose keys are whole strings. -/
def outlineMembers : List (String × Json) → List (Option String × Outline)
  | [] => []
  | (k, j) :: rest => (some k, outline j) :: outlineMembers rest

end

/-! ### Reading again -/

mutual

/-- The value that the text of a value is read as: its numbers are read again. -/
def reread : Json → Json
  | .number n => .number n.reread
  | .array items => .array (rereadItems items)
  | .object members => .object (rereadMembers members)
  | j => j

/-- Some items with their numbers as they are read again. -/
def rereadItems : List Json → List Json
  | [] => []
  | j :: rest => reread j :: rereadItems rest

/-- Some members with the numbers in their values as they are read again. -/
def rereadMembers : List (String × Json) → List (String × Json)
  | [] => []
  | (k, j) :: rest => (k, reread j) :: rereadMembers rest

end

mutual

theorem nesting_reread : ∀ j : Json, j.reread.nesting = j.nesting
  | .null | .bool _ | .number _ | .string _ => by simp [reread, nesting]
  | .array items => by rw [reread, nesting, nesting, nestingItems_reread items]
  | .object members => by rw [reread, nesting, nesting, nestingMembers_reread members]

theorem nestingItems_reread : ∀ items : List Json,
    nestingItems (rereadItems items) = nestingItems items
  | [] => rfl
  | j :: rest => by
    rw [rereadItems, nestingItems, nestingItems, nesting_reread j, nestingItems_reread rest]

theorem nestingMembers_reread : ∀ members : List (String × Json),
    nestingMembers (rereadMembers members) = nestingMembers members
  | [] => rfl
  | (k, j) :: rest => by
    rw [rereadMembers, nestingMembers, nestingMembers, nesting_reread j,
      nestingMembers_reread rest]

end

mutual

/-- A value is read as it is if all its doubles are. -/
theorem reread_of_recovered : ∀ j : Json, (∀ x ∈ j.doubles, x.Recovered) → j.reread = j
  | .null, _ | .bool _, _ | .string _, _ => rfl
  | .number (.integer i low high), _ =>
    congrArg Json.number (Number.reread_integer i low high)
  | .number (.double x finite), h => by
    obtain ⟨_, recovered⟩ := h x (by simp [doubles])
    exact congrArg Json.number (Number.reread_of_recovered recovered)
  | .array items, h => congrArg Json.array (rereadItems_of_recovered items h)
  | .object members, h => congrArg Json.object (rereadMembers_of_recovered members h)

theorem rereadItems_of_recovered : ∀ items : List Json,
    (∀ x ∈ doublesItems items, x.Recovered) → rereadItems items = items
  | [], _ => rfl
  | j :: rest, h => by
    rw [rereadItems, reread_of_recovered j fun x hx => h x (List.mem_append_left _ hx),
      rereadItems_of_recovered rest fun x hx => h x (List.mem_append_right _ hx)]

theorem rereadMembers_of_recovered : ∀ members : List (String × Json),
    (∀ x ∈ doublesMembers members, x.Recovered) → rereadMembers members = members
  | [], _ => rfl
  | (k, j) :: rest, h => by
    rw [rereadMembers, reread_of_recovered j fun x hx => h x (List.mem_append_left _ hx),
      rereadMembers_of_recovered rest fun x hx => h x (List.mem_append_right _ hx)]

end

/-! ## Strings -/

/-- A piece that stands for a character of its own, whatever follows. -/
def Piece.Means (p : Piece) (c : Char) : Prop :=
  ∀ ps, joinPieces (p :: ps) = (joinPieces ps).map (c :: ·)

theorem Piece.char_means (c : Char) : (Piece.char c).Means c := fun _ => rfl

/-- A unit that is no surrogate stands for the character of that number. -/
theorem Piece.unit_means {c : Char} (h : c.toNat < 0xD800) : (Piece.unit c.toNat).Means c := by
  have leading : isLeading c.toNat = false := by
    simp [isLeading]
    omega
  have trailing : isTrailing c.toNat = false := by
    simp [isTrailing]
    omega
  intro ps
  cases ps with
  | nil => simp [joinPieces, leading, trailing]
  | cons p ps => cases p <;> simp [joinPieces, leading, trailing]

theorem unitValue_digits {n : Nat} (h : n < 0x20) :
    unitValue '0' '0' (Nat.digitChar (n / 16)) (Nat.digitChar (n % 16)) = some n := by
  revert n
  decide

/-- What is written for a character is read as one piece that stands for it. -/
theorem exists_scanPieces_escape (c : Char) :
    ∃ p : Piece, p.Means c ∧
      ∀ cs, scanPieces (escape c ++ cs) = (p :: (scanPieces cs).1, (scanPieces cs).2) := by
  by_cases letter : c ∈ ['"', '\\', '\x08', '\x0c', '\n', '\r', '\t']
  · refine ⟨.char c, Piece.char_means c, fun cs => ?_⟩
    simp only [List.mem_cons, List.not_mem_nil, or_false] at letter
    rcases letter with rfl | rfl | rfl | rfl | rfl | rfl | rfl <;> rfl
  simp only [List.mem_cons, List.not_mem_nil, or_false, not_or] at letter
  obtain ⟨quote, backslash, h8, hc, hn, hr, ht⟩ := letter
  by_cases control : c.toNat < 0x20
  · refine ⟨.unit c.toNat, Piece.unit_means (by omega), fun cs => ?_⟩
    have written : escape c = ['\\', 'u', '0', '0', Nat.digitChar (c.toNat / 16),
        Nat.digitChar (c.toNat % 16)] := by
      simp [escape, quote, backslash, h8, hc, hn, hr, ht, control]
    simp [written, scanPieces, unitValue_digits control]
  · refine ⟨.char c, Piece.char_means c, fun cs => ?_⟩
    have written : escape c = [c] := by
      simp [escape, quote, backslash, h8, hc, hn, hr, ht, control]
    simp [written, scanPieces, backslash, control]

theorem exists_scanPieces_flatMap (s rest : List Char) :
    ∃ ps, scanPieces (s.flatMap escape ++ '"' :: rest) = (ps, .ok rest) ∧
      joinPieces ps = some s := by
  induction s with
  | nil => exact ⟨[], rfl, rfl⟩
  | cons c s ih =>
    obtain ⟨ps, scanned, joined⟩ := ih
    obtain ⟨p, means, escaped⟩ := exists_scanPieces_escape c
    refine ⟨p :: ps, ?_, ?_⟩
    · rw [List.flatMap_cons, List.append_assoc, escaped, scanned]
    · rw [means, joined]
      rfl

/-- A written string, after its opening quote, is read to its closing quote. -/
theorem scanString_escaped (s : String) (rest : List Char) :
    scanString (s.toList.flatMap escape ++ '"' :: rest) = .ok (some s, rest) := by
  obtain ⟨ps, scanned, joined⟩ := exists_scanPieces_flatMap s.toList rest
  simp [scanString, scanned, joined]

/-! ## Values -/

theorem afterBlanks_cons {c : Char} {cs : List Char} (h : isBlank c = false) :
    afterBlanks (c :: cs) = c :: cs := by
  simp [afterBlanks, h]

/-- Whether a character can begin the text of an item: no blank, and no closing bracket. -/
def startsItem (c : Char) : Bool :=
  !isBlank c && c != ']'

theorem startsItem_of_startsNumeral {c : Char} (h : startsNumeral c) : startsItem c := by
  have first : c = '-' ∨ c.isDigit := by simpa [startsNumeral] using h
  rcases first with rfl | digit
  · rfl
  have range := toNat_range_of_isDigit digit
  have away : ∀ d : Char, d.toNat < 48 ∨ 57 < d.toNat → c ≠ d := by
    rintro d out rfl
    omega
  simp [startsItem, isBlank, away ' ' (by decide), away '\n' (by decide), away '\t' (by decide),
    away '\r' (by decide), away ']' (by decide)]

theorem exists_startsItem (j : Json) : ∃ c cs, j.write = c :: cs ∧ startsItem c := by
  cases j with
  | null => exact ⟨_, _, rfl, rfl⟩
  | bool b => cases b <;> exact ⟨_, _, rfl, rfl⟩
  | number n =>
    obtain ⟨s, scanned, -⟩ := n.scanNumeral_write
    obtain ⟨c, cs, written, starts⟩ := exists_startsNumeral scanned
    exact ⟨c, cs, written, startsItem_of_startsNumeral starts⟩
  | string s => exact ⟨_, _, rfl, rfl⟩
  | array items => cases items <;> exact ⟨_, _, rfl, rfl⟩
  | object members => cases members <;> exact ⟨_, _, rfl, rfl⟩

theorem scanValue_numeral {n : Nat} {cs rest : List Char} {s : Numeral}
    (h : scanNumeral cs = .ok (s, rest)) :
    scanValue (n + 1) cs = (.number s.value, some rest) := by
  obtain ⟨c, cs, rfl, starts⟩ := exists_startsNumeral h
  have item := startsItem_of_startsNumeral starts
  have noBlank : isBlank c = false := by
    simp [startsItem] at item
    exact item.1
  have others : c ≠ 'n' ∧ c ≠ 't' ∧ c ≠ 'f' ∧ c ≠ '"' ∧ c ≠ '[' ∧ c ≠ '\x7b' := by
    refine ⟨?_, ?_, ?_, ?_, ?_, ?_⟩ <;> rintro rfl <;> revert starts <;> decide
  obtain ⟨hn, ht, hf, hq, hb, ho⟩ := others
  simp [scanValue, afterBlanks_cons noBlank, starts, h]

theorem not_isBlank_of_startsItem {c : Char} (h : startsItem c) : isBlank c = false := by
  simp only [startsItem, Bool.and_eq_true, Bool.not_eq_true'] at h
  exact h.1

theorem scanValue_string {n : Nat} (s : String) (rest : List Char) :
    scanValue (n + 1) (quote s ++ rest) = (.string (some s), some rest) := by
  have text : quote s ++ rest = '"' :: (s.toList.flatMap escape ++ '"' :: rest) := by
    simp [quote]
  rw [text]
  simp [scanValue, afterBlanks_cons (show isBlank '"' = false from rfl), scanString_escaped]

theorem scanValue_array {n : Nat} {c : Char} {cs : List Char} (h : startsItem c)
    {items : List Outline} {ending : Ending} {rest : Option (List Char)}
    (scanned : scanItems n (c :: cs) = (items, ending, rest)) :
    scanValue (n + 1) ('[' :: c :: cs) = (.array items ending, rest) := by
  have closing : c ≠ ']' := by
    rintro rfl
    revert h
    decide
  simp [scanValue, afterBlanks_cons (show isBlank '[' = false from rfl),
    afterBlanks_cons (not_isBlank_of_startsItem h), closing, scanned]

theorem scanValue_object {n : Nat} (k : String) (cs : List Char)
    {members : List (Option String × Outline)} {ending : Ending} {rest : Option (List Char)}
    (scanned : scanMembers n (some k) cs = (members, ending, rest)) :
    scanValue (n + 1) ('\x7b' :: (quote k ++ cs)) = (.object members ending, rest) := by
  have text : quote k ++ cs = '"' :: (k.toList.flatMap escape ++ '"' :: cs) := by
    simp [quote]
  rw [text]
  simp [scanValue, afterBlanks_cons (show isBlank '\x7b' = false from rfl),
    afterBlanks_cons (show isBlank '"' = false from rfl), scanString_escaped, scanned]

theorem scanItems_last {n : Nat} {cs rest : List Char} {o : Outline}
    (h : scanValue n cs = (o, some (']' :: rest))) :
    scanItems (n + 1) cs = ([o], .closed, some rest) := by
  simp [scanItems, h, afterBlanks_cons (show isBlank ']' = false from rfl)]

theorem scanItems_more {n : Nat} {cs cs' : List Char} {c : Char} {o : Outline}
    (h : scanValue n cs = (o, some (',' :: c :: cs'))) (starts : startsItem c)
    {items : List Outline} {ending : Ending} {rest : Option (List Char)}
    (scanned : scanItems n (c :: cs') = (items, ending, rest)) :
    scanItems (n + 1) cs = (o :: items, ending, rest) := by
  have closing : c ≠ ']' := by
    rintro rfl
    revert starts
    decide
  simp [scanItems, h, afterBlanks_cons (show isBlank ',' = false from rfl),
    afterBlanks_cons (not_isBlank_of_startsItem starts), closing, scanned]

theorem scanMembers_last {n : Nat} {k : Option String} {cs rest : List Char} {o : Outline}
    (h : scanValue n cs = (o, some ('\x7d' :: rest))) :
    scanMembers (n + 1) k (':' :: cs) = ([(k, o)], .closed, some rest) := by
  simp [scanMembers, h, afterBlanks_cons (show isBlank ':' = false from rfl),
    afterBlanks_cons (show isBlank '\x7d' = false from rfl)]

theorem scanMembers_more {n : Nat} {k : Option String} {k' : String} {cs cs' : List Char}
    {o : Outline} (h : scanValue n cs = (o, some (',' :: (quote k' ++ cs'))))
    {members : List (Option String × Outline)} {ending : Ending} {rest : Option (List Char)}
    (scanned : scanMembers n (some k') cs' = (members, ending, rest)) :
    scanMembers (n + 1) k (':' :: cs) = ((k, o) :: members, ending, rest) := by
  have text : quote k' ++ cs' = '"' :: (k'.toList.flatMap escape ++ '"' :: cs') := by
    simp [quote]
  rw [text] at h
  simp [scanMembers, h, afterBlanks_cons (show isBlank ':' = false from rfl),
    afterBlanks_cons (show isBlank ',' = false from rfl),
    afterBlanks_cons (show isBlank '"' = false from rfl), scanString_escaped, scanned]

theorem endsNumeral_cons {c : Char} {cs : List Char} (digit : c.isDigit = false)
    (others : c ≠ '.' ∧ c ≠ 'e' ∧ c ≠ 'E') : EndsNumeral (c :: cs) := by
  refine ⟨endsDigits_cons digit, ?_, ?_, ?_⟩
  · simpa using others.1
  · simpa using others.2.1
  · simpa using others.2.2

theorem endsNumeral_writeItems (items : List Json) (rest : List Char) :
    EndsNumeral (writeItems items ++ rest) := by
  cases items <;> exact endsNumeral_cons rfl (by decide)

theorem endsNumeral_writeMembers (members : List (String × Json)) (rest : List Char) :
    EndsNumeral (writeMembers members ++ rest) := by
  cases members <;> exact endsNumeral_cons rfl (by decide)

-- The induction is on the value.  A step is taken for each value, and another for each item or
-- member, and all of them write a character of their own: twice the length is fuel enough.

mutual

/-- Scanning the text of a value gives the outline of the value, its numbers being read again, and
what follows the text. -/
theorem scanValue_write : ∀ (j : Json) (n : Nat) (rest : List Char),
    2 * j.write.length ≤ n → EndsNumeral rest →
    scanValue n (j.write ++ rest) = (j.reread.outline, some rest)
  | .null, n + 1, rest, _, _ => rfl
  | .bool true, n + 1, rest, _, _ => rfl
  | .bool false, n + 1, rest, _, _ => rfl
  | .number m, n + 1, rest, _, ends => by
    obtain ⟨s, scanned, value⟩ := m.scanNumeral_write
    have := scanValue_numeral (n := n) (scanNumeral_append scanned ends)
    rwa [value] at this
  | .string s, n + 1, rest, _, _ => scanValue_string s rest
  | .array [], n + 1, rest, _, _ => rfl
  | .array (j :: items), n + 1, rest, fuel, _ => by
    obtain ⟨c, cs, written, starts⟩ := exists_startsItem j
    have scanned := scanItems_write j items n rest (by
      simp only [write, List.length_cons, List.length_append] at fuel
      omega)
    simp only [write, List.cons_append, List.append_assoc, written] at scanned ⊢
    exact scanValue_array starts scanned
  | .object [], n + 1, rest, _, _ => rfl
  | .object ((k, j) :: members), n + 1, rest, fuel, _ => by
    have scanned := scanMembers_write k j members n rest (by
      simp only [write, List.length_cons, List.length_append] at fuel
      omega)
    simp only [write, List.cons_append, List.append_assoc] at scanned ⊢
    exact scanValue_object k _ scanned
  | j, 0, rest, fuel, _ => by
    obtain ⟨c, cs, written, -⟩ := exists_startsItem j
    simp [written] at fuel

theorem scanItems_write : ∀ (j : Json) (items : List Json) (n : Nat) (rest : List Char),
    2 * (j.write.length + (writeItems items).length) ≤ n →
    scanItems n (j.write ++ (writeItems items ++ rest)) =
      (outlineItems (rereadItems (j :: items)), .closed, some rest)
  | j, [], n + 1, rest, fuel => by
    have first := scanValue_write j n (writeItems [] ++ rest) (by
      simp only [writeItems, List.length_cons, List.length_nil] at fuel
      omega) (endsNumeral_writeItems [] rest)
    exact scanItems_last first
  | j, j' :: items, n + 1, rest, fuel => by
    obtain ⟨c, cs, written, starts⟩ := exists_startsItem j'
    simp only [writeItems, List.length_cons, List.length_append] at fuel
    have first := scanValue_write j n (writeItems (j' :: items) ++ rest) (by omega)
      (endsNumeral_writeItems _ rest)
    have others := scanItems_write j' items n rest (by omega)
    simp only [writeItems, List.cons_append, List.append_assoc, written] at first others ⊢
    exact scanItems_more first starts others
  | j, items, 0, rest, fuel => by
    cases items <;> simp [writeItems] at fuel

theorem scanMembers_write : ∀ (k : String) (j : Json) (members : List (String × Json)) (n : Nat)
    (rest : List Char), 2 * (j.write.length + (writeMembers members).length + 1) ≤ n →
    scanMembers n (some k) (':' :: (j.write ++ (writeMembers members ++ rest))) =
      (outlineMembers (rereadMembers ((k, j) :: members)), .closed, some rest)
  | k, j, [], n + 1, rest, fuel => by
    have first := scanValue_write j n (writeMembers [] ++ rest) (by omega)
      (endsNumeral_writeMembers [] rest)
    exact scanMembers_last first
  | k, j, (k', j') :: members, n + 1, rest, fuel => by
    simp only [writeMembers, List.length_cons, List.length_append] at fuel
    have first := scanValue_write j n (writeMembers ((k', j') :: members) ++ rest) (by omega)
      (endsNumeral_writeMembers _ rest)
    have others := scanMembers_write k' j' members n rest (by omega)
    simp only [writeMembers, List.cons_append, List.append_assoc] at first others ⊢
    exact scanMembers_more first others
  | k, j, members, 0, rest, fuel => by
    omega

end

/-- Scanning the compact text of a value gives the outline of the value, its numbers being read
again, and leaves nothing. -/
theorem scan_write (j : Json) : scan j.write = (j.reread.outline, some []) := by
  have ends : EndsNumeral [] := ⟨endsDigits_nil, by simp, by simp, by simp⟩
  have scanned := scanValue_write j (2 * j.write.length + 2) [] (by omega) ends
  rwa [List.append_nil] at scanned

end Json

/-! ## Documents -/

/-- A text that holds one complete value, of which the outline is given, and blanks. -/
def IsDocument (text : String) (o : Outline) : Prop :=
  ∃ rest, Json.scan text.toList = (o, some rest) ∧ Json.afterBlanks rest = []

/-- The compact text of a value is a document. -/
theorem Json.isDocument_compact (j : Json) : IsDocument j.compact j.reread.outline := by
  refine ⟨[], ?_, rfl⟩
  rw [compact, String.toList_ofList, scan_write]

theorem Json.isDocument_of_doubles {j : Json} (none : j.doubles = []) :
    IsDocument j.compact j.outline := by
  have document := j.isDocument_compact
  rwa [reread_of_recovered j (by simp [none])] at document

end SqlBuilder
