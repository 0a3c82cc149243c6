import SqlBuilder.Proofs.SerialForms

/-!
# Serial forms are read back

`SerialType` ranges over the types that have a serial form, and `SerialType.round_trip` says for all
of them what reading the text of a value gives.  Texts that are nested deeper than `maxDepth` are
not read; a document that is as deep as the limit shows it.
-/

namespace SqlBuilder

open Codec

/-! ## All types -/

/-- The types that have a serial form. -/
inductive SerialType where
  | value
  | table
  | column
  | conjunction
  | operator
  | matchMode
  | direction
  | setOperator
  | term
  | operand
  | comparison
  | test
  | range
  | nullTest
  | flag
  | textMatch
  | inList
  | predicate
  | sortKey
  | select
  | assignment
  | insert
  | update
  | delete
  | setOperation

namespace SerialType

/-- The values of a type, with nested SELECTs. -/
def Carrier : SerialType → Type
  | value => Value
  | table => Table
  | column => Column
  | conjunction => Conjunction
  | operator => Operator
  | matchMode => MatchMode
  | direction => Direction
  | setOperator => SetOperator
  | term => Term Select
  | operand => Operand Select
  | comparison => Comparison Select
  | test => Test Select
  | range => Range Select
  | nullTest => Term Select
  | flag => Flag Select
  | textMatch => TextMatch Select
  | inList => InList Select
  | predicate => Predicate Select
  | sortKey => SortKey Select
  | select => Select
  | assignment => Assignment
  | insert => Insert
  | update => Update
  | delete => Delete
  | setOperation => SetOperation

/-- The serial form of a type. -/
def codec : (t : SerialType) → Codec t.Carrier
  | value => Value.codec
  | table => Table.codec
  | column => Column.codec
  | conjunction => Conjunction.codec
  | operator => Operator.codec
  | matchMode => MatchMode.codec
  | direction => Direction.codec
  | setOperator => SetOperator.codec
  | term => Term.codec Select.codec
  | operand => Operand.codec Select.codec
  | comparison => Comparison.codec Select.codec
  | test => Test.codec Select.codec
  | range => Range.codec Select.codec
  | nullTest => Term.nullTestCodec Select.codec
  | flag => Flag.codec Select.codec
  | textMatch => TextMatch.codec Select.codec
  | inList => InList.codec Select.codec
  | predicate => Predicate.treeCodec
  | sortKey => SortKey.codec Select.codec
  | select => Select.codec
  | assignment => Assignment.codec
  | insert => Insert.codec
  | update => Update.codec
  | delete => Delete.codec
  | setOperation => SetOperation.codec

/-- The parts of a value of a type whose texts may be read as something else: its bind values that
are doubles or instants, and the numbers with a fraction or an exponent in its documents. -/
def parts : (t : SerialType) → t.Carrier → List Part
  | value => Value.parts
  | table | column | conjunction | operator | matchMode | direction | setOperator => fun _ => []
  | term | nullTest => Term.parts Select.parts
  | operand => Operand.parts Select.parts
  | comparison => Comparison.parts Select.parts
  | test => Test.parts Select.parts
  | range => Range.parts Select.parts
  | flag => Flag.parts Select.parts
  | textMatch => TextMatch.parts Select.parts
  | inList => InList.parts Select.parts
  | predicate => Predicate.parts Select.parts
  | sortKey => SortKey.parts Select.parts
  | select => Select.parts
  | assignment => Assignment.parts
  | insert => Insert.parts
  | update => Update.parts
  | delete => Delete.parts
  | setOperation => SetOperation.parts

theorem lawful (t : SerialType) (n : Nat) : t.codec.Lawful t.parts n := by
  have select := Select.lawful n
  cases t with
  | value => exact Value.lawful n
  | table => exact Table.lawful n
  | column => exact Column.lawful n
  | conjunction => exact Conjunction.lawful n
  | operator => exact Operator.lawful n
  | matchMode => exact MatchMode.lawful n
  | direction => exact Direction.lawful n
  | setOperator => exact SetOperator.lawful n
  | term => exact Term.lawful select
  | operand => exact Operand.lawful select
  | comparison => exact Comparison.lawful select
  | test => exact Test.lawful select
  | range => exact Range.lawful select
  | nullTest => exact Term.nullTest_lawful select
  | flag => exact Flag.lawful select
  | textMatch => exact TextMatch.lawful select
  | inList => exact InList.lawful select
  | predicate => exact Predicate.treeCodec_lawful n
  | sortKey => exact SortKey.lawful select
  | select => exact select
  | assignment => exact Assignment.lawful n
  | insert => exact Insert.lawful n
  | update => exact Update.lawful n
  | delete => exact Delete.lawful n
  | setOperation => exact SetOperation.lawful n

/-- The compact text of a value of any type, in which arrays and objects are nested at most
`maxDepth` deep, is read as the value if the text of every double and of every instant in it is read
as that double or instant, and is rejected as a mismatch if one of its doubles is not finite,
whatever the others are read as. -/
theorem round_trip (t : SerialType) (x : t.Carrier)
    (depth : (t.codec.encode x).nesting ≤ maxDepth) :
    ((∀ p ∈ t.parts x, p.Kept) → t.codec.read (t.codec.write x) = .ok x) ∧
      ((∃ y, .double y ∈ t.parts x ∧ y.isFinite = false) →
        t.codec.read (t.codec.write x) = .error .mismatch) := by
  obtain ⟨b, same, read⟩ := (t.lawful (maxDepth + 1)).read_write depth
  constructor
  · intro kept
    have written : (t.parts x).all Part.isWritten = true :=
      List.all_eq_true.2 fun p hp => (kept p hp).isWritten
    rw [read, settled, if_pos written, same kept]
  · rintro ⟨y, mem, infinite⟩
    have notAll : ¬(t.parts x).all Part.isWritten = true := by
      intro all
      have finite : y.isFinite = true := List.all_eq_true.1 all _ mem
      rw [finite] at infinite
      cases infinite
    rw [read, settled, if_neg notAll]

/-- An UPDATE with numbers of several kinds, a document and an instant, and a nested SELECT. -/
def sampled (x : Double) : Update where
  table := some { name := "samples", schema := some "lab" }
  values :=
    [⟨"ratio", .float x⟩, ⟨"zero", .json ⟨.array [.number (.double ⟨0x8000000000000000⟩ rfl)], by
      simp [Json.IsSorted, Json.AllSorted]⟩⟩,
      ⟨"taken", .timestamp ⟨-1, 1500000000, by decide, by decide, by decide⟩⟩]
  filter := some (.node { among := [⟨.subquery (.of {}), none, [.int (-7), .bytes [0, 255]]⟩] }
    [.node { conjunction := .orNot, tests := [.literal "a\"b"] } []])

theorem round_trip_sampled :
    Update.codec.read (Update.codec.write (sampled ⟨0x3FB999999999999A⟩)) =
        .ok (sampled ⟨0x3FB999999999999A⟩) ∧
      Update.codec.read (Update.codec.write (sampled ⟨0x7FF8000000000000⟩)) = .error .mismatch := by
  have tenth : Double.Recovered ⟨0x3FB999999999999A⟩ :=
    ⟨rfl, ⟨false, ['0'], ['1'], none⟩, rfl, rfl⟩
  have negativeZero : Double.Recovered ⟨0x8000000000000000⟩ :=
    ⟨rfl, ⟨true, ['0'], ['0'], none⟩, rfl, rfl⟩
  have leap : Timestamp.Regular ⟨-1, 1500000000, by decide, by decide, by decide⟩ := by decide
  constructor
  · refine (round_trip update (sampled ⟨0x3FB999999999999A⟩) (by decide)).1 fun p hp => ?_
    have listed : p ∈ [.double ⟨0x3FB999999999999A⟩, .double ⟨0x8000000000000000⟩,
      .instant ⟨-1, 1500000000, by decide, by decide, by decide⟩] := hp
    simp only [List.mem_cons, List.not_mem_nil, or_false] at listed
    rcases listed with rfl | rfl | rfl
    · exact tenth
    · exact negativeZero
    · exact leap
  · exact (round_trip update (sampled ⟨0x7FF8000000000000⟩) (by decide)).2
      ⟨⟨0x7FF8000000000000⟩, List.mem_cons_self, rfl⟩

/-! ### Values that are not read back -/

/-- A document that is nested too deep is rejected wherever it stands. -/
theorem decode_deep (d : Document) {n : Nat} (deep : n < d.json.nesting) :
    Value.codec.decode (n + 1) (Value.codec.encode (.json d)).reread.outline =
      .error .malformed := by
  rw [Value.decode_encode (.json d) rfl]
  show _ <$> d.json.reread.outline.json n = _
  rw [Json.json_outline, Json.nesting_reread, if_neg (Nat.not_le.2 deep)]
  rfl

/-- Wherever an instant stands, its nanoseconds are read as they are carried. -/
theorem decode_instant (t : Timestamp) (n : Nat) :
    Value.codec.decode (n + 1) (Value.codec.encode (.timestamp t)).reread.outline =
      .ok (.timestamp t.reread) := by
  rw [Value.decode_encode (.timestamp t) rfl]
  simp [Value.kind, Value.Kind.content, Codec.parsed, Json.reread, Json.outline,
    Timestamp.read_write]

/-- Some arrays around an empty one, each the only item of the next. -/
def bracketed : Nat → Json
  | 0 => .array []
  | n + 1 => .array [bracketed n]

theorem isSorted_bracketed (n : Nat) : (bracketed n).IsSorted := by
  induction n with
  | zero => trivial
  | succ n ih => exact ⟨ih, trivial⟩

theorem nesting_bracketed (n : Nat) : (bracketed n).nesting = n + 1 := by
  induction n with
  | zero => rfl
  | succ n ih => simp [bracketed, Json.nesting, Json.nestingItems, ih]

theorem doubles_bracketed (n : Nat) : (bracketed n).doubles = [] := by
  induction n with
  | zero => rfl
  | succ n ih => simp [bracketed, Json.doubles, Json.doublesItems, ih]

/-- One hundred and twenty-seven arrays, one inside the other. -/
def deepDocument : Document :=
  ⟨bracketed 126, isSorted_bracketed 126⟩

/-- A second and a third after four seconds past a minute, counted as nanoseconds. -/
def carriedInstant : Timestamp :=
  ⟨86164, 1333333333, by decide, by decide, by decide⟩

/-- A range from a document that is nested too deep to a word that is no number. -/
def deepRange : Range Select :=
  ⟨.column { name := "a" }, .json deepDocument, .float ⟨0x7FF8000000000000⟩⟩

theorem deep_deepDocument : 126 < deepDocument.json.nesting := by
  have : deepDocument.json.nesting = 127 := nesting_bracketed 126
  omega

theorem read_deepDocument :
    Value.codec.read (Value.codec.write (.json deepDocument)) = .error .malformed := by
  rw [Codec.read_write]
  exact decode_deep deepDocument deep_deepDocument

theorem read_carriedInstant :
    Value.codec.read (Value.codec.write (.timestamp carriedInstant)) =
      .ok (.timestamp ⟨86165, 333333333, by decide, by decide, by decide⟩) := by
  rw [Codec.read_write]
  exact decode_instant carriedInstant 126

/-- A range is rejected as its lower bound is, before the upper bound is read. -/
theorem decode_range {e : Range Select} {n : Nat} {fault : Fault}
    (subject : (Term.codec Select.codec).decode n
      ((Term.codec Select.codec).encode e.subject).reread.outline = .ok e.subject)
    (lower : Value.codec.decode n (Value.codec.encode e.lower).reread.outline = .error fault) :
    (Range.codec Select.codec).decode (n + 1)
      ((Range.codec Select.codec).encode e).reread.outline = .error fault := by
  have others : ∀ m ∈ [(some "lower", (Value.codec.encode e.lower).reread.outline),
      (some "upper", (Value.codec.encode e.upper).reread.outline)], m.1 ≠ some "subject" := by
    simp
  show Layout.readMembers (.cons "subject" _ none (.cons "lower" _ none _)) n
    [(some "subject", _), (some "lower", _), (some "upper", _)] (none, none, none, ()) >>= _ = _
  simp only [Layout.readMembers_first, subject, bind, Except.bind,
    Layout.readMembers_others n _ _ _ others, lower]
  rfl

theorem read_deepRange : (Range.codec Select.codec).read
    ((Range.codec Select.codec).write deepRange) = .error .malformed := by
  have lower := decode_deep deepDocument (n := 125) (Nat.lt_of_succ_lt deep_deepDocument)
  rw [Codec.read_write]
  exact decode_range rfl lower

/-- Three ways in which a value fails to be read back.  One hundred and twenty-seven arrays in a
bind value make a text that is nested 128 deep, which is not read.  Nanoseconds that have run on
where there is no leap second are read as one second more.  A double that is not finite is not met
if something before it is nested too deep. -/
theorem not_round_trip :
    ((value.codec.encode (.json deepDocument)).nesting = 128 ∧
        value.parts (.json deepDocument) = [] ∧
        value.codec.read (value.codec.write (.json deepDocument)) = .error .malformed) ∧
      ((value.codec.encode (.timestamp carriedInstant)).nesting = 1 ∧
        value.parts (.timestamp carriedInstant) = [.instant carriedInstant] ∧
        value.codec.read (value.codec.write (.timestamp carriedInstant)) =
          .ok (.timestamp ⟨86165, 333333333, by decide, by decide, by decide⟩)) ∧
      (range.parts deepRange = [.double ⟨0x7FF8000000000000⟩] ∧
        range.codec.read (range.codec.write deepRange) = .error .malformed) := by
  have none : Value.parts (.json deepDocument) = [] :=
    congrArg (List.map Part.double) (doubles_bracketed 126)
  have depth : (Value.toJson (.json deepDocument)).nesting = 128 := by
    simp [Value.toJson, Value.content?, Json.nesting, Json.nestingMembers, deepDocument,
      nesting_bracketed]
  have onlyDouble : Range.parts Select.parts deepRange = [.double ⟨0x7FF8000000000000⟩] := by
    show [] ++ Value.parts (.json deepDocument) ++ [_] = [_]
    rw [none]
    rfl
  exact ⟨⟨depth, none, read_deepDocument⟩, ⟨rfl, rfl, read_carriedInstant⟩, onlyDouble,
    read_deepRange⟩

end SerialType

end SqlBuilder
