import SqlBuilder.Proofs.Stability

/-!
# Reading does not depend on the order of members

The reader of every type is stable, and so `SerialType.reading_ignores_order` holds: of two texts
whose outlines are rearrangements of each other both are read as one value or both are rejected.
They are rejected for a value that is not the one looked for, unless something worse stands where it
is read; then the order decides what is met first.  What comes in as a new member has to be a
complete value.
-/

namespace SqlBuilder

open Outline Codec

/-! ## All types are stable -/

theorem Table.stable (n : Nat) : Stable Table.codec.decode (.type .table) n :=
  .type <| .record (.required nofun isScalar_string.stable <| .optional isScalar_string.stable <|
    .optional isScalar_string.stable .nil) (by simp)

theorem Column.stable (n : Nat) : Stable Column.codec.decode (.type .column) n :=
  .type <| .record (.required nofun isScalar_string.stable <| .optional isScalar_string.stable <|
    .optional (Table.stable n) .nil) (by simp)

theorem Conjunction.stable (n : Nat) : Stable Conjunction.codec.decode (.type .conjunction) n :=
  .type stable_plainCase

theorem Operator.stable (n : Nat) : Stable Operator.codec.decode (.type .operator) n :=
  .type stable_plainCase

theorem MatchMode.stable (n : Nat) : Stable MatchMode.codec.decode (.type .matchMode) n :=
  .type stable_plainCase

theorem Direction.stable (n : Nat) : Stable Direction.codec.decode (.type .direction) n :=
  .type stable_plainCase

theorem SetOperator.stable (n : Nat) : Stable SetOperator.codec.decode (.type .setOperator) n :=
  .type stable_plainCase

section Conditions

variable {q : Type} {sub : Codec q} {n : Nat}

theorem Term.stable (h : Stable sub.decode (.type .select) n) :
    Stable (Term.codec sub).decode (.type .term) n :=
  .type <| .cases <| .cons ⟨rfl, (Column.stable n).map _⟩ <| .cons ⟨rfl, h.map _⟩ .nil

theorem Operand.stable (h : Stable sub.decode (.type .select) n) :
    Stable (Operand.codec sub).decode (.type .operand) n :=
  .type <| .cases <| .cons ⟨rfl, (Value.stable n).map _⟩ <| .cons ⟨rfl, (Column.stable n).map _⟩ <|
    .cons ⟨rfl, h.map _⟩ .nil

theorem Comparison.stable (h : Stable sub.decode (.type .select) n) :
    Stable (Comparison.codec sub).decode (.type .comparison) n :=
  .type <| .record (.required nofun (Term.stable h) <| .required nofun (Operator.stable n) <|
    .required nofun (Operand.stable h) .nil) (by simp)

theorem Test.stable (h : Stable sub.decode (.type .select) n) :
    Stable (Test.codec sub).decode (.type .test) n :=
  .type <| .cases <| .cons ⟨rfl, (Comparison.stable h).map _⟩ <|
    .cons ⟨rfl, isScalar_string.stable.map _⟩ .nil

theorem Range.stable (h : Stable sub.decode (.type .select) n) :
    Stable (Range.codec sub).decode (.type .range) n :=
  .type <| .record (.required nofun (Term.stable h) <| .required nofun (Value.stable n) <|
    .required nofun (Value.stable n) .nil) (by simp)

theorem Term.nullTest_stable (h : Stable sub.decode (.type .select) n) :
    Stable (Term.nullTestCodec sub).decode (.type .nullTest) n :=
  .type <| .record (.required nofun (Term.stable h) .nil) (by simp)

theorem Flag.stable (h : Stable sub.decode (.type .select) n) :
    Stable (Flag.codec sub).decode (.type .flag) n :=
  .type <| .record (.required nofun (Term.stable h) <| .required nofun (Value.stable n) .nil)
    (by simp)

theorem TextMatch.stable (h : Stable sub.decode (.type .select) n) :
    Stable (TextMatch.codec sub).decode (.type .textMatch) n :=
  .type <| .record (.required nofun (Term.stable h).list <|
    .required nofun (Value.stable n).list <| .required nofun (MatchMode.stable n) .nil) (by simp)

theorem InList.stable (h : Stable sub.decode (.type .select) n) :
    Stable (InList.codec sub).decode (.type .inList) n :=
  .type <| .record (.required nofun (Term.stable h) <| .optional isScalar_string.stable <|
    .required nofun (Value.stable n).list .nil) (by simp)

/-- A node with its sub-groups, if the reader of these is stable, is stable at one level more. -/
theorem Conditions.stable {g : Type} {group : Codec g} (h : Stable sub.decode (.type .select) n)
    (hg : Stable group.decode (.type .predicate) n) :
    Stable (codecWith sub group).decode (.type .predicate) (n + 1) := by
  have ranges := (Range.stable h).list
  have terms := (Term.nullTest_stable h).list
  have lists := (InList.stable h).list
  exact .type <| .record_succ (.required nofun (Conjunction.stable n) <|
    .required nofun (Test.stable h).list <| .required nofun ranges <| .required nofun ranges <|
    .required nofun terms <| .required nofun terms <| .required nofun (Flag.stable h).list <|
    .required nofun (TextMatch.stable h).list <| .required nofun lists <| .required nofun lists <|
    .required nofun h.list <| .required nofun h.list <| .required nofun hg.list <|
    .optional (Table.stable n) .nil) (by simp [Conditions.layout])

/-- Reading some number of levels of predicates is stable up to as many levels. -/
theorem Predicate.stable_decodeLevels (h : Stable sub.decode (.type .select) n) (m : Nat)
    (le : m ≤ n) : Stable (decodeLevels sub m) (.type .predicate) m := by
  induction m with
  | zero => exact stable_zero
  | succ m ih =>
    exact (Conditions.stable (h.mono (Nat.le_of_succ_le le)) (ih (Nat.le_of_succ_le le))).map _

theorem Predicate.stable (h : Stable sub.decode (.type .select) n) :
    Stable (Predicate.codec sub).decode (.type .predicate) n :=
  ⟨fun hd => (stable_decodeLevels h _ hd).edit (Nat.lt_succ_self _),
    fun hd => (stable_decodeLevels h _ hd).fails (Nat.lt_succ_self _)⟩

theorem SortKey.stable (h : Stable sub.decode (.type .select) n) :
    Stable (SortKey.codec sub).decode (.type .sortKey) n :=
  .type <| .record (.required nofun (Term.stable h) <| .required nofun (Direction.stable n) .nil)
    (by simp)

/-- A SELECT, if the reader of nested ones is stable, is stable at one level more. -/
theorem SelectOver.stable (h : Stable sub.decode (.type .select) n) :
    Stable (SelectOver.codec sub).decode (.type .select) (n + 1) :=
  .type <| .record_succ (.optional (Table.stable n) <| .required nofun (Term.stable h).list <|
    .optional (Predicate.stable h) <| .required nofun (SortKey.stable h).list <|
    .optional isScalar_number.stable <| .optional isScalar_number.stable .nil) (by simp)

end Conditions

/-- Reading some number of levels of SELECTs is stable up to as many levels. -/
theorem Select.stable_decodeLevels (n : Nat) : Stable (decodeLevels n) (.type .select) n := by
  induction n with
  | zero => exact stable_zero
  | succ n ih => exact (SelectOver.stable ih).map _

theorem Select.stable (n : Nat) : Stable Select.codec.decode (.type .select) n :=
  ⟨fun _ => (stable_decodeLevels _).edit (Nat.lt_succ_self _),
    fun _ => (stable_decodeLevels _).fails (Nat.lt_succ_self _)⟩

theorem Assignment.stable (n : Nat) : Stable Assignment.codec.decode (.type .assignment) n :=
  .type <| .record (.required nofun isScalar_string.stable <|
    .required nofun (Value.stable n) .nil) (by simp)

theorem Insert.stable (n : Nat) : Stable Insert.codec.decode (.type .insert) n :=
  .type <| .record (.required nofun (Table.stable n) <|
    .required nofun (Assignment.stable n).list <| .required nofun isScalar_bool.stable .nil)
    (by simp)

theorem Update.stable (n : Nat) : Stable Update.codec.decode (.type .update) n :=
  .type <| .record (.optional (Table.stable n) <| .required nofun (Assignment.stable n).list <|
    .optional (Predicate.stable (Select.stable n)) .nil) (by simp)

theorem Delete.stable (n : Nat) : Stable Delete.codec.decode (.type .delete) n :=
  .type <| .record (.optional (Table.stable n) <|
    .optional (Predicate.stable (Select.stable n)) <| .required nofun isScalar_bool.stable .nil)
    (by simp)

theorem SetOperation.stable (n : Nat) : Stable SetOperation.codec.decode (.type .setOperation) n :=
  .type <| .record (.required nofun (SetOperator.stable n) <|
    .required nofun (Select.stable n).list .nil) (by simp)

namespace SerialType

theorem stable (t : SerialType) (n : Nat) : Stable t.codec.decode (.type t) n := by
  have select := Select.stable n
  cases t with
  | value => exact (Value.stable n).type
  | table => exact Table.stable n
  | column => exact Column.stable n
  | conjunction => exact Conjunction.stable n
  | operator => exact Operator.stable n
  | matchMode => exact MatchMode.stable n
  | direction => exact Direction.stable n
  | setOperator => exact SetOperator.stable n
  | term => exact Term.stable select
  | operand => exact Operand.stable select
  | comparison => exact Comparison.stable select
  | test => exact Test.stable select
  | range => exact Range.stable select
  | nullTest => exact Term.nullTest_stable select
  | flag => exact Flag.stable select
  | textMatch => exact TextMatch.stable select
  | inList => exact InList.stable select
  | predicate => exact Predicate.stable select
  | sortKey => exact SortKey.stable select
  | select => exact select
  | assignment => exact Assignment.stable n
  | insert => exact Insert.stable n
  | update => exact Update.stable n
  | delete => exact Delete.stable n
  | setOperation => exact SetOperation.stable n

/-! ## Two readings -/

theorem agree_of_rearranged (t : SerialType) {o o' : Outline} (h : Rearranged (.type t) o o') :
    Agree (t.codec.decode maxDepth o) (t.codec.decode maxDepth o') := by
  induction h with
  | rel _ _ edit => exact (t.stable (maxDepth + 1)).edit (Nat.lt_succ_self _) edit
  | refl => exact .refl
  | symm _ _ _ ih => exact ih.symm
  | trans _ _ _ _ _ ih ih' => exact ih.trans ih'

/-- Texts whose outlines are rearrangements of each other are read as the same value, or both are
rejected.  If the outline is legible, they are rejected as mismatches. -/
theorem reading_ignores_order (t : SerialType) {text text' : String} {o o' : Outline}
    (document : IsDocument text o) (document' : IsDocument text' o')
    (rearranged : Rearranged (.type t) o o') :
    (∃ x, t.codec.read text = .ok x ∧ t.codec.read text' = .ok x) ∨
      ∃ f f', t.codec.read text = .error f ∧ t.codec.read text' = .error f' ∧
        (Legible maxDepth (.type t) o → f = .mismatch ∧ f' = .mismatch) := by
  have agree := t.agree_of_rearranged rearranged
  have fails : ∀ {o}, Legible maxDepth (.type t) o → FailsByMismatch (t.codec.decode maxDepth o) :=
    (t.stable (maxDepth + 1)).fails (Nat.lt_succ_self _)
  rw [t.codec.read_document document, t.codec.read_document document']
  cases read : t.codec.decode maxDepth o with
  | ok x => exact .inl ⟨x, rfl, (agree x).1 read⟩
  | error f =>
    cases read' : t.codec.decode maxDepth o' with
    | ok x => cases read.symm.trans ((agree x).2 read')
    | error f' =>
      exact .inr ⟨f, f', rfl, rfl, fun legible =>
        ⟨fails legible f read, fails ((rearranged.legible _).1 legible) f' read'⟩⟩

/-- A digit as a number. -/
def digit (n : Fin 10) : Json :=
  .number (.integer n (by omega) (by omega))

/-- A test of a column against a number. -/
def tested : Json :=
  .object [("subject", .object [("Column", .object [("name", .string "a")])]),
    ("value", .object [("type", .string "int"), ("value", digit 7)])]

/-- The same test with the number before its kind, a member that is no field, and a null. -/
def testedAnew : Json :=
  .object [("value", .object [("note", .array []), ("value", digit 7), ("type", .string "int")]),
    ("subject", .object [("Column", .object [("table", .null), ("name", .string "a")])])]

theorem rearranged_tested : Rearranged (.type .flag) tested.outline testedAnew.outline := by
  have step : ∀ {o o'}, Edit flag.shape o o' → Rearranged (.type .flag) o o' :=
    fun h => .rel _ _ (.type h)
  refine .trans _ _ _ (step (@Edit.member _ _ (.type .term) [] _ _ _ rfl
    (.type (@Edit.case _ _ (.type .column) _ _ rfl (.type (@Edit.null _ "table" _ _ rfl rfl)))))) ?_
  refine .trans _ _ _ (step (@Edit.member _ _ .value [_] [] _ _ rfl
    (.tagged (@Shuffle.unknown _ "note" (.array [] .closed) _ (by decide) rfl)))) ?_
  refine .trans _ _ _ (step (@Edit.member _ _ .value [_] [] _ _ rfl
    (.tagged (.places (.cons _ (.swap _ _ _)))))) ?_
  exact step (.members (.places (.swap _ _ _)))

/-- A number that is written as a string, after its kind and before it. -/
def misread : Json :=
  .object [("type", .string "int"), ("value", .string "7")]

/-- The same object with its members exchanged. -/
def misreadAnew : Json :=
  .object [("value", .string "7"), ("type", .string "int")]

theorem rearranged_misread : Rearranged (.type .value) misread.outline misreadAnew.outline :=
  .rel _ _ (.type (.tagged (.places (.swap _ _ _))))

theorem legible_misread : Legible maxDepth (.type .value) misread.outline := by
  have kind : under "type" (Json.outlineMembers
      [("type", .string "int"), ("value", .string "7")]) = [.string (some "int")] := rfl
  have content : under "value" (Json.outlineMembers
      [("type", .string "int"), ("value", .string "7")]) = [.string (some "7")] := rfl
  refine .type (.tagged (by simp [passable_cons, Json.outlineMembers]) ?_ ?_)
  · intro o mem
    rw [kind, List.mem_singleton] at mem
    exact mem ▸ .name
  · intro o mem
    rw [content, List.mem_singleton] at mem
    exact mem ▸ ⟨.string "7", json_string _ _⟩

theorem reading_ignores_order_tested :
    flag.codec.read tested.compact = .ok ⟨.column { name := "a" }, .int 7⟩ ∧
      flag.codec.read testedAnew.compact = .ok ⟨.column { name := "a" }, .int 7⟩ ∧
      value.codec.read misread.compact = .error .mismatch ∧
      value.codec.read misreadAnew.compact = .error .mismatch := by
  have document : ∀ j : Json, j.doubles = [] → IsDocument j.compact j.outline :=
    fun _ => Json.isDocument_of_doubles
  have read : flag.codec.read tested.compact = .ok ⟨.column { name := "a" }, .int 7⟩ := by
    rw [flag.codec.read_document (document tested rfl)]
    rfl
  have fails : value.codec.read misread.compact = .error .mismatch := by
    rw [value.codec.read_document (document misread rfl)]
    rfl
  refine ⟨read, ?_, fails, ?_⟩
  · obtain ⟨x, h, h'⟩ | ⟨f, f', h, -, -⟩ := reading_ignores_order flag (document tested rfl)
      (document testedAnew rfl) rearranged_tested
    · exact h'.trans (h.symm.trans read)
    · cases h.symm.trans read
  · obtain ⟨x, h, -⟩ | ⟨f, f', -, h', only⟩ := reading_ignores_order value (document misread rfl)
      (document misreadAnew rfl) rearranged_misread
    · cases h.symm.trans fails
    · rw [h', (only legible_misread).2]

/-! ### What is met first -/

/-- A range of digits where a term and two bind values are looked for, the term second. -/
def lowerFirst : Json :=
  .object [("lower", digit 5), ("subject", digit 5), ("upper", digit 5)]

/-- The same with the term first. -/
def subjectFirst : Json :=
  .object [("subject", digit 5), ("lower", digit 5), ("upper", digit 5)]

/-- A digit in the place of a named case is worse than a mismatch, so that the order of the members
decides how reading fails; and a key that is half a surrogate pair is not passed over, though it is
the name of no field. -/
theorem faults_depend_on_order :
    (IsDocument lowerFirst.compact lowerFirst.outline ∧
      IsDocument subjectFirst.compact subjectFirst.outline ∧
      Edit (.type .range) lowerFirst.outline subjectFirst.outline ∧
      range.codec.read lowerFirst.compact = .error .mismatch ∧
      range.codec.read subjectFirst.compact = .error .malformed) ∧
    (Json.scan "\x7b\"\\ud800\":0,\"name\":\"t\"\x7d".toList).2 = some [] ∧
      Table.codec.read "\x7b\"name\":\"t\"\x7d" = .ok { name := "t" } ∧
      Table.codec.read "\x7b\"\\ud800\":0,\"name\":\"t\"\x7d" = .error .malformed := by
  have document : ∀ j : Json, j.doubles = [] → IsDocument j.compact j.outline :=
    fun _ => Json.isDocument_of_doubles
  refine ⟨⟨document _ rfl, document _ rfl, .type (.members (.places (.swap _ _ _))), ?_, ?_⟩, ?_⟩
  · rw [range.codec.read_document (document _ rfl)]
    rfl
  · rw [range.codec.read_document (document _ rfl)]
    rfl
  · decide +kernel

end SerialType

end SqlBuilder
