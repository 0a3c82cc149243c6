import SqlBuilder.Query.Select
import SqlBuilder.Serial.Value

/-!
# The serial form of names, conditions and SELECTs

Every form of a type that leaves nested SELECTs open takes the form of these.  `Select.codec` closes
the knot: writing is a fold, and reading goes down as long as the depth that is left allows, which
every nested SELECT uses up a part of.
-/

namespace SqlBuilder

open Layout Codec

/-- A table as a record. -/
def Table.codec : Codec Table :=
  (required "name" string <| optional "alias" string <| optional "schema" string nil).record
    (fun t => (t.name, t.aliasName, t.schema, ()))
    (fun (name, aliasName, schema, ()) => { name, aliasName, schema })

/-- A column as a record, with its table if it has one. -/
def Column.codec : Codec Column :=
  (required "name" string <| optional "alias" string <| optional "table" Table.codec nil).record
    (fun c => (c.name, c.aliasName, c.table, ()))
    (fun (name, aliasName, table, ()) => { name, aliasName, table })

/-! ## Vocabularies -/

/-- The name of a conjunction as a case. -/
def Conjunction.serialName : Conjunction → String
  | and => "And"
  | or => "Or"
  | andNot => "AndNot"
  | orNot => "OrNot"

/-- A conjunction as a case without content. -/
def Conjunction.codec : Codec Conjunction :=
  plainCase serialName [and, or, andNot, orNot]

/-- The name of an operator as a case. -/
def Operator.serialName : Operator → String
  | equal => "Equal"
  | notEqual => "NotEqual"
  | greaterThan => "GreaterThan"
  | greaterThanOrEqual => "GreaterThanOrEqual"
  | lessThan => "LessThan"
  | lessThanOrEqual => "LessThanOrEqual"
  | like => "Like"
  | notLike => "NotLike"

/-- An operator as a case without content. -/
def Operator.codec : Codec Operator :=
  plainCase serialName
    [equal, notEqual, greaterThan, greaterThanOrEqual, lessThan, lessThanOrEqual, like, notLike]

/-- A mode as a case without content, under the name by which callers know it. -/
def MatchMode.codec : Codec MatchMode :=
  plainCase name [natural, boolean, queryExpansion]

/-- The name of a direction as a case, which is short. -/
def Direction.serialName : Direction → String
  | ascending => "Asc"
  | descending => "Desc"

/-- A direction as a case without content. -/
def Direction.codec : Codec Direction :=
  plainCase serialName [ascending, descending]

/-- The name of a set operator as a case. -/
def SetOperator.serialName : SetOperator → String
  | union => "Union"
  | unionAll => "UnionAll"
  | intersect => "Intersect"
  | except => "Except"

/-- A set operator as a case without content. -/
def SetOperator.codec : Codec SetOperator :=
  plainCase serialName [union, unionAll, intersect, except]

/-! ## Conditions -/

section Conditions

variable {q : Type} (sub : Codec q)

/-- A term as one of two cases. -/
def Term.codec : Codec (Term q) where
  encode
    | column c => carry "Column" Column.codec c
    | subquery s => carry "Subquery" sub s
  decode := readCase [] [carried "Column" Column.codec column, carried "Subquery" sub subquery]

/-- An operand as one of three cases. -/
def Operand.codec : Codec (Operand q) where
  encode
    | value v => carry "Value" Value.codec v
    | column c => carry "Column" Column.codec c
    | subquery s => carry "Subquery" sub s
  decode := readCase []
    [carried "Value" Value.codec value, carried "Column" Column.codec column,
      carried "Subquery" sub subquery]

/-- A comparison as a record of its sides and its operator. -/
def Comparison.codec : Codec (Comparison q) :=
  (required "subject" (Term.codec sub) <| required "operator" Operator.codec <|
    required "target" (Operand.codec sub) nil).record
    (fun c => (c.subject, c.operator, c.target, ()))
    (fun (subject, operator, target, ()) => { subject, operator, target })

/-- A comparison or literal text as one of two cases. -/
def Test.codec : Codec (Test q) where
  encode
    | comparison c => carry "Structured" (Comparison.codec sub) c
    | literal sql => carry "Literal" string sql
  decode := readCase []
    [carried "Structured" (Comparison.codec sub) comparison, carried "Literal" string literal]

/-- A range as a record of its subject and its bounds. -/
def Range.codec : Codec (Range q) :=
  (required "subject" (Term.codec sub) <| required "lower" Value.codec <|
    required "upper" Value.codec nil).record
    (fun e => (e.subject, e.lower, e.upper, ()))
    (fun (subject, lower, upper, ()) => { subject, lower, upper })

/-- The form of a test for null, which is a record of its subject alone. -/
def Term.nullTestCodec : Codec (Term q) :=
  (required "subject" (Term.codec sub) nil).record
    (fun t => (t, ()))
    (fun (t, ()) => t)

/-- A flag as a record of its subject and its value. -/
def Flag.codec : Codec (Flag q) :=
  (required "subject" (Term.codec sub) <| required "value" Value.codec nil).record
    (fun e => (e.subject, e.value, ()))
    (fun (subject, value, ()) => { subject, value })

/-- A full-text search as a record. -/
def TextMatch.codec : Codec (TextMatch q) :=
  (required "columns" (Term.codec sub).list <| required "values" Value.codec.list <|
    required "mode" MatchMode.codec nil).record
    (fun e => (e.columns, e.values, e.mode, ()))
    (fun (columns, values, mode, ()) => { columns, values, mode })

/-- A list as a record, whose key may be missing. -/
def InList.codec : Codec (InList q) :=
  (required "subject" (Term.codec sub) <| optional "key" string <|
    required "values" Value.codec.list nil).record
    (fun e => (e.subject, e.key, e.values, ()))
    (fun (subject, key, values, ()) => { subject, key, values })

/-! ## Predicates -/

/-- The fields of a node, given the form of its sub-groups. -/
def Conditions.layout {g : Type} (group : Codec g) :=
  required "conjunction" Conjunction.codec <|
  required "comparisons" (Test.codec sub).list <|
  required "betweens" (Range.codec sub).list <|
  required "not_betweens" (Range.codec sub).list <|
  required "is_null" (Term.nullTestCodec sub).list <|
  required "is_not_null" (Term.nullTestCodec sub).list <|
  required "booleans" (Flag.codec sub).list <|
  required "matches" (TextMatch.codec sub).list <|
  required "ins" (InList.codec sub).list <|
  required "not_ins" (InList.codec sub).list <|
  required "exists" sub.list <|
  required "not_exists" sub.list <|
  required "sub_wheres" group.list <|
  optional "table" Table.codec nil

/-- The form of a node with its sub-groups, given the form of these. -/
def Conditions.codecWith {g : Type} (group : Codec g) : Codec (Conditions q × List g) :=
  (layout sub group).record
    (fun (c, groups) =>
      (c.conjunction, c.tests, c.between, c.notBetween, c.isNull, c.isNotNull, c.flags,
        c.matching, c.among, c.notAmong, c.someRow, c.noRow, groups, c.table, ()))
    (fun (conjunction, tests, between, notBetween, isNull, isNotNull, flags, matching, among,
        notAmong, someRow, noRow, groups, table, ()) =>
      ({ conjunction, table, matching, among, notAmong, between, notBetween, tests, isNull,
         isNotNull, flags, someRow, noRow }, groups))

end Conditions

namespace Predicate

variable {q : Type} (sub : Codec q)

mutual

/-- A predicate as JSON, its sub-groups first. -/
def toJson : Predicate q → Json
  | node own groups => (Conditions.codecWith sub raw).encode (own, groupsToJson groups)

/-- Some sub-groups as JSON. -/
def groupsToJson : List (Predicate q) → List Json
  | [] => []
  | p :: rest => toJson p :: groupsToJson rest

end

/-- Reads a predicate of at most some number of levels. -/
def decodeLevels : Nat → Reader (Predicate q)
  | 0 => fun _ _ => .error .malformed
  | n + 1 => fun d o =>
    (fun (own, groups) => node own groups) <$>
      (Conditions.codecWith sub ⟨toJson sub, decodeLevels n⟩).decode d o

/-- The form of predicates; there are no more levels than depth is left. -/
def codec : Codec (Predicate q) where
  encode := toJson sub
  decode d := decodeLevels sub (d + 1) d

end Predicate

/-! ## SELECTs -/

/-- A sort key as a record of its term and its direction. -/
def SortKey.codec {q : Type} (sub : Codec q) : Codec (SortKey q) :=
  (required "column" (Term.codec sub) <| required "order" Direction.codec nil).record
    (fun k => (k.term, k.direction, ()))
    (fun (term, direction, ()) => { term, direction })

/-- The form of a SELECT, given the form of nested ones. -/
def SelectOver.codec {q : Type} (sub : Codec q) : Codec (SelectOver q) :=
  (optional "table" Table.codec <| required "columns" (Term.codec sub).list <|
    optional "where_tree" (Predicate.codec sub) <|
    required "order_by" (SortKey.codec sub).list <| optional "limit" uint64 <|
    optional "offset" uint64 nil).record
    (fun s => (s.table, s.columns, s.filter, s.orderBy, s.limit, s.offset, ()))
    (fun (table, columns, filter, orderBy, limit, offset, ()) =>
      { table, columns, filter, orderBy, limit, offset })

namespace Select

/-- A SELECT as JSON, its nested SELECTs first. -/
def toJson : Select → Json :=
  fold (SelectOver.codec raw).encode

/-- Reads a SELECT of at most some number of levels. -/
def decodeLevels : Nat → Reader Select
  | 0 => fun _ _ => .error .malformed
  | n + 1 => fun d o => of <$> (SelectOver.codec ⟨toJson, decodeLevels n⟩).decode d o

/-- The form of SELECTs; there are no more levels than depth is left. -/
def codec : Codec Select where
  encode := toJson
  decode d := decodeLevels (d + 1) d

end Select

end SqlBuilder
