import SqlBuilder.Serial.Query
import SqlBuilder.Statement.Basic

/-!
# The serial form of statements

INSERT, UPDATE, DELETE and the set operations as records, over the forms of their parts.
-/

namespace SqlBuilder

open Layout Codec

/-- The form of predicates with nested SELECTs. -/
def Predicate.treeCodec : Codec (Predicate Select) :=
  Predicate.codec Select.codec

/-- An assignment as a record of its column and its value. -/
def Assignment.codec : Codec Assignment :=
  (required "column" string <| required "value" Value.codec nil).record
    (fun a => (a.column, a.value, ()))
    (fun (column, value, ()) => { column, value })

/-- An INSERT as a record, whose table must be there. -/
def Insert.codec : Codec Insert :=
  (required "table" Table.codec <| required "values" Assignment.codec.list <|
    required "ignore" bool nil).record
    (fun s => (s.table, s.values, s.ignore, ()))
    (fun (table, values, ignore, ()) => { table, values, ignore })

/-- An UPDATE as a record, whose table and predicate may be missing. -/
def Update.codec : Codec Update :=
  (optional "table" Table.codec <| required "values" Assignment.codec.list <|
    optional "where_tree" Predicate.treeCodec nil).record
    (fun s => (s.table, s.values, s.filter, ()))
    (fun (table, values, filter, ()) => { table, values, filter })

/-- A DELETE as a record, whose table and predicate may be missing. -/
def Delete.codec : Codec Delete :=
  (optional "table" Table.codec <| optional "where_tree" Predicate.treeCodec <|
    required "allow_delete_all" bool nil).record
    (fun s => (s.table, s.filter, s.allowAll, ()))
    (fun (table, filter, allowAll, ()) => { table, filter, allowAll })

/-- A set operation as a record of its operator and its members. -/
def SetOperation.codec : Codec SetOperation :=
  (required "operator" SetOperator.codec <| required "selects" Select.codec.list nil).record
    (fun o => (o.operator, o.members, ()))
    (fun (operator, members, ()) => { operator, members })

end SqlBuilder
