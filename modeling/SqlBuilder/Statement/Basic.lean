import SqlBuilder.Query.Reference

/-!
# Statements

INSERT, UPDATE, DELETE and the set operations, beside SELECT, and `Statement`, which is any of
them.  `Filtered` is what the three statements with a WHERE clause have in common.
-/

namespace SqlBuilder

/-- A column and the value it gets. -/
structure Assignment where
  column : String
  value : Value

/-- Assigns a value to a column: the last write counts and keeps the place of the first. -/
def assign (column : String) (value : Value) : List Assignment → List Assignment
  | [] => [{ column, value }]
  | a :: rest =>
    if a.column = column then { a with value } :: rest else a :: assign column value rest

/-- An INSERT of one row. -/
structure Insert where
  table : Table
  values : List Assignment := []
  /-- Whether a row that conflicts with another is skipped. -/
  ignore : Bool := false

/-- An UPDATE. -/
structure Update where
  table : Option Table := none
  values : List Assignment := []
  filter : Option (Predicate Select) := none

/-- A DELETE. -/
structure Delete where
  table : Option Table := none
  filter : Option (Predicate Select) := none
  /-- Whether all rows may go when there is no condition. -/
  allowAll : Bool := false

/-- The combined rows of several SELECTs. -/
structure SetOperation where
  operator : SetOperator
  members : List Select := []

namespace Insert

/-- An INSERT into a table. -/
def ofTable (t : Table) : Insert :=
  { table := t }

/-- Assigns a value to a column; a column that has one already gets the new one. -/
def set (column : String) (value : Value) (s : Insert) : Insert :=
  { s with values := assign column value s.values }

end Insert

namespace Update

/-- An UPDATE of a table. -/
def ofTable (t : Table) : Update :=
  { table := some t }

/-- Assigns a value to a column; a column that has one already gets the new one. -/
def set (column : String) (value : Value) (s : Update) : Update :=
  { s with values := assign column value s.values }

/-- Changes the table; terms that are there keep theirs. -/
def setTable (t : Table) (s : Update) : Update :=
  { s with table := some t }

end Update

namespace Delete

/-- A DELETE from a table. -/
def ofTable (t : Table) : Delete :=
  { table := some t }

/-- Changes the table; terms that are there keep theirs. -/
def setTable (t : Table) (s : Delete) : Delete :=
  { s with table := some t }

end Delete

namespace SetOperation

/-- A set operation without members. -/
def ofOperator (operator : SetOperator) : SetOperation :=
  { operator }

/-- Appends a member. -/
def add (s : Select) (o : SetOperation) : SetOperation :=
  { o with members := o.members ++ [s] }

/-- The rows of one SELECT that another does not have. -/
def minus (first second : Select) : SetOperation :=
  (ofOperator .except).add first |>.add second

end SetOperation

/-- Any statement. -/
inductive Statement where
  | select (s : Select)
  | insert (s : Insert)
  | update (s : Update)
  | delete (s : Delete)
  | setOperation (s : SetOperation)

/-! ## Equality -/

/-- Equality of assignments; values are compared as bind values. -/
def Assignment.same (a b : Assignment) : Bool :=
  a.column == b.column && a.value.same b.value

/-- Equality of predicates with nested SELECTs. -/
def Predicate.sameTree : Predicate Select → Predicate Select → Bool :=
  Predicate.same Select.same

/-- Equality of INSERTs, assignments in their order. -/
def Insert.same (a b : Insert) : Bool :=
  a.table == b.table && sameList Assignment.same a.values b.values && a.ignore == b.ignore

/-- Equality of UPDATEs, assignments in their order. -/
def Update.same (a b : Update) : Bool :=
  a.table == b.table && sameList Assignment.same a.values b.values &&
    sameOption Predicate.sameTree a.filter b.filter

/-- Equality of DELETEs. -/
def Delete.same (a b : Delete) : Bool :=
  a.table == b.table && sameOption Predicate.sameTree a.filter b.filter && a.allowAll == b.allowAll

/-- Equality of set operations, members in their order. -/
def SetOperation.same (a b : SetOperation) : Bool :=
  a.operator == b.operator && sameList Select.same a.members b.members

/-- Equality of statements of one kind. -/
def Statement.same : Statement → Statement → Bool
  | select a, select b => a.same b
  | insert a, insert b => a.same b
  | update a, update b => a.same b
  | delete a, delete b => a.same b
  | setOperation a, setOperation b => a.same b
  | _, _ => false

/-! ## Statements with a WHERE clause -/

/-- A statement with a table and a predicate, either of which may be missing. -/
class Filtered (σ : Type) where
  table : σ → Option Table
  filter : σ → Option (Predicate Select)
  setFilter : Predicate Select → σ → σ

instance : Filtered Select where
  table s := s.form.table
  filter s := s.form.filter
  setFilter p := Select.modify fun s => { s with filter := some p }

instance : Filtered Update where
  table s := s.table
  filter s := s.filter
  setFilter p s := { s with filter := some p }

instance : Filtered Delete where
  table s := s.table
  filter s := s.filter
  setFilter p s := { s with filter := some p }

end SqlBuilder
