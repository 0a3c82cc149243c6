import SqlBuilder.Query.Select

/-!
# References to columns

A caller refers to a column by a name, which is resolved where it is used, or by a term, which
stands for itself.  The key of a reference is what the caller wrote, whatever it resolves to.
-/

namespace SqlBuilder

/-- How a caller refers to a column. -/
inductive ColumnArg where
  | name (n : String)
  | term (t : Term Select)

namespace ColumnArg

/-- What a reference stands for where bare names are bound to `binding`. -/
def resolve (binding : Option Table) : ColumnArg → Term Select
  | name n => .column (Column.ofName binding n)
  | term t => t

/-- The reference as written; a nested SELECT has no key. -/
def key : ColumnArg → Option String
  | name n => some n
  | term t => t.key

end ColumnArg

namespace Select

/-- Appends a column to the list of a SELECT. -/
def addColumn (c : ColumnArg) : Select → Select :=
  modify fun s => { s with columns := s.columns ++ [c.resolve s.table] }

/-- Replaces the list of a SELECT. -/
def columns (cs : List ColumnArg) : Select → Select :=
  modify fun s => { s with columns := cs.map (ColumnArg.resolve s.table) }

/-- Appends a sort key. -/
def orderBy (c : ColumnArg) (d : Direction) : Select → Select :=
  modify fun s => { s with orderBy := s.orderBy ++ [⟨c.resolve s.table, d⟩] }

end Select

end SqlBuilder
