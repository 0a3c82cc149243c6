/-!
# Tables and columns

A `Table` is what a statement works on and what bare column names are bound to.  `Column.ofName`
reads a column name: a well-formed dotted name brings its own table, every other name is kept whole
and takes the table at hand.
-/

namespace SqlBuilder

/-- A table, possibly under another name and in a schema. -/
structure Table where
  name : String
  aliasName : Option String := none
  schema : Option String := none
  deriving DecidableEq, Repr

/-- The name that qualifies columns: the alias if there is one. -/
def Table.qualifier (t : Table) : String :=
  t.aliasName.getD t.name

/-- A column, possibly bound to a table and renamed in a SELECT list. -/
structure Column where
  name : String
  aliasName : Option String := none
  table : Option Table := none
  deriving DecidableEq, Repr

namespace Column

/-- Whether the column is the wildcard. -/
def isAll (c : Column) : Bool :=
  c.name == "*"

/-- The name by which a caller refers to the column: with its qualifier if it has a table. -/
def key (c : Column) : String :=
  match c.table with
  | some t => t.qualifier ++ "." ++ c.name
  | none => c.name

/-- The pieces of a text between its dots; there is always one more than there are dots. -/
def segments : List Char → List (List Char)
  | [] => [[]]
  | c :: cs =>
    if c = '.' then [] :: segments cs
    else match segments cs with
      | s :: ss => (c :: s) :: ss
      | [] => [[c]]

/-- The column that a dotted name of two or three non-empty segments without quotes denotes. -/
def ofDotted (name : String) : Option Column :=
  let cs := name.toList
  if cs.contains '"' || (segments cs).any List.isEmpty then none
  else match (segments cs).map String.ofList with
    | [table, column] => some { name := column, table := some { name := table } }
    | [schema, table, column] =>
      some { name := column, table := some { name := table, schema := some schema } }
    | _ => none

/-- The column that a name denotes where bare names are bound to `binding`. -/
def ofName (binding : Option Table) (name : String) : Column :=
  (ofDotted name).getD { name := name, table := binding }

end Column

end SqlBuilder
