import SqlBuilder.Error
import SqlBuilder.Identifier
import SqlBuilder.Name
import SqlBuilder.Sql.Style
import SqlBuilder.Value

/-!
# Writing SQL

A `Writer` holds the text written so far and the values bound so far.  `Writing` is an action on a
writer that may fail; what was written before a failure stays.  Placeholders count the values in
the order of writing, whatever nests inside what.
-/

namespace SqlBuilder

/-- The text and the bound values so far. -/
structure Writer where
  style : Style
  sql : String := ""
  params : Array Value := #[]

/-- An action on a writer, which keeps what was written when it fails. -/
abbrev Writing := ExceptT BuildError (StateM Writer)

namespace Writing

/-- Appends text. -/
def text (s : String) : Writing Unit :=
  modify fun w => { w with sql := w.sql ++ s }

/-- Appends a name. -/
def ident (name : String) : Writing Unit :=
  modify fun w => { w with sql := w.sql ++ Identifier.write (w.style.quoting = .always) name }

/-- The placeholder with a number. -/
def placeholder (p : Placeholder) (n : Nat) : String :=
  match p with
  | .dollar => "$" ++ toString n
  | .questionMark => "?"

/-- Binds a value and appends its placeholder. -/
def param (v : Value) : Writing Unit :=
  modify fun w =>
    { w with
      sql := w.sql ++ placeholder w.style.placeholder (w.params.size + 1)
      params := w.params.push v }

/-- Runs actions in order, with a text after each but the last. -/
def separated (separator : String) : List (Writing Unit) → Writing Unit
  | [] => pure ()
  | [w] => w
  | w :: ws => do
    w
    text separator
    separated separator ws

/-- Puts what an action writes between parentheses. -/
def parenthesized (w : Writing Unit) : Writing Unit := do
  text "("
  w
  text ")"

/-- Binds values, with commas between their placeholders. -/
def params (vs : List Value) : Writing Unit :=
  separated ", " (vs.map param)

/-- The schema of a table and a point, if it has a schema. -/
def schema (t : Table) : Writing Unit :=
  match t.schema with
  | some s => do
    ident s
    text "."
  | none => pure ()

/-- A table where a statement introduces it: schema, name and alias. -/
def table (t : Table) : Writing Unit := do
  schema t
  ident t.name
  match t.aliasName with
  | some a => do
    text " AS "
    ident a
  | none => pure ()

/-- What a table puts before the name of a column: its alias, or else its schema and name. -/
def qualifier (t : Table) : Writing Unit := do
  if t.aliasName.isNone then schema t
  ident t.qualifier
  text "."

/-- A column after its qualifier. -/
def column (c : Column) : Writing Unit := do
  match c.table with
  | some t => qualifier t
  | none => pure ()
  ident c.name

end Writing

end SqlBuilder
