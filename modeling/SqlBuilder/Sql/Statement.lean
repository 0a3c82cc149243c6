import SqlBuilder.Sql.Query
import SqlBuilder.Statement.Basic

/-!
# Writing statements

`Renderable` collects what can be written: the five statements, any of them, and predicates, which
are written without the keyword before them.
-/

namespace SqlBuilder

open Writing

/-- What can be written as SQL. -/
class Renderable (σ : Type) where
  write : σ → Writing Unit

namespace Insert

/-- An INSERT; it needs a value and is written over the name of its table alone. -/
def write (s : Insert) : Writing Unit :=
  if s.values.isEmpty then throw (.validation .nothingToInsert)
  else do
    text "INSERT INTO "
    ident s.table.name
    text " ("
    separated ", " (s.values.map fun a => ident a.column)
    text ") VALUES ("
    params (s.values.map Assignment.value)
    text ")"
    if s.ignore then text " ON CONFLICT DO NOTHING"

end Insert

/-- A column, the sign of assignment, and the placeholder of its value. -/
def Assignment.write (a : Assignment) : Writing Unit := do
  ident a.column
  text " = "
  param a.value

namespace Update

/-- An UPDATE; it needs a table and then an assignment. -/
def write (s : Update) : Writing Unit := do
  let t ← requireTable "UPDATE" s.table
  if s.values.isEmpty then throw (.validation .nothingToSet)
  text "UPDATE "
  Writing.table t
  text " SET "
  separated ", " (s.values.map Assignment.write)
  Predicate.writeWhere (s.filter.map (Predicate.map Select.write)) (pure ())

end Update

namespace Delete

/-- A DELETE; without a condition it deletes no row, unless deleting all is allowed. -/
def write (s : Delete) : Writing Unit := do
  let t ← requireTable "DELETE" s.table
  text "DELETE FROM "
  Writing.table t
  Predicate.writeWhere (s.filter.map (Predicate.map Select.write))
    (if s.allowAll then pure () else text " WHERE 1=0")

end Delete

namespace SetOperation

/-- A set operation; it needs two members, each of which stands between parentheses. -/
def write (o : SetOperation) : Writing Unit :=
  if o.members.length < 2 then throw (.validation (.tooFewMembers o.operator.keyword))
  else
    separated (" " ++ o.operator.keyword ++ " ")
      (o.members.map fun s => parenthesized s.write)

end SetOperation

/-- Any statement, by its kind. -/
def Statement.write : Statement → Writing Unit
  | select s => s.write
  | insert s => s.write
  | update s => s.write
  | delete s => s.write
  | setOperation s => s.write

/-- A predicate without the keyword before it. -/
def Predicate.writeTree (p : Predicate Select) : Writing Unit :=
  (p.map Select.write).write

instance : Renderable Select := ⟨Select.write⟩
instance : Renderable Insert := ⟨Insert.write⟩
instance : Renderable Update := ⟨Update.write⟩
instance : Renderable Delete := ⟨Delete.write⟩
instance : Renderable SetOperation := ⟨SetOperation.write⟩
instance : Renderable Statement := ⟨Statement.write⟩
instance : Renderable (Predicate Select) := ⟨Predicate.writeTree⟩

end SqlBuilder
