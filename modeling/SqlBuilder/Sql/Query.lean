import SqlBuilder.Query.Select
import SqlBuilder.Sql.Writer

/-!
# Writing predicates and SELECTs

A nested SELECT that has been dealt with is here the action that writes it.  The clauses of a node
stand in a fixed order by kind, in the order of insertion within a kind, and the sub-groups that
hold a clause at some depth follow between parentheses; the conjunction of the node joins them all.
-/

namespace SqlBuilder

open Writing

namespace Term

/-- A column, or a nested SELECT between parentheses. -/
def write : Term (Writing Unit) → Writing Unit
  | column c => Writing.column c
  | subquery w => parenthesized w

end Term

namespace Operand

/-- The placeholder of a value, a column, or a nested SELECT between parentheses. -/
def write : Operand (Writing Unit) → Writing Unit
  | value v => param v
  | column c => Writing.column c
  | subquery w => parenthesized w

end Operand

/-! ## Clauses -/

/-- A full-text search; it needs as many values as columns, and at least one of each. -/
def TextMatch.write (e : TextMatch (Writing Unit)) : Writing Unit :=
  if e.columns.isEmpty || e.columns.length != e.values.length then
    throw (.matchArity e.columns.length e.values.length)
  else do
    text "(MATCH("
    separated ", " (e.columns.map Term.write)
    text ") AGAINST("
    params e.values
    text e.mode.modifier
    text "))"

/-- A membership test; the test of an empty list is a constant. -/
def InList.write (negated : Bool) (e : InList (Writing Unit)) : Writing Unit :=
  if e.values.isEmpty then text (if negated then "1=1" else "1=0")
  else do
    text "("
    e.subject.write
    text (if negated then " NOT IN (" else " IN (")
    params e.values
    text "))"

/-- A range test between parentheses, the lower bound first. -/
def Range.write (negated : Bool) (e : Range (Writing Unit)) : Writing Unit :=
  parenthesized do
    e.subject.write
    text (if negated then " NOT BETWEEN " else " BETWEEN ")
    param e.lower
    text " AND "
    param e.upper

/-- A comparison, or literal text, between parentheses. -/
def Test.write : Test (Writing Unit) → Writing Unit
  | comparison c => parenthesized do
    c.subject.write
    text " "
    text c.operator.keyword
    text " "
    c.target.write
  | literal sql => parenthesized (text sql)

/-- A test of a term for null. -/
def Term.writeNullTest (negated : Bool) (t : Term (Writing Unit)) : Writing Unit := do
  text "("
  t.write
  text (if negated then " IS NOT NULL)" else " IS NULL)")

/-- A comparison of a flag, null counting as zero. -/
def Flag.write (e : Flag (Writing Unit)) : Writing Unit := do
  text "(COALESCE("
  e.subject.write
  text ", 0) = "
  param e.value
  text ")"

/-- A test of a nested SELECT for rows. -/
def writeRowTest (negated : Bool) (w : Writing Unit) : Writing Unit := do
  text (if negated then "NOT EXISTS " else "EXISTS ")
  parenthesized w

/-- The clauses of a node in the order of writing. -/
def Conditions.clauses (c : Conditions (Writing Unit)) : List (Writing Unit) :=
  c.matching.map TextMatch.write ++
  c.among.map (InList.write false) ++
  c.notAmong.map (InList.write true) ++
  c.between.map (Range.write false) ++
  c.notBetween.map (Range.write true) ++
  c.tests.map Test.write ++
  c.isNull.map (Term.writeNullTest false) ++
  c.isNotNull.map (Term.writeNullTest true) ++
  c.flags.map Flag.write ++
  c.someRow.map (writeRowTest false) ++
  c.noRow.map (writeRowTest true)

/-! ## Predicates -/

namespace Predicate

mutual

/-- A predicate without the keyword before it; one without clauses writes nothing. -/
def write : Predicate (Writing Unit) → Writing Unit
  | node own groups => separated own.conjunction.separator (own.clauses ++ groupClauses groups)

/-- The sub-groups that hold a clause, each between parentheses. -/
def groupClauses : List (Predicate (Writing Unit)) → List (Writing Unit)
  | [] => []
  | p :: rest =>
    if p.hasClauses then parenthesized (write p) :: groupClauses rest else groupClauses rest

end

theorem groupClauses_eq (ps : List (Predicate (Writing Unit))) :
    groupClauses ps = (ps.filter hasClauses).map fun p => parenthesized p.write := by
  induction ps with
  | nil => rfl
  | cons p ps ih => by_cases h : p.hasClauses <;> simp [groupClauses, h, ih]

/-- The WHERE clause of a statement; `otherwise` is done where there is no clause to write. -/
def writeWhere (p : Option (Predicate (Writing Unit))) (otherwise : Writing Unit) :
    Writing Unit :=
  match p.filter hasClauses with
  | some p => do
    text " WHERE "
    p.write
  | none => otherwise

end Predicate

/-! ## SELECTs -/

/-- The table of a statement of a kind, which must have one. -/
def requireTable (kind : String) : Option Table → Writing Table
  | some t => pure t
  | none => throw (.validation (.missingTable kind))

/-- A term in the list of a SELECT, with the alias of a column. -/
def Term.writeSelected (t : Term (Writing Unit)) : Writing Unit := do
  t.write
  match t.column?.bind Column.aliasName with
  | some a => do
    text " AS "
    ident a
  | none => pure ()

/-- A term and a direction. -/
def SortKey.write (k : SortKey (Writing Unit)) : Writing Unit := do
  k.term.write
  text " "
  text k.direction.keyword

/-- A keyword and a number, if there is one. -/
def writeCount (keyword : String) : Option UInt64 → Writing Unit
  | some n => text (" " ++ keyword ++ " " ++ toString n)
  | none => pure ()

/-- A SELECT whose nested SELECTs know how to write themselves. -/
def SelectOver.write (s : SelectOver (Writing Unit)) : Writing Unit := do
  let t ← requireTable "SELECT" s.table
  text "SELECT "
  if s.columns.isEmpty then text "*" else separated ", " (s.columns.map Term.writeSelected)
  text " FROM "
  Writing.table t
  Predicate.writeWhere s.filter (pure ())
  unless s.orderBy.isEmpty do
    text " ORDER BY "
    separated ", " (s.orderBy.map SortKey.write)
  writeCount "LIMIT" s.limit
  writeCount "OFFSET" s.offset

/-- A SELECT, with no parentheses around it. -/
def Select.write : Select → Writing Unit :=
  fold SelectOver.write

theorem Select.write_of (s : SelectOver Select) : (of s).write = (s.map write).write :=
  fold_of _ s

end SqlBuilder
