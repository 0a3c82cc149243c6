import SqlBuilder.Statement.Basic

/-!
# Building predicates

A `Cursor` is a predicate tree with a place in it, and the table of the statement that the tree
belongs to.  A `Call` changes the node at that place or moves the cursor; names of columns are
resolved when the call is made, against the table of the node or else that of the statement.  `edit`
opens a cursor on the tree of a statement, makes calls until one fails, and puts the tree back.
-/

namespace SqlBuilder

/-- A predicate and a path of sub-group indices in it. -/
structure Cursor where
  root : Predicate Select
  /-- The table of the statement that the predicate belongs to. -/
  binding : Option Table
  path : List Nat := []

/-- How a caller gives a conjunction. -/
inductive ConjunctionArg where
  | text (s : String)
  | value (c : Conjunction)

/-- The conjunction meant, if the text is one. -/
def ConjunctionArg.resolve : ConjunctionArg → Except BuildError Conjunction
  | text s => Conjunction.parse s
  | value c => .ok c

/-- What can be done at a cursor. -/
inductive Call where
  | compare (operator : Operator) (column : ColumnArg) (target : Operand Select)
  | literal (sql : String)
  | textMatch (mode : MatchMode) (columns : List ColumnArg) (values : List Value)
  | inList (negated : Bool) (column : ColumnArg) (values : List Value)
  | range (negated : Bool) (column : ColumnArg) (lower upper : Value)
  | nullTest (negated : Bool) (column : ColumnArg)
  | flag (column : ColumnArg) (value : Value)
  | rowTest (negated : Bool) (select : Select)
  /-- Opens a sub-group and moves into it. -/
  | openGroup (conjunction : ConjunctionArg)
  /-- Moves into a sub-group that is there. -/
  | enterGroup (index : Nat)
  /-- Moves to the node above; at the root it does nothing. -/
  | leaveGroup
  | setConjunction (conjunction : ConjunctionArg)
  | setTable (table : Table)

namespace Cursor

/-- The predicate at the place of the cursor. -/
def node (c : Cursor) : Predicate Select :=
  (c.root.at? c.path).getD .empty

/-- How far the cursor is below the root. -/
def depth (c : Cursor) : Nat :=
  c.path.length

/-- The table that bare names are bound to: that of the node, or else that of the statement. -/
def table (c : Cursor) : Option Table :=
  c.node.own.table.or c.binding

/-- What a reference stands for at the cursor. -/
def resolve (c : Cursor) (a : ColumnArg) : Term Select :=
  a.resolve c.table

/-- Changes the predicate at the cursor. -/
def modify (f : Predicate Select → Predicate Select) (c : Cursor) : Cursor :=
  { c with root := c.root.modifyAt f c.path }

/-- Changes the conditions of the node at the cursor. -/
def modifyOwn (f : Conditions Select → Conditions Select) (c : Cursor) : Cursor :=
  c.modify (Predicate.modifyOwn f)

/-- Appends a sub-group, bound to the table of the node, and moves into it. -/
def openGroup (conjunction : Conjunction) (c : Cursor) : Cursor :=
  let child : Predicate Select := .node { conjunction, table := c.table } []
  { c.modify fun p => .node p.own (p.groups ++ [child]) with
    path := c.path ++ [c.node.groups.length] }

/-- Makes a call; a call that fails changes nothing. -/
def apply (c : Cursor) : Call → Except BuildError Cursor
  | .compare operator column target =>
    let subject := c.resolve column
    .ok (c.modifyOwn fun o =>
      { o with tests := o.tests ++ [.comparison { subject, operator, target }] })
  | .literal sql => .ok (c.modifyOwn fun o => { o with tests := o.tests ++ [.literal sql] })
  | .textMatch mode columns values =>
    let columns := columns.map c.resolve
    .ok (c.modifyOwn fun o => { o with matching := o.matching ++ [{ columns, values, mode }] })
  | .inList negated column values =>
    let put := InList.put Select.same (c.resolve column) column.key values
    .ok (c.modifyOwn fun o =>
      if negated then { o with notAmong := put o.notAmong } else { o with among := put o.among })
  | .range negated column lower upper =>
    let entry := { subject := c.resolve column, lower, upper }
    .ok (c.modifyOwn fun o =>
      if negated then { o with notBetween := o.notBetween ++ [entry] }
      else { o with between := o.between ++ [entry] })
  | .nullTest negated column =>
    let subject := c.resolve column
    .ok (c.modifyOwn fun o =>
      if negated then { o with isNotNull := o.isNotNull ++ [subject] }
      else { o with isNull := o.isNull ++ [subject] })
  | .flag column value =>
    let subject := c.resolve column
    .ok (c.modifyOwn fun o => { o with flags := o.flags ++ [{ subject, value }] })
  | .rowTest negated select =>
    .ok (c.modifyOwn fun o =>
      if negated then { o with noRow := o.noRow ++ [select] }
      else { o with someRow := o.someRow ++ [select] })
  | .openGroup conjunction => conjunction.resolve.map fun k => c.openGroup k
  | .enterGroup index =>
    let count := c.node.groups.length
    if index < count then .ok { c with path := c.path ++ [index] }
    else .error (.validation (.noSuchGroup index count))
  | .leaveGroup => .ok { c with path := c.path.dropLast }
  | .setConjunction conjunction => do
    let k ← conjunction.resolve
    return c.modifyOwn fun o => { o with conjunction := k }
  | .setTable table => .ok (c.modifyOwn fun o => { o with table := some table })

/-- Makes calls in order up to the first that fails: where the cursor is then, and the error. -/
def run (c : Cursor) : List Call → Cursor × Except BuildError Unit
  | [] => (c, .ok ())
  | call :: rest =>
    match c.apply call with
    | .ok c' => c'.run rest
    | .error e => (c, .error e)

end Cursor

namespace Filtered

variable {σ : Type} [Filtered σ]

/-- A cursor at the root of the predicate of a statement, which is empty if there was none. -/
def cursor (s : σ) : Cursor :=
  { root := (filter s).getD .empty, binding := table s }

/-- Makes calls on the predicate of a statement up to the first that fails. -/
def edit (s : σ) (calls : List Call) : σ × Except BuildError Unit :=
  let (c, result) := (cursor s).run calls
  (setFilter c.root s, result)

end Filtered

namespace Predicate

/-- Changes the conjunction at the root; a text that is none changes nothing. -/
def setConjunction (a : ConjunctionArg) (p : Predicate Select) :
    Except BuildError (Predicate Select) :=
  a.resolve.map fun k => p.modifyOwn fun o => { o with conjunction := k }

/-- Binds the root to a table. -/
def setTable (t : Table) (p : Predicate Select) : Predicate Select :=
  p.modifyOwn fun o => { o with table := some t }

end Predicate

end SqlBuilder
