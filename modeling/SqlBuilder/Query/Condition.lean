import SqlBuilder.Keyword
import SqlBuilder.Name
import SqlBuilder.Value

/-!
# Conditions

The entries of a predicate.  A nested SELECT may stand for a column, for the right-hand side of a
comparison, or be tested for rows; all types here leave open what it is by a parameter `q`, and
`map` replaces the nested SELECTs of an entry.  So a traversal of a statement says only what it
does with an entry whose nested SELECTs have been dealt with.
-/

namespace SqlBuilder

/-- What a condition speaks about: a column, or the one value of a nested SELECT. -/
inductive Term (q : Type) where
  | column (c : Column)
  | subquery (s : q)

/-- The right-hand side of a comparison. -/
inductive Operand (q : Type) where
  | value (v : Value)
  | column (c : Column)
  | subquery (s : q)

/-- A comparison of a term with an operand. -/
structure Comparison (q : Type) where
  subject : Term q
  operator : Operator
  target : Operand q

/-- A comparison, or a piece of SQL text that is taken as it is. -/
inductive Test (q : Type) where
  | comparison (c : Comparison q)
  | literal (sql : String)

/-- The bounds of a range condition, which are kept in the order given. -/
structure Range (q : Type) where
  subject : Term q
  lower : Value
  upper : Value

/-- A flag that is compared with a value, null counting as zero. -/
structure Flag (q : Type) where
  subject : Term q
  value : Value

/-- A full-text search for some terms in some columns. -/
structure TextMatch (q : Type) where
  columns : List (Term q)
  values : List Value
  mode : MatchMode

/-- A list of values that a term must, or must not, be among.  The key is the name by which the
caller called the column; a nested SELECT has none. -/
structure InList (q : Type) where
  subject : Term q
  key : Option String
  values : List Value

namespace Term

variable {q r : Type}

/-- The term with another SELECT in place of its own. -/
def map (f : q → r) : Term q → Term r
  | column c => .column c
  | subquery s => .subquery (f s)

/-- The column, if the term is one. -/
def column? : Term q → Option Column
  | column c => some c
  | subquery _ => none

/-- The name of the column, if the term is one. -/
def columnName (t : Term q) : Option String :=
  t.column?.map Column.name

/-- The name by which a caller refers to the term; a nested SELECT has none. -/
def key (t : Term q) : Option String :=
  t.column?.map Column.key

/-- Equality of terms, given that of nested SELECTs. -/
def same (eq : q → r → Bool) : Term q → Term r → Bool
  | column c, column d => c == d
  | subquery s, subquery t => eq s t
  | _, _ => false

end Term

/-- Equality of lists, given that of their items. -/
def sameList {α β : Type} (eq : α → β → Bool) : List α → List β → Bool
  | [], [] => true
  | a :: as, b :: bs => eq a b && sameList eq as bs
  | _, _ => false

section Map

variable {q r : Type}

/-- The operand with another SELECT in place of its own. -/
def Operand.map (f : q → r) : Operand q → Operand r
  | value v => .value v
  | column c => .column c
  | subquery s => .subquery (f s)

/-- The comparison with other SELECTs on its sides. -/
def Comparison.map (f : q → r) (c : Comparison q) : Comparison r :=
  ⟨c.subject.map f, c.operator, c.target.map f⟩

/-- The test with other SELECTs in it. -/
def Test.map (f : q → r) : Test q → Test r
  | comparison c => .comparison (c.map f)
  | literal sql => .literal sql

/-- The range with another SELECT as its subject. -/
def Range.map (f : q → r) (e : Range q) : Range r :=
  ⟨e.subject.map f, e.lower, e.upper⟩

/-- The flag with another SELECT as its subject. -/
def Flag.map (f : q → r) (e : Flag q) : Flag r :=
  ⟨e.subject.map f, e.value⟩

/-- The search with other SELECTs among its columns. -/
def TextMatch.map (f : q → r) (e : TextMatch q) : TextMatch r :=
  ⟨e.columns.map (Term.map f), e.values, e.mode⟩

/-- The list with another SELECT as its subject. -/
def InList.map (f : q → r) (e : InList q) : InList r :=
  ⟨e.subject.map f, e.key, e.values⟩

end Map

section Same

variable {q r : Type} (eq : q → r → Bool)

/-- Equality of operands; values are compared as bind values. -/
def Operand.same : Operand q → Operand r → Bool
  | value v, value w => v.same w
  | column c, column d => c == d
  | subquery s, subquery t => eq s t
  | _, _ => false

/-- Equality of comparisons, side by side. -/
def Comparison.same (a : Comparison q) (b : Comparison r) : Bool :=
  a.subject.same eq b.subject && a.operator == b.operator && a.target.same eq b.target

/-- Equality of comparisons, or of literal texts. -/
def Test.same : Test q → Test r → Bool
  | comparison a, comparison b => a.same eq b
  | literal s, literal t => s == t
  | _, _ => false

/-- Equality of ranges, subjects and bounds. -/
def Range.same (a : Range q) (b : Range r) : Bool :=
  a.subject.same eq b.subject && a.lower.same b.lower && a.upper.same b.upper

/-- Equality of flags, subjects and values. -/
def Flag.same (a : Flag q) (b : Flag r) : Bool :=
  a.subject.same eq b.subject && a.value.same b.value

/-- Equality of searches: columns, terms and modes. -/
def TextMatch.same (a : TextMatch q) (b : TextMatch r) : Bool :=
  sameList (Term.same eq) a.columns b.columns && sameList Value.same a.values b.values &&
    a.mode == b.mode

/-- Equality of lists, keys included. -/
def InList.same (a : InList q) (b : InList r) : Bool :=
  a.subject.same eq b.subject && a.key == b.key && sameList Value.same a.values b.values

end Same

end SqlBuilder
