import SqlBuilder.Query.Predicate

/-!
# SELECT statements

`SelectOver q` is a SELECT in which nested SELECTs are of type `q`, and `Select` closes the knot.
`Select.fold` is the one recursion over nested SELECTs: given what to do with a SELECT whose nested
SELECTs have been dealt with, it deals with a whole one.  `fold_of` is its equation.
-/

namespace SqlBuilder

/-- One sort key of a SELECT. -/
structure SortKey (q : Type) where
  term : Term q
  direction : Direction

/-- A SELECT whose nested SELECTs are of type `q`. -/
structure SelectOver (q : Type) where
  table : Option Table := none
  columns : List (Term q) := []
  filter : Option (Predicate q) := none
  orderBy : List (SortKey q) := []
  limit : Option UInt64 := none
  offset : Option UInt64 := none

/-- A SELECT with SELECTs nested to any depth. -/
inductive Select where
  | of (form : SelectOver Select)

section Map

variable {q r : Type}

/-- The sort key with another SELECT as its term. -/
def SortKey.map (f : q → r) (k : SortKey q) : SortKey r :=
  ⟨k.term.map f, k.direction⟩

/-- Equality of sort keys, terms and directions. -/
def SortKey.same (eq : q → r → Bool) (a : SortKey q) (b : SortKey r) : Bool :=
  a.term.same eq b.term && a.direction == b.direction

/-- The SELECT with other SELECTs nested in it. -/
def SelectOver.map (f : q → r) (s : SelectOver q) : SelectOver r where
  table := s.table
  columns := s.columns.map (Term.map f)
  filter := s.filter.map (Predicate.map f)
  orderBy := s.orderBy.map (SortKey.map f)
  limit := s.limit
  offset := s.offset

/-- Equality of optional values, given that of values. -/
def sameOption {α β : Type} (eq : α → β → Bool) : Option α → Option β → Bool
  | none, none => true
  | some a, some b => eq a b
  | _, _ => false

/-- Equality, given that of nested SELECTs. -/
def SelectOver.same (eq : q → r → Bool) (a : SelectOver q) (b : SelectOver r) : Bool :=
  a.table == b.table && sameList (Term.same eq) a.columns b.columns &&
    sameOption (Predicate.same eq) a.filter b.filter &&
    sameList (SortKey.same eq) a.orderBy b.orderBy && a.limit == b.limit && a.offset == b.offset

end Map

/-! ## The fold

Structural recursion has to follow every list in which a nested SELECT may stand; the functions
besides `fold` do that, and the lemmas after them say that each is the `map` of its type. -/

namespace Select

variable {α : Type}

mutual

/-- Deals with a SELECT from the innermost nested SELECTs outwards. -/
def fold (step : SelectOver α → α) : Select → α
  | of form => step (foldForm step form)

/-- The fold in all parts of a SELECT that may hold others. -/
def foldForm (step : SelectOver α → α) : SelectOver Select → SelectOver α
  | ⟨table, columns, filter, orderBy, limit, offset⟩ =>
    ⟨table, foldTerms step columns, foldFilter step filter, foldSortKeys step orderBy, limit,
      offset⟩

/-- The fold in a predicate, if there is one. -/
def foldFilter (step : SelectOver α → α) : Option (Predicate Select) → Option (Predicate α)
  | none => none
  | some p => some (foldPredicate step p)

/-- The fold in a node and in its sub-groups. -/
def foldPredicate (step : SelectOver α → α) : Predicate Select → Predicate α
  | .node own groups => .node (foldConditions step own) (foldPredicates step groups)

/-- The fold in some sub-groups. -/
def foldPredicates (step : SelectOver α → α) : List (Predicate Select) → List (Predicate α)
  | [] => []
  | p :: rest => foldPredicate step p :: foldPredicates step rest

/-- The fold in the entries of a node, kind by kind. -/
def foldConditions (step : SelectOver α → α) : Conditions Select → Conditions α
  | ⟨conjunction, table, matching, among, notAmong, between, notBetween, tests, isNull, isNotNull,
      flags, someRow, noRow⟩ =>
    ⟨conjunction, table, foldTextMatches step matching, foldInLists step among,
      foldInLists step notAmong, foldRanges step between, foldRanges step notBetween,
      foldTests step tests, foldTerms step isNull, foldTerms step isNotNull, foldFlags step flags,
      foldSelects step someRow, foldSelects step noRow⟩

/-- The fold of some SELECTs. -/
def foldSelects (step : SelectOver α → α) : List Select → List α
  | [] => []
  | s :: rest => fold step s :: foldSelects step rest

/-- The fold of the SELECT that a term may be. -/
def foldTerm (step : SelectOver α → α) : Term Select → Term α
  | .column c => .column c
  | .subquery s => .subquery (fold step s)

/-- The fold in some terms. -/
def foldTerms (step : SelectOver α → α) : List (Term Select) → List (Term α)
  | [] => []
  | t :: rest => foldTerm step t :: foldTerms step rest

/-- The fold of the SELECT that an operand may be. -/
def foldOperand (step : SelectOver α → α) : Operand Select → Operand α
  | .value v => .value v
  | .column c => .column c
  | .subquery s => .subquery (fold step s)

/-- The fold in the term of a sort key. -/
def foldSortKey (step : SelectOver α → α) : SortKey Select → SortKey α
  | ⟨term, direction⟩ => ⟨foldTerm step term, direction⟩

/-- The fold in some sort keys. -/
def foldSortKeys (step : SelectOver α → α) : List (SortKey Select) → List (SortKey α)
  | [] => []
  | k :: rest => foldSortKey step k :: foldSortKeys step rest

/-- The fold on both sides of a comparison. -/
def foldComparison (step : SelectOver α → α) : Comparison Select → Comparison α
  | ⟨subject, operator, target⟩ => ⟨foldTerm step subject, operator, foldOperand step target⟩

/-- The fold in a comparison; literal text stays as it is. -/
def foldTest (step : SelectOver α → α) : Test Select → Test α
  | .comparison c => .comparison (foldComparison step c)
  | .literal sql => .literal sql

/-- The fold in some comparisons. -/
def foldTests (step : SelectOver α → α) : List (Test Select) → List (Test α)
  | [] => []
  | t :: rest => foldTest step t :: foldTests step rest

/-- The fold in the subject of a range. -/
def foldRange (step : SelectOver α → α) : Range Select → Range α
  | ⟨subject, lower, upper⟩ => ⟨foldTerm step subject, lower, upper⟩

/-- The fold in some ranges. -/
def foldRanges (step : SelectOver α → α) : List (Range Select) → List (Range α)
  | [] => []
  | e :: rest => foldRange step e :: foldRanges step rest

/-- The fold in the subject of a flag. -/
def foldFlag (step : SelectOver α → α) : Flag Select → Flag α
  | ⟨subject, value⟩ => ⟨foldTerm step subject, value⟩

/-- The fold in some flags. -/
def foldFlags (step : SelectOver α → α) : List (Flag Select) → List (Flag α)
  | [] => []
  | e :: rest => foldFlag step e :: foldFlags step rest

/-- The fold in the columns of a search. -/
def foldTextMatch (step : SelectOver α → α) : TextMatch Select → TextMatch α
  | ⟨columns, values, mode⟩ => ⟨foldTerms step columns, values, mode⟩

/-- The fold in some searches. -/
def foldTextMatches (step : SelectOver α → α) : List (TextMatch Select) → List (TextMatch α)
  | [] => []
  | e :: rest => foldTextMatch step e :: foldTextMatches step rest

/-- The fold in the subject of a list. -/
def foldInList (step : SelectOver α → α) : InList Select → InList α
  | ⟨subject, key, values⟩ => ⟨foldTerm step subject, key, values⟩

/-- The fold in some lists. -/
def foldInLists (step : SelectOver α → α) : List (InList Select) → List (InList α)
  | [] => []
  | e :: rest => foldInList step e :: foldInLists step rest

end

section Equations

variable (step : SelectOver α → α)

theorem foldTerm_eq (t : Term Select) : foldTerm step t = t.map (fold step) := by
  cases t <;> simp [foldTerm, Term.map]

theorem foldOperand_eq (o : Operand Select) : foldOperand step o = o.map (fold step) := by
  cases o <;> simp [foldOperand, Operand.map]

theorem foldSelects_eq (ss : List Select) : foldSelects step ss = ss.map (fold step) := by
  induction ss with
  | nil => rfl
  | cons s ss ih => simp [foldSelects, ih]

theorem foldTerms_eq (ts : List (Term Select)) :
    foldTerms step ts = ts.map (Term.map (fold step)) := by
  induction ts with
  | nil => rfl
  | cons t ts ih => simp [foldTerms, foldTerm_eq, ih]

theorem foldSortKey_eq (k : SortKey Select) : foldSortKey step k = k.map (fold step) := by
  cases k
  simp [foldSortKey, SortKey.map, foldTerm_eq]

theorem foldSortKeys_eq (ks : List (SortKey Select)) :
    foldSortKeys step ks = ks.map (SortKey.map (fold step)) := by
  induction ks with
  | nil => rfl
  | cons k ks ih => simp [foldSortKeys, foldSortKey_eq, ih]

theorem foldComparison_eq (c : Comparison Select) :
    foldComparison step c = c.map (fold step) := by
  cases c
  simp [foldComparison, Comparison.map, foldTerm_eq, foldOperand_eq]

theorem foldTest_eq (t : Test Select) : foldTest step t = t.map (fold step) := by
  cases t <;> simp [foldTest, Test.map, foldComparison_eq]

theorem foldTests_eq (ts : List (Test Select)) :
    foldTests step ts = ts.map (Test.map (fold step)) := by
  induction ts with
  | nil => rfl
  | cons t ts ih => simp [foldTests, foldTest_eq, ih]

theorem foldRange_eq (e : Range Select) : foldRange step e = e.map (fold step) := by
  cases e
  simp [foldRange, Range.map, foldTerm_eq]

theorem foldRanges_eq (es : List (Range Select)) :
    foldRanges step es = es.map (Range.map (fold step)) := by
  induction es with
  | nil => rfl
  | cons e es ih => simp [foldRanges, foldRange_eq, ih]

theorem foldFlag_eq (e : Flag Select) : foldFlag step e = e.map (fold step) := by
  cases e
  simp [foldFlag, Flag.map, foldTerm_eq]

theorem foldFlags_eq (es : List (Flag Select)) :
    foldFlags step es = es.map (Flag.map (fold step)) := by
  induction es with
  | nil => rfl
  | cons e es ih => simp [foldFlags, foldFlag_eq, ih]

theorem foldTextMatch_eq (e : TextMatch Select) : foldTextMatch step e = e.map (fold step) := by
  cases e
  simp [foldTextMatch, TextMatch.map, foldTerms_eq]

theorem foldTextMatches_eq (es : List (TextMatch Select)) :
    foldTextMatches step es = es.map (TextMatch.map (fold step)) := by
  induction es with
  | nil => rfl
  | cons e es ih => simp [foldTextMatches, foldTextMatch_eq, ih]

theorem foldInList_eq (e : InList Select) : foldInList step e = e.map (fold step) := by
  cases e
  simp [foldInList, InList.map, foldTerm_eq]

theorem foldInLists_eq (es : List (InList Select)) :
    foldInLists step es = es.map (InList.map (fold step)) := by
  induction es with
  | nil => rfl
  | cons e es ih => simp [foldInLists, foldInList_eq, ih]

theorem foldConditions_eq (c : Conditions Select) : foldConditions step c = c.map (fold step) := by
  cases c
  simp [foldConditions, Conditions.map, foldSelects_eq, foldTerms_eq, foldTests_eq, foldRanges_eq,
    foldFlags_eq, foldTextMatches_eq, foldInLists_eq]

mutual

theorem foldPredicate_eq : ∀ p : Predicate Select, foldPredicate step p = p.map (fold step)
  | .node own groups => by
    simp [foldPredicate, Predicate.map, foldConditions_eq, foldPredicates_eq groups]

theorem foldPredicates_eq :
    ∀ ps : List (Predicate Select), foldPredicates step ps = Predicate.mapGroups (fold step) ps
  | [] => rfl
  | p :: ps => by
    simp [foldPredicates, Predicate.mapGroups, foldPredicate_eq p, foldPredicates_eq ps]

end

theorem foldForm_eq (s : SelectOver Select) : foldForm step s = s.map (fold step) := by
  rcases s with ⟨table, columns, filter, orderBy, limit, offset⟩
  cases filter <;>
    simp [foldForm, foldFilter, SelectOver.map, foldTerms_eq, foldSortKeys_eq, foldPredicate_eq]

/-- The fold deals with the nested SELECTs first, and then with what has become of the whole. -/
theorem fold_of (s : SelectOver Select) : fold step (of s) = step (s.map (fold step)) := by
  rw [fold, foldForm_eq]

end Equations

/-- The outermost layer of a SELECT. -/
def form : Select → SelectOver Select
  | of s => s

/-- Equality of SELECTs, with bind values compared as values. -/
def same : Select → Select → Bool :=
  fold fun s t => s.same (fun eq u => eq u) t.form

/-! ## Building up -/

/-- A SELECT over a table. -/
def ofTable (t : Table) : Select :=
  of { table := some t }

/-- Changes the outermost layer. -/
def modify (f : SelectOver Select → SelectOver Select) (s : Select) : Select :=
  of (f s.form)

/-- Changes the table; terms that are there keep theirs. -/
def setTable (t : Table) : Select → Select :=
  modify fun s => { s with table := some t }

/-- Sets the greatest number of rows. -/
def limit (n : UInt64) : Select → Select :=
  modify fun s => { s with limit := some n }

/-- Sets the number of rows to pass over. -/
def offset (n : UInt64) : Select → Select :=
  modify fun s => { s with offset := some n }

end Select

end SqlBuilder
