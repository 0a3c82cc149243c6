import SqlBuilder.Query.Condition

/-!
# Predicate trees

A node of a predicate holds `Conditions`: its conjunction, the table that bare names are bound to
in it, if it has one of its own, and a list of entries for each kind of condition.  Below a node
stand its sub-groups, which are predicates again.
-/

namespace SqlBuilder

/-- The conditions of one node, by kind. -/
structure Conditions (q : Type) where
  conjunction : Conjunction := .and
  table : Option Table := none
  matching : List (TextMatch q) := []
  among : List (InList q) := []
  notAmong : List (InList q) := []
  between : List (Range q) := []
  notBetween : List (Range q) := []
  tests : List (Test q) := []
  isNull : List (Term q) := []
  isNotNull : List (Term q) := []
  flags : List (Flag q) := []
  /-- SELECTs that must give a row. -/
  someRow : List q := []
  /-- SELECTs that must not give a row. -/
  noRow : List q := []

/-- A node and its sub-groups. -/
inductive Predicate (q : Type) where
  | node (own : Conditions q) (groups : List (Predicate q))

namespace Conditions

variable {q r : Type}

/-- Whether no condition of any kind is there. -/
def isEmpty (c : Conditions q) : Bool :=
  c.matching.isEmpty && c.among.isEmpty && c.notAmong.isEmpty && c.between.isEmpty &&
    c.notBetween.isEmpty && c.tests.isEmpty && c.isNull.isEmpty && c.isNotNull.isEmpty &&
    c.flags.isEmpty && c.someRow.isEmpty && c.noRow.isEmpty

/-- The conditions with other SELECTs in them. -/
def map (f : q → r) (c : Conditions q) : Conditions r where
  conjunction := c.conjunction
  table := c.table
  matching := c.matching.map (TextMatch.map f)
  among := c.among.map (InList.map f)
  notAmong := c.notAmong.map (InList.map f)
  between := c.between.map (Range.map f)
  notBetween := c.notBetween.map (Range.map f)
  tests := c.tests.map (Test.map f)
  isNull := c.isNull.map (Term.map f)
  isNotNull := c.isNotNull.map (Term.map f)
  flags := c.flags.map (Flag.map f)
  someRow := c.someRow.map f
  noRow := c.noRow.map f

/-- Equality, given that of nested SELECTs. -/
def same (eq : q → r → Bool) (a : Conditions q) (b : Conditions r) : Bool :=
  a.conjunction == b.conjunction && a.table == b.table &&
    sameList (TextMatch.same eq) a.matching b.matching &&
    sameList (InList.same eq) a.among b.among &&
    sameList (InList.same eq) a.notAmong b.notAmong &&
    sameList (Range.same eq) a.between b.between &&
    sameList (Range.same eq) a.notBetween b.notBetween &&
    sameList (Test.same eq) a.tests b.tests &&
    sameList (Term.same eq) a.isNull b.isNull &&
    sameList (Term.same eq) a.isNotNull b.isNotNull &&
    sameList (Flag.same eq) a.flags b.flags &&
    sameList eq a.someRow b.someRow && sameList eq a.noRow b.noRow

theorem isEmpty_map (f : q → r) (c : Conditions q) : (c.map f).isEmpty = c.isEmpty := by
  simp [isEmpty, map]

end Conditions

/-! ## Lists with one entry for each key -/

namespace InList

variable {q : Type}

/-- Whether an entry is about the same thing as a subject: the keys decide, and between two
nested SELECTs, which have none, equality does. -/
def isAbout (eq : q → q → Bool) (subject : Term q) (key : Option String) (e : InList q) : Bool :=
  match e.key, key with
  | some a, some b => a == b
  | none, none => e.subject.same eq subject
  | _, _ => false

/-- The list with an entry for a subject: the last write counts, and a replaced entry keeps its
place and takes the new subject. -/
def put (eq : q → q → Bool) (subject : Term q) (key : Option String) (values : List Value) :
    List (InList q) → List (InList q)
  | [] => [{ subject, key, values }]
  | e :: rest =>
    if e.isAbout eq subject key then { e with subject, values } :: rest
    else e :: put eq subject key values rest

/-- The values for a name: those of the entry with that key, or else those of the first entry about
a column of that name. -/
def valuesFor (name : String) (entries : List (InList q)) : Option (List Value) :=
  let byKey := entries.find? fun e => e.key == some name
  (byKey.or (entries.find? fun e => e.subject.columnName == some name)).map InList.values

end InList

namespace Predicate

variable {q r : Type}

/-- The predicate without any condition. -/
def empty : Predicate q :=
  node {} []

/-- The conditions of the root. -/
def own : Predicate q → Conditions q
  | node own _ => own

/-- The sub-groups of the root. -/
def groups : Predicate q → List (Predicate q)
  | node _ groups => groups

/-- The predicate with changed conditions at its root. -/
def modifyOwn (f : Conditions q → Conditions q) : Predicate q → Predicate q
  | node own groups => node (f own) groups

/-- Whether the root has neither a condition nor a sub-group. -/
def isEmpty : Predicate q → Bool
  | node own groups => own.isEmpty && groups.isEmpty

mutual

/-- Whether some node has a condition. -/
def hasClauses : Predicate q → Bool
  | node own groups => !own.isEmpty || anyHasClauses groups

/-- Whether some node of some sub-groups has a condition. -/
def anyHasClauses : List (Predicate q) → Bool
  | [] => false
  | p :: rest => hasClauses p || anyHasClauses rest

end

mutual

/-- The predicate with other SELECTs in its nodes. -/
def map (f : q → r) : Predicate q → Predicate r
  | node own groups => node (own.map f) (mapGroups f groups)

/-- Some sub-groups with other SELECTs in their nodes. -/
def mapGroups (f : q → r) : List (Predicate q) → List (Predicate r)
  | [] => []
  | p :: rest => map f p :: mapGroups f rest

end

mutual

/-- Equality, given that of nested SELECTs. -/
def same (eq : q → r → Bool) : Predicate q → Predicate r → Bool
  | node a as, node b bs => a.same eq b && sameGroups eq as bs

/-- Equality of sub-groups, one by one. -/
def sameGroups (eq : q → r → Bool) : List (Predicate q) → List (Predicate r) → Bool
  | [], [] => true
  | a :: as, b :: bs => same eq a b && sameGroups eq as bs
  | _, _ => false

end

theorem mapGroups_eq (f : q → r) (ps : List (Predicate q)) : mapGroups f ps = ps.map (map f) := by
  induction ps with
  | nil => rfl
  | cons p ps ih => simp [mapGroups, ih]

theorem anyHasClauses_eq (ps : List (Predicate q)) : anyHasClauses ps = ps.any hasClauses := by
  induction ps with
  | nil => rfl
  | cons p ps ih => simp [anyHasClauses, ih]

/-! ## Nodes by position -/

/-- The predicate at the end of a path of sub-group indices. -/
def at? : Predicate q → List Nat → Option (Predicate q)
  | p, [] => some p
  | p, i :: path => (p.groups[i]?).bind fun g => g.at? path

/-- The predicate with the node at the end of a path changed; a path that leads nowhere changes
nothing. -/
def modifyAt (f : Predicate q → Predicate q) : List Nat → Predicate q → Predicate q
  | [], p => f p
  | i :: path, node own groups => node own (groups.modify i (modifyAt f path))

end Predicate

end SqlBuilder
