import SqlBuilder.Error
import SqlBuilder.Text.Blank

/-!
# The closed vocabularies of SQL

Conjunctions, comparison operators, full-text modes, sort directions and set operators, each with
its SQL spelling.  Only conjunctions are read from text: `Conjunction.parse` ignores ASCII case and
the amount of blank space around and between the words.
-/

namespace SqlBuilder

/-- What joins the clauses of one group. -/
inductive Conjunction where
  | and
  | or
  | andNot
  | orNot
  deriving DecidableEq, Repr, Inhabited

namespace Conjunction

/-- The SQL spelling. -/
def keyword : Conjunction → String
  | and => "AND"
  | or => "OR"
  | andNot => "AND NOT"
  | orNot => "OR NOT"

/-- What is written between two clauses. -/
def separator (c : Conjunction) : String :=
  " " ++ c.keyword ++ " "

/-- The conjunction with the given SQL spelling. -/
def ofKeyword : String → Option Conjunction
  | "AND" => some and
  | "OR" => some or
  | "AND NOT" => some andNot
  | "OR NOT" => some orNot
  | _ => none

/-- The words of a text in capitals, with one blank between two. -/
def normalized (text : String) : String :=
  String.ofList (([' '].intercalate (blankWords text.toList)).map Char.toUpper)

/-- Reads a conjunction, ignoring ASCII case and the amount of blank space. -/
def parse (text : String) : Except BuildError Conjunction :=
  match ofKeyword (normalized text) with
  | some c => .ok c
  | none => .error (.invalidConjunction text)

theorem eq_of_parse_eq_error {text : String} {e : BuildError} (h : parse text = .error e) :
    e = .invalidConjunction text := by
  rw [parse] at h
  split at h
  · cases h
  · exact (Except.error.inj h).symm

end Conjunction

/-- A comparison of two operands. -/
inductive Operator where
  | equal
  | notEqual
  | greaterThan
  | greaterThanOrEqual
  | lessThan
  | lessThanOrEqual
  | like
  | notLike
  deriving DecidableEq, Repr

/-- The SQL spelling. -/
def Operator.keyword : Operator → String
  | equal => "="
  | notEqual => "<>"
  | greaterThan => ">"
  | greaterThanOrEqual => ">="
  | lessThan => "<"
  | lessThanOrEqual => "<="
  | like => "LIKE"
  | notLike => "NOT LIKE"

/-- How a full-text search reads its terms. -/
inductive MatchMode where
  | natural
  | boolean
  | queryExpansion
  deriving DecidableEq, Repr

/-- The name of a mode. -/
def MatchMode.name : MatchMode → String
  | natural => "natural"
  | boolean => "boolean"
  | queryExpansion => "query_expansion"

/-- What follows the terms inside `AGAINST(…)`. -/
def MatchMode.modifier : MatchMode → String
  | natural => ""
  | boolean => " IN BOOLEAN MODE"
  | queryExpansion => " WITH QUERY EXPANSION"

/-- The direction of one sort key. -/
inductive Direction where
  | ascending
  | descending
  deriving DecidableEq, Repr

/-- The SQL spelling. -/
def Direction.keyword : Direction → String
  | ascending => "ASC"
  | descending => "DESC"

/-- How the rows of several SELECTs are combined. -/
inductive SetOperator where
  | union
  | unionAll
  | intersect
  | except
  deriving DecidableEq, Repr

/-- The SQL spelling. -/
def SetOperator.keyword : SetOperator → String
  | union => "UNION"
  | unionAll => "UNION ALL"
  | intersect => "INTERSECT"
  | except => "EXCEPT"

end SqlBuilder
