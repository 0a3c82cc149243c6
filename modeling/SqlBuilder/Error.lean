/-!
# Reasons for failure

A statement that cannot be built, a builder call that cannot be carried out and a bind value that
does not fit its column are all reported as a `BuildError`.  `BuildError.message` is the wording of
each.
-/

namespace SqlBuilder

/-- What makes a statement impossible to build, or a builder call impossible to carry out. -/
inductive Problem where
  /-- A statement of the given kind has no table. -/
  | missingTable (kind : String)
  /-- An INSERT assigns no column. -/
  | nothingToInsert
  /-- An UPDATE assigns no column. -/
  | nothingToSet
  /-- A set operation, named by its keyword, has fewer than two members. -/
  | tooFewMembers (keyword : String)
  /-- A sub-group was asked for by an index that the group does not have. -/
  | noSuchGroup (index count : Nat)
  /-- A problem that a caller states in its own words. -/
  | stated (text : String)
  deriving DecidableEq, Repr

/-- The wording of a problem. -/
def Problem.message : Problem → String
  | missingTable kind => kind ++ " requires a table"
  | nothingToInsert => "INSERT requires at least one value"
  | nothingToSet => "UPDATE requires at least one SET"
  | tooFewMembers keyword => keyword ++ " requires at least two SELECT statements"
  | noSuchGroup index count =>
    "sub-group index " ++ toString index ++ " out of range (" ++ toString count ++ " groups)"
  | stated text => text

/-- Why a bind value cannot be sent. -/
inductive ParamProblem where
  /-- An integer does not fit the column type of the given name. -/
  | outOfRange (value : Int) (typeName : String)
  /-- A problem that a caller states in its own words. -/
  | stated (text : String)
  deriving DecidableEq, Repr

/-- The wording of a problem with a bind value. -/
def ParamProblem.message : ParamProblem → String
  | outOfRange value typeName => toString value ++ " is out of range for " ++ typeName
  | stated text => text

/-- Why a statement, a builder call or a parameter is refused. -/
inductive BuildError where
  /-- The text is no conjunction; it is kept as it was given. -/
  | invalidConjunction (found : String)
  /-- A full-text match needs as many values as columns, and at least one of each. -/
  | matchArity (columns values : Nat)
  | validation (problem : Problem)
  | param (problem : ParamProblem)
  deriving DecidableEq, Repr

namespace BuildError

/-- Whether the error is about the text of a conjunction. -/
def isInvalidConjunction : BuildError → Bool
  | invalidConjunction _ => true
  | _ => false

/-- The text shown to a user. -/
def message : BuildError → String
  | invalidConjunction found =>
    "Invalid conjunction specified, must be one of AND, OR, AND NOT or OR NOT, but '" ++ found ++
      "' was found"
  | matchArity columns values =>
    "Full-text match requires the same non-zero number of columns and values, got " ++
      toString columns ++ " columns and " ++ toString values ++ " values"
  | validation problem => "Validation error: " ++ problem.message
  | param problem => "Parameter error: " ++ problem.message

end BuildError

end SqlBuilder
