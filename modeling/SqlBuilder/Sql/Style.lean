/-!
# How statements are written

The choices that a caller has: the form of placeholders, when names are quoted, and how much of a
statement goes into a log.
-/

namespace SqlBuilder

/-- The form of a placeholder. -/
inductive Placeholder where
  /-- A dollar sign and the number of the parameter, from one. -/
  | dollar
  | questionMark
  deriving DecidableEq, Repr

/-- When names are put between quotes. -/
inductive Quoting where
  | asNeeded
  | always
  deriving DecidableEq, Repr

/-- The choices for writing a statement. -/
structure Style where
  placeholder : Placeholder := .dollar
  quoting : Quoting := .asNeeded
  /-- The greatest number of bytes of a statement in a log; no limit if absent. -/
  maxLogged : Option Nat := some 200
  deriving DecidableEq, Repr

end SqlBuilder
