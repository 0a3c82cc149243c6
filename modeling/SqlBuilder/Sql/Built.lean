import SqlBuilder.Sql.Statement
import SqlBuilder.Text.Clip

/-!
# Built statements

Building writes into a fresh writer and gives the text with its values in the order of the
placeholders, or the first error met in the order of writing.
-/

namespace SqlBuilder

/-- A statement as text, with the values of its placeholders in order. -/
structure Built where
  sql : String
  params : List Value

/-- What goes into a log when a statement is built: the text, cut to the limit, and the number of
values. -/
structure LogEntry where
  sql : String
  params : Nat
  deriving DecidableEq, Repr

/-- The log entry of a built statement. -/
def Built.logEntry (style : Style) (b : Built) : LogEntry :=
  ⟨clip style.maxLogged b.sql, b.params.length⟩

namespace Renderable

variable {σ : Type} [Renderable σ]

/-- Builds in a given style. -/
def buildWith (style : Style) (s : σ) : Except BuildError Built :=
  match (write s).run.run { style } with
  | (.ok (), w) => .ok ⟨w.sql, w.params.toList⟩
  | (.error e, _) => .error e

/-- Builds in the default style. -/
def build (s : σ) : Except BuildError Built :=
  buildWith {} s

/-- The text in the default style. -/
def toSql (s : σ) : Except BuildError String :=
  (build s).map Built.sql

end Renderable

end SqlBuilder
