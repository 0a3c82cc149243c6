import SqlBuilder.Proofs.Deletion
import SqlBuilder.Query.Reference

/-!
# Names of tables and columns

A table is introduced in a statement by its path (schema, point and name) and its alias, and from
then on it goes by the alias, or else by the path; that is what stands before the name of a column.
A name that a caller gives is kept whole if it has no point, and taken apart at its points if each
of its parts may stand for itself.
-/

namespace SqlBuilder

/-! ## Written names -/

/-- A name as it is written in a style. -/
def Style.name (style : Style) (name : String) : String :=
  Identifier.write (style.quoting = .always) name

namespace Table

/-- The schema of a table and a point, if it has a schema, and its name. -/
def path (style : Style) (t : Table) : String :=
  (t.schema.elim "" fun s => style.name s ++ ".") ++ style.name t.name

/-- What a table goes by after it has been introduced: its alias, or else its path. -/
def introduced (style : Style) (t : Table) : String :=
  t.aliasName.elim (t.path style) style.name

theorem reference_eq (style : Style) (t : Table) :
    t.reference style = t.path style ++ t.aliasName.elim "" fun a => " AS " ++ style.name a :=
  rfl

/-- Only a table without schema has its name for path. -/
theorem name_eq_path_iff (style : Style) (t : Table) :
    style.name t.name = t.path style ↔ t.schema = none := by
  rw [path]
  cases t.schema with
  | none => exact iff_of_true String.empty_append.symm rfl
  | some s =>
    refine iff_of_false (fun same => ?_) (Option.some_ne_none s)
    have lengths := congrArg String.length same
    rw [Option.elim_some, String.length_append, String.length_append] at lengths
    have point : ".".length = 1 := by decide
    omega

end Table

/-- A column after what its table goes by. -/
def Column.text (style : Style) (c : Column) : String :=
  (c.table.elim "" fun t => t.introduced style ++ ".") ++ style.name c.name

theorem Script.print_column (style : Style) (n : Nat) (c : Column) :
    Piece.print style n (column c).pieces = c.text style := by
  obtain ⟨name, aliasName, _ | ⟨table, aliasName', schema⟩⟩ := c
  · simp [column, ident, Piece.print, Piece.printed, Piece.write, Column.text, Style.name]
  · cases schema <;> cases aliasName' <;>
      simp [column, qualifier, Script.schema, Table.qualifier, text, ident, append_of_ok,
        Piece.print, Piece.printed, Piece.write, Column.text, Table.introduced, Table.path,
        Style.name, String.append_assoc]

/-! ## Names that callers give -/

namespace Column

theorem segments_of_not_mem {cs : List Char} (h : '.' ∉ cs) : segments cs = [cs] := by
  induction cs with
  | nil => rfl
  | cons c cs ih =>
    rw [List.mem_cons, not_or] at h
    rw [segments, if_neg (Ne.symm h.1), ih h.2]

theorem segments_append_point {as : List Char} (h : '.' ∉ as) (bs : List Char) :
    segments (as ++ '.' :: bs) = as :: segments bs := by
  induction as with
  | nil => rfl
  | cons a as ih =>
    rw [List.mem_cons, not_or] at h
    rw [List.cons_append, segments, if_neg (Ne.symm h.1), ih h.2]

/-- A name without points is kept whole and takes the table at hand. -/
theorem ofName_of_not_mem {n : String} (h : '.' ∉ n.toList) (binding : Option Table) :
    ofName binding n = { name := n, table := binding } := by
  have none : ofDotted n = none := by
    rw [ofDotted, segments_of_not_mem h]
    split_ifs <;> rfl
  rw [ofName, none, Option.getD_none]

/-- The text may stand for itself between two points. -/
def IsSegment (s : String) : Prop :=
  s ≠ "" ∧ '.' ∉ s.toList ∧ '"' ∉ s.toList

theorem ofDotted_of_isSegment {table name : String} (ht : IsSegment table) (hn : IsSegment name) :
    ofDotted (table ++ "." ++ name) = some { name, table := some { name := table } } := by
  obtain ⟨ht, pointT, quoteT⟩ := ht
  obtain ⟨hn, pointN, quoteN⟩ := hn
  have chars : (table ++ "." ++ name).toList = table.toList ++ '.' :: name.toList := by
    rw [String.toList_append, String.toList_append, List.append_assoc]
    rfl
  have parts : segments (table ++ "." ++ name).toList = [table.toList, name.toList] := by
    rw [chars, segments_append_point pointT, segments_of_not_mem pointN]
  have plain : ((table ++ "." ++ name).toList.contains '"' ||
      (segments (table ++ "." ++ name).toList).any List.isEmpty) = false := by
    rw [parts, chars]
    simp [quoteT, quoteN, ht, hn]
  rw [ofDotted, if_neg (Bool.eq_false_iff.1 plain), parts]
  simp

end Column

end SqlBuilder
