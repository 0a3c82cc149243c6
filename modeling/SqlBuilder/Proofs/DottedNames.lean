import SqlBuilder.Proofs.NameReading
import SqlBuilder.Proofs.Names

/-!
# Dotted names

A name is taken apart at its points if it has two or three parts, none of them empty, and no quote
(`Column.IsDotted`); the column then brings its table along, whatever the table at hand is.  Every
other name is kept whole and takes the table at hand.  No text is lost either way: the parts are
written as the name if they are plain words, and a name that is kept whole is the last token of the
column.  Main statement: `ColumnArg.name_splits_iff_dotted`.
-/

namespace SqlBuilder

theorem mem_of_mem_intercalate {α : Type} {separator : List α} {ls : List (List α)} {x : α}
    (h : x ∈ separator.intercalate ls) : x ∈ separator ∨ ∃ l ∈ ls, x ∈ l := by
  induction ls with
  | nil =>
    rw [List.intercalate_nil] at h
    cases h
  | cons l ls ih =>
    cases ls with
    | nil =>
      rw [List.intercalate_singleton] at h
      exact Or.inr ⟨l, List.mem_cons_self, h⟩
    | cons m ls =>
      rw [List.intercalate_cons_cons, List.mem_append, List.mem_append] at h
      rcases h with (h | h) | h
      · exact Or.inr ⟨l, List.mem_cons_self, h⟩
      · exact Or.inl h
      · exact (ih h).imp_right fun ⟨k, hk, mem⟩ => ⟨k, List.mem_cons_of_mem l hk, mem⟩

namespace Column

/-! ## The parts of a name -/

/-- The texts between the points of a name. -/
def parts (name : String) : List String :=
  (name.toList.splitOn '.').map String.ofList

theorem segments_eq_splitOn (cs : List Char) : segments cs = cs.splitOn '.' := by
  induction cs with
  | nil => rfl
  | cons c cs ih =>
    rw [segments, List.splitOn_cons_eq_if_modifyHead, ih]
    by_cases point : c = '.'
    · rw [if_pos point, if_pos (beq_iff_eq.2 point)]
    · rw [if_neg point, if_neg fun h => point (beq_iff_eq.1 h)]
      cases h : cs.splitOn '.' with
      | nil => exact absurd h (List.splitOn_ne_nil '.' cs)
      | cons s ss => rfl

theorem map_segments (name : String) :
    (segments name.toList).map String.ofList = parts name := by
  rw [segments_eq_splitOn, parts]

/-- The parts, with points between them, are the name. -/
theorem intercalate_parts (name : String) : ".".intercalate (parts name) = name := by
  have chars : (parts name).map String.toList = name.toList.splitOn '.' := by
    rw [parts, List.map_map]
    exact List.map_id'' (fun cs => String.toList_ofList) _
  rw [← String.toList_inj, String.toList_intercalate, chars]
  exact List.intercalate_splitOn '.'

/-- A character of a name that is not a point is in one of the parts. -/
theorem exists_mem_parts {c : Char} {name : String} (h : c ∈ name.toList) (point : c ≠ '.') :
    ∃ p ∈ parts name, c ∈ p.toList := by
  have chars : ['.'].intercalate (name.toList.splitOn '.') = name.toList :=
    List.intercalate_splitOn '.'
  rw [← chars] at h
  rcases mem_of_mem_intercalate h with separator | ⟨p, hp, mem⟩
  · exact absurd (List.mem_singleton.1 separator) point
  · exact ⟨String.ofList p, List.mem_map_of_mem hp, by rwa [String.toList_ofList]⟩

theorem any_isEmpty_segments (name : String) :
    (segments name.toList).any List.isEmpty = true ↔ "" ∈ parts name := by
  simp only [← map_segments, List.any_eq_true, List.isEmpty_iff, List.mem_map,
    String.ofList_eq_empty_iff]

/-! ## Dotted names -/

/-- The name has two or three parts, none of them empty, and no quote. -/
def IsDotted (name : String) : Prop :=
  '"' ∉ name.toList ∧ "" ∉ parts name ∧ ((parts name).length = 2 ∨ (parts name).length = 3)

instance (name : String) : Decidable (IsDotted name) :=
  inferInstanceAs (Decidable (_ ∧ _))

/-- The column that has the last part of a name for name, and the parts before it for table. -/
inductive Splits (name : String) : Column → Prop
  | table {table column : String} (h : parts name = [table, column]) :
    Splits name { name := column, table := some { name := table } }
  | schema {schema table column : String} (h : parts name = [schema, table, column]) :
    Splits name { name := column, table := some { name := table, schema := some schema } }

variable {name : String} {c : Column}

theorem eq_of_parts_two {table column : String} (h : parts name = [table, column]) :
    name = table ++ "." ++ column := by
  have joined := intercalate_parts name
  rw [h, String.intercalate_cons_cons, String.intercalate_singleton] at joined
  exact joined.symm

theorem eq_of_parts_three {schema table column : String}
    (h : parts name = [schema, table, column]) :
    name = schema ++ "." ++ (table ++ "." ++ column) := by
  have joined := intercalate_parts name
  rw [h, String.intercalate_cons_cons, String.intercalate_cons_cons,
    String.intercalate_singleton] at joined
  exact joined.symm

theorem Splits.length_lt (h : Splits name c) : c.name.length < name.length := by
  have point : ".".length = 1 := by decide
  cases h with
  | table h =>
    rw [eq_of_parts_two h]
    simp only [String.length_append]
    omega
  | schema h =>
    rw [eq_of_parts_three h]
    simp only [String.length_append]
    omega

theorem ofDotted_guard (name : String) :
    (name.toList.contains '"' || (segments name.toList).any List.isEmpty) = true ↔
      '"' ∈ name.toList ∨ "" ∈ parts name := by
  rw [Bool.or_eq_true, any_isEmpty_segments, List.contains_iff_mem]

theorem exists_splits (h : IsDotted name) : ∃ c, Splits name c ∧ ofDotted name = some c := by
  obtain ⟨quote, empty, count⟩ := h
  have guard := mt (ofDotted_guard name).1 (not_or.2 ⟨quote, empty⟩)
  unfold ofDotted
  rw [if_neg guard, map_segments]
  rcases count with two | three
  · obtain ⟨table, column, parts⟩ := List.length_eq_two.1 two
    rw [parts]
    exact ⟨_, .table parts, rfl⟩
  · obtain ⟨schema, table, column, parts⟩ := List.length_eq_three.1 three
    rw [parts]
    exact ⟨_, .schema parts, rfl⟩

theorem ofDotted_eq_none (h : ¬ IsDotted name) : ofDotted name = none := by
  unfold ofDotted
  by_cases guard : (name.toList.contains '"' || (segments name.toList).any List.isEmpty) = true
  · rw [if_pos guard]
  · rw [if_neg guard, map_segments]
    obtain ⟨quote, empty⟩ := not_or.1 (mt (ofDotted_guard name).2 guard)
    have count := fun two_or_three => h ⟨quote, empty, two_or_three⟩
    match parts name, count with
    | [], _ => rfl
    | [_], _ => rfl
    | [_, _], count => exact absurd (Or.inl rfl) count
    | [_, _, _], count => exact absurd (Or.inr rfl) count
    | _ :: _ :: _ :: _ :: _, _ => rfl

/-- A dotted name stands for one column, whatever the table at hand is. -/
theorem exists_ofName (h : IsDotted name) : ∃ c, Splits name c ∧ ∀ b, ofName b name = c := by
  obtain ⟨c, splits, dotted⟩ := exists_splits h
  refine ⟨c, splits, fun b => ?_⟩
  rw [ofName, dotted, Option.getD_some]

/-- Every other name is kept whole and takes the table at hand. -/
theorem ofName_of_not_isDotted (h : ¬ IsDotted name) (b : Option Table) :
    ofName b name = { name, table := b } := by
  rw [ofName, ofDotted_eq_none h, Option.getD_none]

/-! ## How columns are written -/

/-- In a style the column is written as a text, after whatever was written before. -/
def Writes (style : Style) (c : Column) (text : String) : Prop :=
  ∀ w : Writer, w.style = style →
    (Writing.column c).run.run w = (.ok (), { w with sql := w.sql ++ text })

theorem writes_text (style : Style) (c : Column) : c.Writes style (c.text style) := by
  rintro w rfl
  rw [emits_column c w, Script.outcome_column, Writer.emit, Script.print_column,
    Script.values_column, Array.append_empty]

theorem name_of_plain {style : Style} (needed : style.quoting = .asNeeded)
    (plain : Identifier.isPlain name) : style.name name = name := by
  rw [Style.name, Identifier.write, needed, if_pos]
  simp [plain]

/-- A column got from a name of plain words is written as the name. -/
theorem Splits.text_eq {style : Style} (needed : style.quoting = .asNeeded)
    (plain : ∀ p ∈ parts name, Identifier.isPlain p) (h : Splits name c) :
    c.text style = name := by
  cases h with
  | table h =>
    rw [h, List.forall_mem_cons, List.forall_mem_singleton] at plain
    obtain ⟨table, column⟩ := plain
    rw [eq_of_parts_two h]
    simp only [text, Table.introduced, Table.path, Option.elim_some, Option.elim_none,
      name_of_plain needed table, name_of_plain needed column, String.empty_append]
  | schema h =>
    rw [h, List.forall_mem_cons, List.forall_mem_cons, List.forall_mem_singleton] at plain
    obtain ⟨schema, table, column⟩ := plain
    rw [eq_of_parts_three h]
    simp only [text, Table.introduced, Table.path, Option.elim_some, Option.elim_none,
      name_of_plain needed schema, name_of_plain needed table, name_of_plain needed column,
      String.append_assoc]

theorem not_quote_mem_of_isPlain (plain : Identifier.isPlain name) : '"' ∉ name.toList := by
  rw [Identifier.isPlain] at plain
  intro quote
  cases h : name.toList with
  | nil =>
    rw [h] at quote
    cases quote
  | cons c cs =>
    rw [h, Identifier.isPlainWord, Bool.and_eq_true, List.all_eq_true] at plain
    rw [h] at quote
    rcases List.mem_cons.1 quote with rfl | quote
    · exact absurd plain.1 (by decide)
    · exact absurd (plain.2 _ quote) (by decide)

theorem isDotted_of_plain (plain : ∀ p ∈ parts name, Identifier.isPlain p)
    (count : (parts name).length = 2 ∨ (parts name).length = 3) : IsDotted name := by
  refine ⟨fun quote => ?_, fun empty => absurd (plain "" empty) (by decide), count⟩
  obtain ⟨p, hp, quote⟩ := exists_mem_parts quote (by decide)
  exact not_quote_mem_of_isPlain (plain p hp) quote

end Column

/-! ## The last token of a column -/

theorem Piece.allTokens_append (style : Style) (n : Nat) (ps qs : List Piece) :
    allTokens style n (ps ++ qs) =
      allTokens style n ps ++ allTokens style (n + (values ps).length) qs := by
  induction ps generalizing n with
  | nil => rfl
  | cons p ps ih =>
    rw [List.cons_append, allTokens, allTokens, ih, values_cons p ps, List.length_append,
      Nat.add_assoc, List.append_assoc]

theorem Script.exists_pieces_column (c : Column) :
    ∃ ps, (column c).pieces = ps ++ [.ident c.name] := by
  obtain ⟨name, aliasName, _ | t⟩ := c
  · exact ⟨[], rfl⟩
  · refine ⟨(qualifier t).pieces, ?_⟩
    change (qualifier t ++ ident name).pieces = _
    rw [append_of_ok (outcome_qualifier t)]
    rfl

/-- The text of a column ends with a token that carries its name. -/
theorem Column.last_token_text (style : Style) (c : Column) :
    ∃ ts, lex (c.text style) = some ts ∧ ts.getLast?.bind Token.unquoted = some c.name := by
  have tokens := Piece.lex_print (Script.sealed_column c).apart (Script.sealed_column c).known
    style 0
  obtain ⟨ps, pieces⟩ := Script.exists_pieces_column c
  have last : Piece.allTokens style (0 + (Piece.values ps).length) [.ident c.name] =
      [Token.ofName (style.quoting = .always) c.name] := rfl
  rw [Script.print_column, pieces, Piece.allTokens_append, last] at tokens
  refine ⟨_, tokens, ?_⟩
  rw [List.getLast?_concat, Option.bind_some, Token.unquoted_ofName]

/-! ## Names that callers give -/

/-- A name stands for a column with a table of its own if and only if it is dotted, and then for one
column whatever the table at hand is; every other name is kept whole and takes the table at hand.
The parts of a name, with points between them, are the name, and they are written as the name if
they are plain words; a name that is kept whole is carried by the last token of its column. -/
theorem ColumnArg.name_splits_iff_dotted (name : String) :
    ".".intercalate (Column.parts name) = name ∧
    (∀ b, (∃ c, Column.Splits name c ∧ (ColumnArg.name name).resolve b = .column c) ↔
      Column.IsDotted name) ∧
    (Column.IsDotted name →
      ∃ c, Column.Splits name c ∧ ∀ b, (ColumnArg.name name).resolve b = .column c) ∧
    (¬ Column.IsDotted name →
      ∀ b, (ColumnArg.name name).resolve b = .column { name, table := b }) ∧
    ((∀ p ∈ Column.parts name, Identifier.isPlain p) →
      (Column.parts name).length = 2 ∨ (Column.parts name).length = 3 →
      ∀ b style, style.quoting = .asNeeded →
        ∃ c, (ColumnArg.name name).resolve b = .column c ∧ c.Writes style name) ∧
    (¬ Column.IsDotted name → ∀ b style, ∃ c text ts,
      (ColumnArg.name name).resolve b = .column c ∧ c.Writes style text ∧
        lex text = some ts ∧ ts.getLast?.bind Token.unquoted = some name) := by
  have dotted : Column.IsDotted name →
      ∃ c, Column.Splits name c ∧ ∀ b, (ColumnArg.name name).resolve b = .column c := by
    intro h
    obtain ⟨c, splits, resolved⟩ := Column.exists_ofName h
    exact ⟨c, splits, fun b => congrArg Term.column (resolved b)⟩
  have whole : ¬ Column.IsDotted name →
      ∀ b, (ColumnArg.name name).resolve b = .column { name, table := b } :=
    fun h b => congrArg Term.column (Column.ofName_of_not_isDotted h b)
  refine ⟨Column.intercalate_parts name, fun b => ⟨?_, fun h => ?_⟩, dotted, whole, ?_, ?_⟩
  · rintro ⟨c, splits, resolved⟩
    by_contra h
    -- a name that is kept whole is the name of its column, and the last part is shorter
    rw [whole h b] at resolved
    obtain rfl := Term.column.inj resolved
    exact absurd splits.length_lt (Nat.lt_irrefl _)
  · obtain ⟨c, splits, resolved⟩ := dotted h
    exact ⟨c, splits, resolved b⟩
  · intro plain count b style needed
    obtain ⟨c, splits, resolved⟩ := dotted (Column.isDotted_of_plain plain count)
    have writes := c.writes_text style
    rw [splits.text_eq needed plain] at writes
    exact ⟨c, resolved b, writes⟩
  · intro h b style
    obtain ⟨ts, tokens, last⟩ := Column.last_token_text style { name, table := b }
    exact ⟨_, _, ts, whole h b, Column.writes_text style _, tokens, last⟩

/-- A dotted name of plain words, and one that is kept whole since a part is empty, where the table
at hand is another. -/
theorem ColumnArg.name_splits_iff_dotted_orders :
    Column.IsDotted "app.users.id" ∧
    (∃ c, Column.Splits "app.users.id" c ∧
      (ColumnArg.name "app.users.id").resolve (some { name := "orders" }) = .column c) ∧
    (∃ c, (ColumnArg.name "app.users.id").resolve (some { name := "orders" }) = .column c ∧
      c.Writes {} "app.users.id") ∧
    ¬ Column.IsDotted "users..id" ∧
    (ColumnArg.name "users..id").resolve (some { name := "orders" }) =
      .column { name := "users..id", table := some { name := "orders" } } ∧
    ∃ c text ts,
      (ColumnArg.name "users..id").resolve (some { name := "orders" }) = .column c ∧
        c.Writes {} text ∧ lex text = some ts ∧
        ts.getLast?.bind Token.unquoted = some "users..id" := by
  have dotted : Column.IsDotted "app.users.id" := by decide
  have whole : ¬ Column.IsDotted "users..id" := by decide
  obtain ⟨-, -, split, -, plain, -⟩ := name_splits_iff_dotted "app.users.id"
  obtain ⟨-, -, -, kept, -, last⟩ := name_splits_iff_dotted "users..id"
  obtain ⟨c, splits, resolved⟩ := split dotted
  exact ⟨dotted, ⟨c, splits, resolved _⟩, plain (by decide) (by decide) _ {} rfl, whole,
    kept whole _, last whole _ {}⟩

end SqlBuilder
