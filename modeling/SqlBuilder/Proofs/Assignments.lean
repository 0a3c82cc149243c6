import Mathlib.Data.List.Nodup
import SqlBuilder.Proofs.Names
import SqlBuilder.Proofs.Rebinding

/-!
# The last value of every column

An INSERT and an UPDATE keep one assignment for each column: the first that is given for a column
takes the next place, and a later one changes the value there.  So after any assignments every
column that was given stands at the place of its first assignment, with the value of its last
(`Assigned`); one assignment keeps this (`Assigned.assign`), so all of them do
(`assigned_assignAll`).  Both statements are then written as the columns in that order, and as many
placeholders, numbered from one, whose values are those of the columns.  Main statement:
`columns_get_last_values`.
-/

namespace SqlBuilder

/-! ## Assigning -/

section Assign

variable {column : String} {value : Value} {a : Assignment} {values sets : List Assignment}

/-- A new column comes last, and a column that is there stays where it is. -/
theorem columns_assign (column : String) (value : Value) (values : List Assignment) :
    (assign column value values).map Assignment.column =
      if column ∈ values.map Assignment.column then values.map Assignment.column
      else values.map Assignment.column ++ [column] := by
  induction values with
  | nil => rfl
  | cons a rest ih =>
    rw [assign, List.map_cons]
    by_cases h : a.column = column
    · rw [if_pos h, if_pos (h ▸ List.mem_cons_self)]
      rfl
    · rw [if_neg h, List.map_cons, ih]
      simp only [List.mem_cons, Ne.symm h, false_or]
      split_ifs <;> rfl

/-- Where columns are assigned once, an assignment changes that of its column alone. -/
theorem mem_assign_iff (once : (values.map Assignment.column).Nodup) :
    a ∈ assign column value values ↔
      a = ⟨column, value⟩ ∨ a ∈ values ∧ a.column ≠ column := by
  induction values with
  | nil => simp [assign]
  | cons b rest ih =>
    rw [List.map_cons, List.nodup_cons] at once
    rw [assign]
    by_cases h : b.column = column
    · have other : ∀ a ∈ rest, a.column ≠ column := by
        intro a ha same
        exact once.1 (List.mem_map.2 ⟨a, ha, same.trans h.symm⟩)
      rw [if_pos h, List.mem_cons, List.mem_cons, h]
      constructor
      · rintro (rfl | ha)
        · exact .inl rfl
        · exact .inr ⟨.inr ha, other a ha⟩
      · rintro (rfl | ⟨rfl | ha, hne⟩)
        · exact .inl rfl
        · exact absurd h hne
        · exact .inr ha
    · rw [if_neg h, List.mem_cons, ih once.2, List.mem_cons]
      constructor
      · rintro (rfl | rfl | ⟨ha, hne⟩)
        · exact .inr ⟨.inl rfl, h⟩
        · exact .inl rfl
        · exact .inr ⟨.inr ha, hne⟩
      · rintro (rfl | ⟨rfl | ha, hne⟩)
        · exact .inr (.inl rfl)
        · exact .inl rfl
        · exact .inr (.inr ⟨ha, hne⟩)

theorem eraseDups_concat (l : List String) (s : String) :
    (l ++ [s]).eraseDups = if s ∈ l then l.eraseDups else l.eraseDups ++ [s] := by
  rw [List.eraseDups_append, List.removeAll]
  by_cases h : s ∈ l
  · rw [if_pos h, List.filter_cons_of_neg (by simpa using h)]
    exact List.append_nil _
  · rw [if_neg h, List.filter_cons_of_pos (by simpa using h)]
    rfl

/-- What is kept of some assignments: each of their columns once, in the order of the first
assignments, with the values of the last ones. -/
structure Assigned (sets values : List Assignment) : Prop where
  columns : values.map Assignment.column = (sets.map Assignment.column).eraseDups
  once : (values.map Assignment.column).Nodup
  last : ∀ a ∈ values, ∃ before after, sets = before ++ a :: after ∧
    ∀ b ∈ after, b.column ≠ a.column

theorem Assigned.assign (h : Assigned sets values) (a : Assignment) :
    Assigned (sets ++ [a]) (assign a.column a.value values) where
  columns := by
    rw [columns_assign, h.columns, List.map_append, List.map_singleton, eraseDups_concat]
    simp only [List.mem_eraseDups]
  once := by
    rw [columns_assign]
    split_ifs with known
    · exact h.once
    · refine List.nodup_append.2 ⟨h.once, List.nodup_singleton _, fun b hb d hd => ?_⟩
      rw [List.mem_singleton.1 hd]
      exact ne_of_mem_of_not_mem hb known
  last b hb := by
    rcases (mem_assign_iff h.once).1 hb with rfl | ⟨hb, hne⟩
    · exact ⟨sets, [], rfl, List.forall_mem_nil _⟩
    · obtain ⟨before, after, rfl, later⟩ := h.last b hb
      refine ⟨before, after ++ [a], List.append_assoc _ _ _, fun d hd => ?_⟩
      rcases List.mem_append.1 hd with hd | hd
      · exact later d hd
      · rw [List.mem_singleton.1 hd]
        exact hne.symm

/-- Makes assignments in order. -/
def assignAll (sets values : List Assignment) : List Assignment :=
  sets.foldl (fun values a => SqlBuilder.assign a.column a.value values) values

theorem assigned_assignAll (sets : List Assignment) : Assigned sets (assignAll sets []) := by
  induction sets using List.reverseRecOn with
  | nil => exact ⟨rfl, List.nodup_nil, List.forall_mem_nil _⟩
  | append_singleton sets a ih =>
    rw [assignAll, List.foldl_concat]
    exact ih.assign a

theorem Assigned.ne_nil (h : Assigned sets values) (given : sets ≠ []) : values ≠ [] := by
  rintro rfl
  obtain ⟨a, sets, rfl⟩ := List.exists_cons_of_ne_nil given
  have columns := h.columns
  rw [List.map_nil, List.map_cons, List.eraseDups_cons] at columns
  cases columns

end Assign

/-! ## Texts of assignments -/

/-- The placeholders of `count` values, where `n` values are bound before them. -/
def Style.placeholders (style : Style) (n count : Nat) : List String :=
  (List.range' (n + 1) count).map (Writing.placeholder style.placeholder)

/-- The columns of some assignments as they are written. -/
def Style.columns (style : Style) (values : List Assignment) : List String :=
  values.map fun a => style.name a.column

/-- The columns of some assignments, each before its placeholder. -/
def Style.pairs (style : Style) (n : Nat) (values : List Assignment) : List String :=
  List.zipWith (fun column placeholder => column ++ " = " ++ placeholder) (style.columns values)
    (style.placeholders n values.length)

/-- The columns, the placeholders and the values of assignments are in step. -/
theorem Style.in_step (style : Style) {values : List Assignment} {k : Nat} {a : Assignment}
    (ha : values[k]? = some a) :
    (style.columns values)[k]? = some (style.name a.column) ∧
      (style.placeholders 0 values.length)[k]? =
        some (Writing.placeholder style.placeholder (k + 1)) ∧
      (values.map Assignment.value)[k]? = some a.value := by
  have inside : k < values.length := (List.getElem?_eq_some_iff.1 ha).1
  refine ⟨?_, ?_, ?_⟩
  · rw [columns, List.getElem?_map, ha, Option.map_some]
  · rw [placeholders, List.getElem?_map, List.getElem?_range' inside, Option.map_some]
    congr 2
    omega
  · rw [List.getElem?_map, ha, Option.map_some]

namespace Script

theorem texts_columns (style : Style) (n : Nat) (values : List Assignment) :
    texts style n (values.map fun a => ident a.column) = style.columns values := by
  induction values generalizing n with
  | nil => rfl
  | cons a rest ih =>
    have rest := ih (n + (Piece.values (ident a.column).pieces).length)
    rw [List.map_cons, texts, rest, ident, Piece.print_singleton]
    rfl

theorem texts_assignments (style : Style) (n : Nat) (values : List Assignment) :
    texts style n (values.map Assignment.script) = style.pairs n values := by
  induction values generalizing n with
  | nil => rfl
  | cons a rest ih =>
    have text : Piece.print style n a.script.pieces =
        style.name a.column ++ " = " ++ Writing.placeholder style.placeholder (n + 1) := by
      change Piece.print style n ([.ident a.column, .text " = "] ++ [.param a.value]) = _
      rw [Piece.print_append, Piece.print_singleton]
      rfl
    rw [List.map_cons, texts, text, Style.pairs, List.length_cons, Style.placeholders,
      List.range'_succ]
    exact congrArg (_ :: ·) (ih (n + 1))

/-- The script ends well and is written as the text, with the values. -/
def Builds (style : Style) (n : Nat) (s : Script) (b : Built) : Prop :=
  s.builtAfter style n = .ok b

variable {style : Style} {n : Nat} {s t : Script} {b d : Built}

theorem Builds.append (hs : s.Builds style n b) (ht : t.Builds style (n + b.params.length) d) :
    (s ++ t).Builds style n (b ++ d) := by
  rw [Builds, builtAfter_append, show s.builtAfter style n = .ok b from hs]
  change (do
    let y ← t.builtAfter style (n + b.params.length)
    return b ++ y) = _
  rw [show t.builtAfter style (n + b.params.length) = .ok d from ht]
  rfl

theorem builds_text (style : Style) (n : Nat) (t : String) : (text t).Builds style n ⟨t, []⟩ := by
  rw [Builds, builtAfter, text, Piece.print_singleton]
  rfl

theorem builds_ident (style : Style) (n : Nat) (name : String) :
    (ident name).Builds style n ⟨style.name name, []⟩ := by
  rw [Builds, builtAfter, ident, Piece.print_singleton]
  rfl

theorem builds_table (style : Style) (n : Nat) (t : Table) :
    (table t).Builds style n ⟨t.reference style, []⟩ := by
  rw [Builds, builtAfter, outcome_table, print_table, values_table]
  rfl

theorem builds_separated (style : Style) (n : Nat) (separator : String) {ss : List Script}
    (h : ∀ s ∈ ss, s.outcome = .ok ()) : (separated separator ss).Builds style n
      ⟨separator.intercalate (texts style n ss), ss.flatMap fun s => Piece.values s.pieces⟩ := by
  rw [Builds, builtAfter, outcome_separated h, print_separated style n h, values_separated h]
  rfl

theorem builds_columns (style : Style) (n : Nat) (values : List Assignment) :
    (separated ", " (values.map fun a => ident a.column)).Builds style n
      ⟨", ".intercalate (style.columns values), []⟩ := by
  have ok : ∀ s ∈ values.map fun a => ident a.column, s.outcome = .ok () :=
    List.forall_mem_map.2 fun _ _ => rfl
  have none : (values.map fun a => ident a.column).flatMap (fun s => Piece.values s.pieces) = [] :=
    List.flatMap_eq_nil_iff.2 (List.forall_mem_map.2 fun _ _ => rfl)
  rw [← texts_columns style n, ← none]
  exact builds_separated style n ", " ok

theorem builds_assignments (style : Style) (n : Nat) (values : List Assignment) :
    (separated ", " (values.map Assignment.script)).Builds style n
      ⟨", ".intercalate (style.pairs n values), values.map Assignment.value⟩ := by
  have ok : ∀ s ∈ values.map Assignment.script, s.outcome = .ok () :=
    List.forall_mem_map.2 fun _ _ => rfl
  have bound : (values.map Assignment.script).flatMap (fun s => Piece.values s.pieces) =
      values.map Assignment.value := by
    rw [List.flatMap_map, List.map_eq_flatMap]
    rfl
  rw [← texts_assignments style n, ← bound]
  exact builds_separated style n ", " ok

theorem builds_params (style : Style) (n : Nat) (vs : List Value) :
    (params vs).Builds style n ⟨", ".intercalate (style.placeholders n vs.length), vs⟩ := by
  rw [Builds, builtAfter, outcome_params, print_params, values_params]
  rfl

end Script

/-! ## Statements with assignments -/

namespace Insert

/-- The assignments made in order. -/
def setAll (sets : List Assignment) (s : Insert) : Insert :=
  sets.foldl (fun s a => s.set a.column a.value) s

theorem setAll_eq (sets : List Assignment) (s : Insert) :
    s.setAll sets = { s with values := assignAll sets s.values } := by
  induction sets generalizing s with
  | nil => rfl
  | cons a sets ih => exact ih (s.set a.column a.value)

/-- What an INSERT into a table writes. -/
def inserting (style : Style) (t : Table) (ignore : Bool) (values : List Assignment) : String :=
  "INSERT INTO " ++ style.name t.name ++ " (" ++ ", ".intercalate (style.columns values) ++
    ") VALUES (" ++ ", ".intercalate (style.placeholders 0 values.length) ++ ")" ++
    if ignore then " ON CONFLICT DO NOTHING" else ""

/-- An INSERT writes its columns and as many placeholders, in one order, and binds the values of the
columns in that order. -/
theorem buildWith_of_values {s : Insert} (filled : s.values ≠ []) (style : Style) :
    Renderable.buildWith style s =
      .ok ⟨inserting style s.table s.ignore s.values, s.values.map Assignment.value⟩ := by
  have tail : ∀ n, (if s.ignore then .text " ON CONFLICT DO NOTHING" else ∅ : Script).Builds style n
      ⟨if s.ignore then " ON CONFLICT DO NOTHING" else "", []⟩ := by
    intro n
    split_ifs
    · exact Script.builds_text style n _
    · rfl
  have opening := ((Script.builds_text style 0 "INSERT INTO ").append
    (Script.builds_ident style _ s.table.name)).append (Script.builds_text style _ " (")
  have columns := (opening.append (Script.builds_columns style _ s.values)).append
    (Script.builds_text style _ ") VALUES (")
  have values := columns.append (Script.builds_params style _ (s.values.map Assignment.value))
  have builds := (values.append (Script.builds_text style _ ")")).append (tail _)
  rw [Renderable.buildWith_of_emits s.emits_write, script, if_neg (mt List.isEmpty_iff.1 filled)]
  refine builds.trans ?_
  simp only [Built.append_eq, List.append_nil, List.nil_append, List.length_nil, List.length_map,
    Nat.add_zero]
  rfl

end Insert

namespace Update

/-- The assignments made in order. -/
def setAll (sets : List Assignment) (u : Update) : Update :=
  sets.foldl (fun u a => u.set a.column a.value) u

theorem setAll_eq (sets : List Assignment) (u : Update) :
    u.setAll sets = { u with values := assignAll sets u.values } := by
  induction sets generalizing u with
  | nil => rfl
  | cons a sets ih => exact ih (u.set a.column a.value)

/-- What an UPDATE of a table writes before its predicate. -/
def setting (style : Style) (t : Table) (values : List Assignment) : String :=
  "UPDATE " ++ t.reference style ++ " SET " ++ ", ".intercalate (style.pairs 0 values)

variable {u : Update} {t : Table}

theorem builds_head (ht : u.table = some t) (filled : u.values ≠ []) (style : Style) :
    (Parted.head u).Builds style 0
      ⟨setting style t u.values, u.values.map Assignment.value⟩ := by
  have opening := ((Script.builds_text style 0 "UPDATE ").append
    (Script.builds_table style _ t)).append (Script.builds_text style _ " SET ")
  have builds := opening.append (Script.builds_assignments style _ u.values)
  have head : Parted.head u = .text "UPDATE " ++ .table t ++ .text " SET " ++
      .separated ", " (u.values.map Assignment.script) := by
    change Script.withTable "UPDATE" u.table _ = _
    rw [ht, Script.withTable, if_neg (mt List.isEmpty_iff.1 filled)]
  rw [head]
  refine builds.trans ?_
  simp only [Built.append_eq, List.append_nil, List.nil_append, List.length_nil, Nat.add_zero,
    setting]

/-- An UPDATE without a clause writes each column before its placeholder and binds the values of the
columns in that order. -/
theorem buildWith_of_not_hasClauses (ht : u.table = some t) (filled : u.values ≠ [])
    (none : ∀ p ∈ u.filter, ¬ p.hasClauses) (style : Style) :
    Renderable.buildWith style u =
      .ok ⟨setting style t u.values, u.values.map Assignment.value⟩ := by
  have head : (Parted.head u).builtAfter style 0 = .ok _ := builds_head ht filled style
  rw [Filtered.buildWith_eq, Filtered.place_of_not_hasClauses none, head]
  change Except.ok (Built.mk (setting style t u.values) (u.values.map Assignment.value) ++
    Built.mk "" [] ++ Built.mk "" []) = _
  simp only [Built.append_eq, String.append_empty, List.append_nil]

/-- The predicate of an UPDATE counts its values on from those of the columns. -/
theorem buildWith_of_hasClauses (ht : u.table = some t) (filled : u.values ≠ [])
    {p : Predicate Select} (hp : u.filter = some p) (h : p.hasClauses) (style : Style) :
    Renderable.buildWith style u =
      (p.treeScript.builtAfter style u.values.length).map fun tree =>
        ⟨setting style t u.values ++ " WHERE " ++ tree.sql,
          u.values.map Assignment.value ++ tree.params⟩ := by
  have head : (Parted.head u).builtAfter style 0 = .ok _ := builds_head ht filled style
  rw [Filtered.buildWith_of_hasClauses hp h, head]
  change (do
    let tree ← p.treeScript.builtAfter style (u.values.map Assignment.value).length
    return Built.mk (setting style t u.values) (u.values.map Assignment.value) ++
      Built.mk (" WHERE " ++ tree.sql) tree.params ++ Built.mk "" []) = _
  rw [List.length_map]
  cases p.treeScript.builtAfter style u.values.length with
  | error e => rfl
  | ok tree =>
    refine congrArg Except.ok ?_
    simp only [Built.append_eq, String.append_empty, List.append_nil, String.append_assoc]

end Update

/-! ## Every column gets its last value -/

/-- Assignments to an INSERT or UPDATE that had none leave one assignment for each of the columns,
in the order in which these were first given, with the value last given for each.  In every style
the columns are written in that order, and so are as many placeholders, numbered from one, each
bound to the value of the column in its place: in an INSERT as two lists, in an UPDATE as pairs,
before a predicate whose placeholders are numbered on from these. -/
theorem columns_get_last_values {sets : List Assignment} (given : sets ≠ []) :
    ∃ values, Assigned sets values ∧
      (∀ (style : Style) k a, values[k]? = some a →
        (style.columns values)[k]? = some (style.name a.column) ∧
        (style.placeholders 0 values.length)[k]? =
          some (Writing.placeholder style.placeholder (k + 1)) ∧
        (values.map Assignment.value)[k]? = some a.value) ∧
      (∀ s : Insert, s.values = [] → (s.setAll sets).values = values ∧
        ∀ style, Renderable.buildWith style (s.setAll sets) =
          .ok ⟨Insert.inserting style s.table s.ignore values, values.map Assignment.value⟩) ∧
      ∀ u : Update, u.values = [] → (u.setAll sets).values = values ∧
        ∀ t, u.table = some t → ∀ style,
          ((∀ p ∈ u.filter, ¬ p.hasClauses) → Renderable.buildWith style (u.setAll sets) =
            .ok ⟨Update.setting style t values, values.map Assignment.value⟩) ∧
          ∀ p ∈ u.filter, p.hasClauses →
            Renderable.buildWith style (u.setAll sets) =
              ((p.treeScript.builtAfter style values.length).map fun tree =>
                ⟨Update.setting style t values ++ " WHERE " ++ tree.sql,
                  values.map Assignment.value ++ tree.params⟩) ∧
            p.treeScript.Shifts style values.length := by
  have assigned := assigned_assignAll sets
  have filled := assigned.ne_nil given
  refine ⟨assignAll sets [], assigned, fun style k a => style.in_step, fun s fresh => ?_,
    fun u fresh => ?_⟩
  · have all := s.setAll_eq sets
    rw [fresh] at all
    rw [all]
    exact ⟨rfl, Insert.buildWith_of_values filled⟩
  · have all := u.setAll_eq sets
    rw [fresh] at all
    rw [all]
    refine ⟨rfl, fun t ht style => ⟨fun none => ?_, fun p hp h => ⟨?_, p.treeScript.shifts _ _⟩⟩⟩
    · exact Update.buildWith_of_not_hasClauses (u := { u with values := assignAll sets [] })
        ht filled none style
    · exact Update.buildWith_of_hasClauses (u := { u with values := assignAll sets [] })
        ht filled hp h style

/-- Three assignments to two columns, of an INSERT and of an UPDATE with conditions. -/
theorem columns_get_last_values_twice :
    ∃ values, values.map Assignment.value = [.int 3, .int 2] ∧
      Assigned [⟨"a", .int 1⟩, ⟨"b", .int 2⟩, ⟨"a", .int 3⟩] values ∧
      Renderable.build ((Insert.ofTable { name := "t" }).setAll
          [⟨"a", .int 1⟩, ⟨"b", .int 2⟩, ⟨"a", .int 3⟩]) =
        .ok ⟨"INSERT INTO t (a, b) VALUES ($1, $2)", [.int 3, .int 2]⟩ ∧
      Renderable.build (({ table := some { name := "t" }
                           filter := some (boundConditions none none none) } : Update).setAll
          [⟨"a", .int 1⟩, ⟨"b", .int 2⟩, ⟨"a", .int 3⟩]) =
        .ok ⟨"UPDATE t SET a = $1, b = $2 WHERE " ++
          "(t.a = $3) AND (EXISTS (SELECT * FROM u WHERE (COALESCE(b, 0) = $4)))",
          [.int 3, .int 2, .int 1, .bool true]⟩ := by
  obtain ⟨values, assigned, -, insert, update⟩ := columns_get_last_values
    (List.cons_ne_nil (⟨"a", .int 1⟩ : Assignment) [⟨"b", .int 2⟩, ⟨"a", .int 3⟩])
  obtain ⟨kept, built⟩ := insert (Insert.ofTable { name := "t" }) rfl
  subst kept
  refine ⟨_, ?_, assigned, built {}, ?_⟩
  · rfl
  · exact (((update _ rfl).2 { name := "t" } rfl {}).2 _ rfl rfl).1.trans rfl

end SqlBuilder
