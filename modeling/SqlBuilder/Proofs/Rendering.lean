import SqlBuilder.Proofs.Nested
import SqlBuilder.Proofs.Script

/-!
# The script of a statement

Every statement and every predicate has a script, which says without a style and without a writer
what is written.  The script of an entry is given for entries whose nested SELECTs are scripts, as
its writing is for entries whose nested SELECTs are actions; `emits_write` relates the two for each
kind of entry, given that the nested SELECTs are related.  `Select.induction` closes the knot in
`Select.emits_write`, and the statements follow.
-/

namespace SqlBuilder

variable {q : Type} {f : q → Writing Unit} {g : q → Script}

/-! ## Names -/

namespace Script

/-- The schema of a table and a point, if it has a schema. -/
def schema (t : Table) : Script :=
  match t.schema with
  | some s => ident s ++ text "."
  | none => ∅

/-- A table where a statement introduces it. -/
def table (t : Table) : Script :=
  schema t ++ ident t.name ++
    match t.aliasName with
    | some a => text " AS " ++ ident a
    | none => ∅

/-- What a table puts before the name of a column. -/
def qualifier (t : Table) : Script :=
  (if t.aliasName.isNone then schema t else ∅) ++ ident t.qualifier ++ text "."

/-- A column after its qualifier. -/
def column (c : Column) : Script :=
  match c.table with
  | some t => qualifier t ++ ident c.name
  | none => ident c.name

theorem outcome_table (t : Table) : (table t).outcome = .ok () := by
  obtain ⟨name, aliasName, schema⟩ := t
  cases schema <;> cases aliasName <;> rfl

theorem values_table (t : Table) : Piece.values (table t).pieces = [] := by
  obtain ⟨name, aliasName, schema⟩ := t
  cases schema <;> cases aliasName <;> rfl

theorem outcome_qualifier (t : Table) : (qualifier t).outcome = .ok () := by
  obtain ⟨name, aliasName, schema⟩ := t
  cases schema <;> cases aliasName <;> rfl

theorem outcome_column (c : Column) : (column c).outcome = .ok () := by
  obtain ⟨name, aliasName, _ | t⟩ := c
  · rfl
  · exact outcome_append_eq_ok.2 ⟨outcome_qualifier t, rfl⟩

theorem values_column (c : Column) : Piece.values (column c).pieces = [] := by
  obtain ⟨name, aliasName, _ | ⟨table, aliasName', schema⟩⟩ := c
  · rfl
  · cases schema <;> cases aliasName' <;> rfl

end Script

theorem emits_schema (t : Table) : Emits (Writing.schema t) (.schema t) := by
  unfold Writing.schema Script.schema
  cases t.schema with
  | some s => exact (emits_ident s).seq (emits_text ".")
  | none => exact emits_pure

theorem emits_table (t : Table) : Emits (Writing.table t) (.table t) := by
  unfold Writing.table Script.table
  rw [Script.append_assoc]
  refine (emits_schema t).seq ((emits_ident t.name).seq ?_)
  cases t.aliasName with
  | some a => exact (emits_text " AS ").seq (emits_ident a)
  | none => exact emits_pure

theorem emits_qualifier (t : Table) : Emits (Writing.qualifier t) (.qualifier t) := by
  unfold Writing.qualifier Script.qualifier
  rw [Script.append_assoc]
  rw [Script.ite_append, Script.empty_append]
  have tail := (emits_ident t.qualifier).seq (emits_text ".")
  exact Emits.ite ((emits_schema t).seq tail) tail

theorem emits_column (c : Column) : Emits (Writing.column c) (.column c) := by
  unfold Writing.column Script.column
  cases c.table with
  | some t => exact (emits_qualifier t).seq (emits_ident c.name)
  | none => exact emits_ident c.name

/-! ## Entries -/

/-- A column as it is qualified, or a nested SELECT between parentheses. -/
def Term.script : Term Script → Script
  | column c => .column c
  | subquery s => s.parenthesized

theorem Term.emits_write {t : Term q} (h : ∀ s ∈ t.nested, Emits (f s) (g s)) :
    Emits (t.map f).write (t.map g).script := by
  cases t with
  | column c => exact emits_column c
  | subquery s => exact (h s (List.mem_singleton_self s)).parenthesized

/-- A placeholder, a column, or a nested SELECT between parentheses. -/
def Operand.script : Operand Script → Script
  | value v => .param v
  | column c => .column c
  | subquery s => s.parenthesized

theorem Operand.emits_write {o : Operand q} (h : ∀ s ∈ o.nested, Emits (f s) (g s)) :
    Emits (o.map f).write (o.map g).script := by
  cases o with
  | value v => exact emits_param v
  | column c => exact emits_column c
  | subquery s => exact (h s (List.mem_singleton_self s)).parenthesized

/-- A full-text search; it fails unless it has as many terms as columns, and some. -/
def TextMatch.script (e : TextMatch Script) : Script :=
  if e.columns.isEmpty || e.columns.length != e.values.length then
    .fail (.matchArity e.columns.length e.values.length)
  else
    .text "(MATCH(" ++ .separated ", " (e.columns.map Term.script) ++ .text ") AGAINST(" ++
      .params e.values ++ .text e.mode.modifier ++ .text "))"

theorem TextMatch.emits_write {e : TextMatch q} (h : ∀ s ∈ e.nested, Emits (f s) (g s)) :
    Emits (e.map f).write (e.map g).script := by
  have hc : List.Forall₂ Emits ((e.map f).columns.map Term.write)
      ((e.map g).columns.map Term.script) := by
    rw [TextMatch.map, TextMatch.map, List.map_map, List.map_map]
    exact forall₂_map_of_mem fun t ht =>
      Term.emits_write fun s hs => h s (List.mem_flatMap.2 ⟨t, ht, hs⟩)
  unfold TextMatch.write TextMatch.script
  simp only [TextMatch.map, List.isEmpty_map, List.length_map, Script.append_assoc] at hc ⊢
  split_ifs
  · exact emits_fail _
  · exact (emits_text _).seq ((emits_separated _ hc).seq ((emits_text _).seq
      ((emits_params _).seq ((emits_text _).seq (emits_text _)))))

/-- A membership test; the test of an empty list is a constant. -/
def InList.script (negated : Bool) (e : InList Script) : Script :=
  if e.values.isEmpty then .text (if negated then "1=1" else "1=0")
  else
    .text "(" ++ e.subject.script ++ .text (if negated then " NOT IN (" else " IN (") ++
      .params e.values ++ .text "))"

theorem InList.emits_write (negated : Bool) {e : InList q}
    (h : ∀ s ∈ e.nested, Emits (f s) (g s)) :
    Emits ((e.map f).write negated) ((e.map g).script negated) := by
  unfold InList.write InList.script
  simp only [Script.append_assoc]
  exact Emits.ite (emits_text _) ((emits_text _).seq ((Term.emits_write h).seq
    ((emits_text _).seq ((emits_params _).seq (emits_text _)))))

/-- A range test between parentheses, with a placeholder for each bound. -/
def Range.script (negated : Bool) (e : Range Script) : Script :=
  (e.subject.script ++ .text (if negated then " NOT BETWEEN " else " BETWEEN ") ++
    .param e.lower ++ .text " AND " ++ .param e.upper).parenthesized

theorem Range.emits_write (negated : Bool) {e : Range q}
    (h : ∀ s ∈ e.nested, Emits (f s) (g s)) :
    Emits ((e.map f).write negated) ((e.map g).script negated) := by
  unfold Range.write Range.script
  simp only [Range.map, Script.append_assoc]
  exact ((Term.emits_write h).seq ((emits_text _).seq ((emits_param _).seq
    ((emits_text _).seq (emits_param _))))).parenthesized

/-- The sides of a comparison with its operator between them. -/
def Comparison.script (c : Comparison Script) : Script :=
  c.subject.script ++ .text " " ++ .text c.operator.keyword ++ .text " " ++ c.target.script

/-- A comparison, or literal text, between parentheses. -/
def Test.script : Test Script → Script
  | comparison c => c.script.parenthesized
  | literal sql => (Script.literal sql).parenthesized

theorem Test.emits_write {t : Test q} (h : ∀ s ∈ t.nested, Emits (f s) (g s)) :
    Emits (t.map f).write (t.map g).script := by
  cases t with
  | comparison c =>
    refine Emits.parenthesized ?_
    simp only [Comparison.script, Script.append_assoc]
    exact (Term.emits_write fun s hs => h s (List.mem_append_left _ hs)).seq
      ((emits_text _).seq ((emits_text _).seq ((emits_text _).seq
        (Operand.emits_write fun s hs => h s (List.mem_append_right _ hs)))))
  | literal sql => exact (emits_literal sql).parenthesized

/-- A test of a term for null. -/
def Term.nullTestScript (negated : Bool) (t : Term Script) : Script :=
  .text "(" ++ t.script ++ .text (if negated then " IS NOT NULL)" else " IS NULL)")

theorem Term.emits_writeNullTest (negated : Bool) {t : Term q}
    (h : ∀ s ∈ t.nested, Emits (f s) (g s)) :
    Emits ((t.map f).writeNullTest negated) ((t.map g).nullTestScript negated) := by
  unfold Term.writeNullTest Term.nullTestScript
  rw [Script.append_assoc]
  exact (emits_text _).seq ((Term.emits_write h).seq (emits_text _))

/-- A comparison of a flag, null counting as zero. -/
def Flag.script (e : Flag Script) : Script :=
  .text "(COALESCE(" ++ e.subject.script ++ .text ", 0) = " ++ .param e.value ++ .text ")"

theorem Flag.emits_write {e : Flag q} (h : ∀ s ∈ e.nested, Emits (f s) (g s)) :
    Emits (e.map f).write (e.map g).script := by
  unfold Flag.write Flag.script
  simp only [Flag.map, Script.append_assoc]
  exact (emits_text _).seq ((Term.emits_write h).seq ((emits_text _).seq
    ((emits_param _).seq (emits_text _))))

/-- A test of a nested SELECT for rows. -/
def rowTestScript (negated : Bool) (s : Script) : Script :=
  .text (if negated then "NOT EXISTS " else "EXISTS ") ++ s.parenthesized

theorem emits_writeRowTest (negated : Bool) {a : Writing Unit} {s : Script} (h : Emits a s) :
    Emits (writeRowTest negated a) (rowTestScript negated s) :=
  (emits_text _).seq h.parenthesized

/-- The scripts of the clauses of a node in the order of writing. -/
def Conditions.clauseScripts (c : Conditions Script) : List Script :=
  c.matching.map TextMatch.script ++
  c.among.map (InList.script false) ++
  c.notAmong.map (InList.script true) ++
  c.between.map (Range.script false) ++
  c.notBetween.map (Range.script true) ++
  c.tests.map Test.script ++
  c.isNull.map (Term.nullTestScript false) ++
  c.isNotNull.map (Term.nullTestScript true) ++
  c.flags.map Flag.script ++
  c.someRow.map (rowTestScript false) ++
  c.noRow.map (rowTestScript true)

theorem Conditions.emits_clauses {c : Conditions q} (h : ∀ s ∈ c.nested, Emits (f s) (g s)) :
    List.Forall₂ Emits (c.map f).clauses (c.map g).clauseScripts := by
  obtain ⟨matching, among, notAmong, between, notBetween, tests, isNull, isNotNull, flags, someRow,
    noRow⟩ := c.forall_mem_nested.1 h
  unfold Conditions.clauses Conditions.clauseScripts Conditions.map
  refine List.rel_append (List.rel_append (List.rel_append (List.rel_append (List.rel_append
    (List.rel_append (List.rel_append (List.rel_append (List.rel_append (List.rel_append
      ?_ ?_) ?_) ?_) ?_) ?_) ?_) ?_) ?_) ?_) ?_
  · exact forall₂_map_map fun e he => TextMatch.emits_write (matching e he)
  · exact forall₂_map_map fun e he => InList.emits_write false (among e he)
  · exact forall₂_map_map fun e he => InList.emits_write true (notAmong e he)
  · exact forall₂_map_map fun e he => Range.emits_write false (between e he)
  · exact forall₂_map_map fun e he => Range.emits_write true (notBetween e he)
  · exact forall₂_map_map fun e he => Test.emits_write (tests e he)
  · exact forall₂_map_map fun e he => Term.emits_writeNullTest false (isNull e he)
  · exact forall₂_map_map fun e he => Term.emits_writeNullTest true (isNotNull e he)
  · exact forall₂_map_map fun e he => Flag.emits_write (flags e he)
  · exact forall₂_map_map fun s hs => emits_writeRowTest false (someRow s hs)
  · exact forall₂_map_map fun s hs => emits_writeRowTest true (noRow s hs)

/-! ## Predicates -/

namespace Predicate

mutual

/-- The clauses of a node and its sub-groups, with the conjunction between each two. -/
def script : Predicate Script → Script
  | node own groups =>
    .separated own.conjunction.separator (own.clauseScripts ++ groupScripts groups)

/-- The scripts of the sub-groups that hold a clause. -/
def groupScripts : List (Predicate Script) → List Script
  | [] => []
  | p :: rest =>
    if p.hasClauses then (script p).parenthesized :: groupScripts rest else groupScripts rest

end

theorem groupScripts_eq (ps : List (Predicate Script)) :
    groupScripts ps = (ps.filter hasClauses).map fun p => p.script.parenthesized := by
  induction ps with
  | nil => rfl
  | cons p ps ih => by_cases h : p.hasClauses <;> simp [groupScripts, h, ih]

theorem forall₂_emits_groups {ps : List (Predicate q)}
    (h : ∀ p ∈ ps, Emits (p.map f).write (p.map g).script) :
    List.Forall₂ Emits (groupClauses (ps.map (map f))) (groupScripts (ps.map (map g))) := by
  rw [groupClauses_eq, groupScripts_eq, filter_hasClauses_map, filter_hasClauses_map]
  exact forall₂_map_map fun p hp => (h p (List.mem_filter.1 hp).1).parenthesized

theorem emits_write {p : Predicate q} (h : ∀ s ∈ p.nested, Emits (f s) (g s)) :
    Emits (p.map f).write (p.map g).script := by
  induction p using Predicate.induction with
  | node own groups ih =>
    obtain ⟨inOwn, inGroups⟩ := (forall_mem_nested own groups).1 h
    rw [map_node, map_node, write, script]
    exact emits_separated _ (List.rel_append (own.emits_clauses inOwn)
      (forall₂_emits_groups fun p hp => ih p hp (inGroups p hp)))

/-- The WHERE clause of a statement, or what stands where there is no clause to write. -/
def whereScript (p : Option (Predicate Script)) (otherwise : Script) : Script :=
  match p.filter hasClauses with
  | some p => .text " WHERE " ++ p.script
  | none => otherwise

theorem emits_writeWhere {p : Option (Predicate q)} {a : Writing Unit} {s : Script}
    (h : ∀ r ∈ p, ∀ t ∈ r.nested, Emits (f t) (g t)) (ha : Emits a s) :
    Emits (writeWhere (p.map (map f)) a) (whereScript (p.map (map g)) s) := by
  cases p with
  | none => exact ha
  | some r =>
    unfold writeWhere whereScript
    rw [Option.map_some, Option.map_some, Option.filter_some, Option.filter_some, hasClauses_map,
      hasClauses_map]
    by_cases hr : r.hasClauses
    · rw [if_pos hr, if_pos hr]
      exact (emits_text _).seq (emits_write (h r rfl))
    · rw [if_neg hr, if_neg hr]
      exact ha

end Predicate

/-! ## SELECTs -/

namespace Script

/-- The script of a statement of a kind, which must have a table. -/
def withTable (kind : String) (t : Option Table) (k : Table → Script) : Script :=
  match t with
  | some t => k t
  | none => fail (.validation (.missingTable kind))

end Script

theorem emits_requireTable (kind : String) (t : Option Table) {a : Table → Writing Unit}
    {k : Table → Script} (h : ∀ t, Emits (a t) (k t)) :
    Emits (requireTable kind t >>= a) (.withTable kind t k) := by
  cases t with
  | some t => exact h t
  | none => exact emits_fail _

/-- An item of a SELECT list. -/
def Term.selectedScript (t : Term Script) : Script :=
  t.script ++
    match t.column?.bind Column.aliasName with
    | some a => .text " AS " ++ .ident a
    | none => ∅

theorem Term.emits_writeSelected {t : Term q} (h : ∀ s ∈ t.nested, Emits (f s) (g s)) :
    Emits (t.map f).writeSelected (t.map g).selectedScript := by
  refine (Term.emits_write h).seq ?_
  cases t with
  | column c =>
    change Emits (match c.aliasName with | some a => _ | none => _)
      (match c.aliasName with | some a => _ | none => _)
    cases c.aliasName with
    | some a => exact (emits_text " AS ").seq (emits_ident a)
    | none => exact emits_pure
  | subquery s => exact emits_pure

/-- A term and a direction. -/
def SortKey.script (k : SortKey Script) : Script :=
  k.term.script ++ .text " " ++ .text k.direction.keyword

theorem SortKey.emits_write {k : SortKey q} (h : ∀ s ∈ k.nested, Emits (f s) (g s)) :
    Emits (k.map f).write (k.map g).script := by
  unfold SortKey.write SortKey.script
  rw [Script.append_assoc]
  exact (Term.emits_write h).seq ((emits_text _).seq (emits_text _))

/-- A keyword and a number, if there is one. -/
def countScript (keyword : String) : Option UInt64 → Script
  | some n => .text (" " ++ keyword ++ " ") ++ .number n
  | none => ∅

theorem emits_writeCount (keyword : String) (n : Option UInt64) :
    Emits (writeCount keyword n) (countScript keyword n) := by
  cases n with
  | some n => exact emits_text_number _ n
  | none => exact emits_pure

/-- A SELECT, given the scripts of nested ones; it fails without a table. -/
def SelectOver.script (s : SelectOver Script) : Script :=
  .withTable "SELECT" s.table fun t =>
    .text "SELECT " ++
      (if s.columns.isEmpty then .text "*"
        else .separated ", " (s.columns.map Term.selectedScript)) ++
      .text " FROM " ++ .table t ++ Predicate.whereScript s.filter ∅ ++
      (if s.orderBy.isEmpty then ∅
        else .text " ORDER BY " ++ .separated ", " (s.orderBy.map SortKey.script)) ++
      countScript "LIMIT" s.limit ++ countScript "OFFSET" s.offset

theorem SelectOver.emits_write {s : SelectOver q} (h : ∀ t ∈ s.nested, Emits (f t) (g t)) :
    Emits (s.map f).write (s.map g).script := by
  obtain ⟨inColumns, inFilter, inOrder⟩ := s.forall_mem_nested.1 h
  have columns := emits_separated ", " (forall₂_map_map fun t ht =>
    Term.emits_writeSelected (inColumns t ht))
  have order := emits_separated ", " (forall₂_map_map fun k hk =>
    SortKey.emits_write (inOrder k hk))
  have counts := (emits_writeCount "LIMIT" s.limit).seq (emits_writeCount "OFFSET" s.offset)
  unfold SelectOver.write SelectOver.script
  refine emits_requireTable "SELECT" s.table fun t => ?_
  simp only [Script.append_assoc, Script.ite_append, Script.empty_append, SelectOver.map,
    List.isEmpty_map]
  have ordered := Emits.ite (c := s.orderBy.isEmpty) counts
    ((emits_text " ORDER BY ").seq (order.seq counts))
  have rest := (emits_text " FROM ").seq ((emits_table t).seq
    ((Predicate.emits_writeWhere inFilter emits_pure).seq ordered))
  exact (emits_text "SELECT ").seq (Emits.ite ((emits_text "*").seq rest) (columns.seq rest))

namespace Select

/-- The script of a SELECT. -/
def script : Select → Script :=
  fold SelectOver.script

theorem script_of (s : SelectOver Select) : (of s).script = (s.map script).script :=
  fold_of _ s

theorem emits_write (s : Select) : Emits s.write s.script := by
  induction s using Select.induction with
  | of form ih =>
    rw [write_of, script_of]
    exact SelectOver.emits_write ih

end Select

/-! ## Statements -/

namespace Insert

/-- An INSERT, whose table stands by its name alone; it fails without an assignment. -/
def script (s : Insert) : Script :=
  if s.values.isEmpty then .fail (.validation .nothingToInsert)
  else
    .text "INSERT INTO " ++ .ident s.table.name ++ .text " (" ++
      .separated ", " (s.values.map fun a => .ident a.column) ++ .text ") VALUES (" ++
      .params (s.values.map Assignment.value) ++ .text ")" ++
      if s.ignore then .text " ON CONFLICT DO NOTHING" else ∅

theorem emits_write (s : Insert) : Emits s.write s.script := by
  have columns := emits_separated ", " (forall₂_map_of_mem
    fun (a : Assignment) (_ : a ∈ s.values) => emits_ident a.column)
  unfold write script
  simp only [Script.append_assoc]
  exact Emits.ite (emits_fail _) ((emits_text _).seq ((emits_ident _).seq ((emits_text _).seq
    (columns.seq ((emits_text _).seq ((emits_params _).seq ((emits_text _).seq
      (Emits.ite (emits_text _) emits_pure))))))))

end Insert

/-- A column, the sign of assignment, and the placeholder of its value. -/
def Assignment.script (a : Assignment) : Script :=
  .ident a.column ++ .text " = " ++ .param a.value

theorem Assignment.emits_write (a : Assignment) : Emits a.write a.script := by
  unfold Assignment.write Assignment.script
  rw [Script.append_assoc]
  exact (emits_ident _).seq ((emits_text _).seq (emits_param _))

namespace Update

/-- An UPDATE; it fails without a table, and then without an assignment. -/
def script (s : Update) : Script :=
  .withTable "UPDATE" s.table fun t =>
    if s.values.isEmpty then .fail (.validation .nothingToSet)
    else
      .text "UPDATE " ++ .table t ++ .text " SET " ++
        .separated ", " (s.values.map Assignment.script) ++
        Predicate.whereScript (s.filter.map (Predicate.map Select.script)) ∅

theorem emits_write (s : Update) : Emits s.write s.script := by
  have values := emits_separated ", " (forall₂_map_of_mem fun a (_ : a ∈ s.values) =>
    a.emits_write)
  unfold write script
  refine emits_requireTable "UPDATE" s.table fun t => ?_
  simp only [Script.append_assoc]
  exact Emits.ite (emits_fail_bind _ _) ((emits_text _).seq ((emits_table t).seq
    ((emits_text _).seq (values.seq
      (Predicate.emits_writeWhere (fun _ _ u _ => u.emits_write) emits_pure)))))

end Update

namespace Delete

/-- A DELETE; without a condition it deletes no row, unless deleting all is allowed. -/
def script (s : Delete) : Script :=
  .withTable "DELETE" s.table fun t =>
    .text "DELETE FROM " ++ .table t ++
      Predicate.whereScript (s.filter.map (Predicate.map Select.script))
        (if s.allowAll then ∅ else .text " WHERE 1=0")

theorem emits_write (s : Delete) : Emits s.write s.script := by
  unfold write script
  refine emits_requireTable "DELETE" s.table fun t => ?_
  rw [Script.append_assoc]
  exact (emits_text _).seq ((emits_table t).seq (Predicate.emits_writeWhere
    (fun _ _ u _ => u.emits_write) (Emits.ite emits_pure (emits_text _))))

end Delete

namespace SetOperation

/-- A set operation; it fails with fewer than two members. -/
def script (o : SetOperation) : Script :=
  if o.members.length < 2 then .fail (.validation (.tooFewMembers o.operator.keyword))
  else
    .separated (" " ++ o.operator.keyword ++ " ")
      (o.members.map fun s => s.script.parenthesized)

theorem emits_write (o : SetOperation) : Emits o.write o.script :=
  Emits.ite (emits_fail _) (emits_separated _ (forall₂_map_of_mem fun s _ =>
    s.emits_write.parenthesized))

end SetOperation

namespace Statement

/-- The script of a statement. -/
def script : Statement → Script
  | select s => s.script
  | insert s => s.script
  | update s => s.script
  | delete s => s.script
  | setOperation s => s.script

theorem emits_write (s : Statement) : Emits s.write s.script := by
  cases s with
  | select s => exact s.emits_write
  | insert s => exact s.emits_write
  | update s => exact s.emits_write
  | delete s => exact s.emits_write
  | setOperation s => exact s.emits_write

end Statement

/-- The script of a predicate without the keyword before it. -/
def Predicate.treeScript (p : Predicate Select) : Script :=
  (p.map Select.script).script

theorem Predicate.emits_writeTree (p : Predicate Select) : Emits p.writeTree p.treeScript :=
  Predicate.emits_write fun s _ => s.emits_write

/-! ## One script for all styles and writers -/

/-- What is written for `s` is the script `t`, whatever the style and the writer: a build is the
text and the values of the script, its placeholders are numbered from one without gaps, and two
styles print only names and bind values differently, each for its own reason. -/
structure Renderable.Factors {σ : Type} [Renderable σ] (s : σ) (t : Script) : Prop where
  emits : ∀ w : Writer, (write s).run.run w =
    (t.outcome, { w with
      sql := w.sql ++ Piece.print w.style w.params.size t.pieces
      params := w.params ++ (Piece.values t.pieces).toArray })
  built : ∀ style, buildWith style s =
    t.outcome.map fun _ => ⟨Piece.print style 0 t.pieces, Piece.values t.pieces⟩
  numbered : ∀ style b, buildWith style s = .ok b →
    Piece.placeholders style 0 t.pieces =
      (List.range' 1 b.params.length).map (Writing.placeholder style.placeholder)
  styles : ∀ p ∈ t.pieces, ∀ (style style' : Style) (n : Nat), p.write style n ≠ p.write style' n →
    (∃ name, p = .ident name ∧ style.quoting ≠ style'.quoting) ∨
      ∃ v, p = .param v ∧ style.placeholder ≠ style'.placeholder

theorem Piece.style_ne_of_write_ne {p : Piece} {style style' : Style} {n : Nat}
    (h : p.write style n ≠ p.write style' n) :
    (∃ name, p = .ident name ∧ style.quoting ≠ style'.quoting) ∨
      ∃ v, p = .param v ∧ style.placeholder ≠ style'.placeholder := by
  cases p with
  | text s => exact absurd rfl h
  | number n => exact absurd rfl h
  | literal sql => exact absurd rfl h
  | ident name => exact Or.inl ⟨name, rfl, fun e => h (by rw [write, write, e])⟩
  | param v => exact Or.inr ⟨v, rfl, fun e => h (by rw [write, write, e])⟩

theorem Emits.factors {σ : Type} [Renderable σ] {s : σ} {t : Script}
    (h : Emits (Renderable.write s) t) : Renderable.Factors s t where
  emits := h
  built := Renderable.buildWith_of_emits h
  numbered style b hb := by
    obtain ⟨-, rfl⟩ := (Renderable.buildWith_eq_ok_iff h).1 hb
    exact Piece.placeholders_eq style 0 t.pieces
  styles _ _ _ _ _ hp := Piece.style_ne_of_write_ne hp

/-- Every statement and every predicate is written as one script in all styles and after whatever
was written before. -/
theorem rendering_factors :
    (∀ s : Statement, ∃ t : Script, Renderable.Factors s t) ∧
      ∀ p : Predicate Select, ∃ t : Script, Renderable.Factors p t :=
  ⟨fun s => ⟨s.script, s.emits_write.factors⟩, fun p => ⟨p.treeScript, p.emits_writeTree.factors⟩⟩

end SqlBuilder
