import SqlBuilder.Proofs.Clauses
import SqlBuilder.Statement.Cursor

/-!
# DELETE is safe by default

A DELETE is written as the reference to its table and a tail, and the tail depends on whether some
node of its predicate has an entry (`Delete.HasCondition`) and on whether deleting all is allowed.
Only where there is no entry and deleting all is allowed is the tail empty.  No call at a cursor
takes the last entry away (`Cursor.hasClauses_apply` for one call, `Cursor.hasClauses_run` for a
run), so a condition once given stays.
-/

namespace SqlBuilder

theorem exists_of_map_eq_ok {ε α β : Type} {x : Except ε α} {f : α → β} {b : β}
    (h : x.map f = .ok b) : ∃ a, x = .ok a ∧ f a = b := by
  cases x with
  | error e => cases h
  | ok a => exact ⟨a, rfl, Except.ok.inj h⟩

/-! ## The reference to a table -/

/-- A table where a statement introduces it: schema and point, name, alias. -/
def Table.reference (style : Style) (t : Table) : String :=
  let name := Identifier.write (style.quoting = .always)
  (t.schema.elim "" fun s => name s ++ ".") ++ name t.name ++
    t.aliasName.elim "" fun a => " AS " ++ name a

namespace Script

theorem print_table (style : Style) (n : Nat) (t : Table) :
    Piece.print style n (table t).pieces = t.reference style := by
  obtain ⟨name, aliasName, schema⟩ := t
  cases schema <;> cases aliasName <;>
    simp [table, Script.schema, text, ident, append_of_ok, Piece.print, Piece.printed, Piece.write,
      Table.reference, String.append_assoc]

end Script

/-! ## The text of a DELETE -/

namespace Delete

/-- Some node of the predicate has an entry. -/
def HasCondition (d : Delete) : Prop :=
  ∃ p ∈ d.filter, p.HoldsEntry

/-- What stands after the table. -/
def tail (d : Delete) : Script :=
  Predicate.whereScript (d.filter.map (Predicate.map Select.script))
    (if d.allowAll then ∅ else .text " WHERE 1=0")

theorem buildWith_of_table {d : Delete} {t : Table} (ht : d.table = some t) (style : Style) :
    Renderable.buildWith style d = d.tail.outcome.map fun _ =>
      ⟨"DELETE FROM " ++ t.reference style ++ Piece.print style 0 d.tail.pieces,
        Piece.values d.tail.pieces⟩ := by
  have script : d.script = .text "DELETE FROM " ++ .table t ++ d.tail := by
    rw [Delete.script, ht]
    rfl
  have outcome : (Script.text "DELETE FROM " ++ .table t).outcome = .ok () :=
    Script.outcome_append_eq_ok.2 ⟨rfl, Script.outcome_table t⟩
  have values : Piece.values (Script.text "DELETE FROM " ++ .table t).pieces = [] :=
    Script.values_table t
  have text : Piece.print style 0 (Script.text "DELETE FROM " ++ .table t).pieces =
      "DELETE FROM " ++ t.reference style := by
    rw [Script.append_of_ok rfl, Piece.print_append, Script.print_table, Script.text,
      Piece.print_singleton]
    rfl
  rw [Renderable.buildWith_of_emits d.emits_write, script, Script.append_of_ok outcome,
    Piece.print_append, Piece.values_append, values, text]
  rfl

theorem hasCondition_iff (d : Delete) : d.HasCondition ↔ ∃ p ∈ d.filter, p.hasClauses := by
  simp only [HasCondition, Predicate.hasClauses_iff_holdsEntry]

theorem tail_of_hasClauses {d : Delete} {p : Predicate Select} (hp : d.filter = some p)
    (h : p.hasClauses) : d.tail = .text " WHERE " ++ p.treeScript := by
  rw [tail, hp, Option.map_some, Predicate.whereScript, Option.filter_some,
    Predicate.hasClauses_map, h]
  rfl

theorem tail_of_not_hasCondition {d : Delete} (h : ¬ d.HasCondition) :
    d.tail = if d.allowAll then ∅ else .text " WHERE 1=0" := by
  rw [hasCondition_iff] at h
  rw [tail]
  cases hp : d.filter with
  | none => rfl
  | some p =>
    have none : p.hasClauses = false := Bool.eq_false_iff.2 fun hc => h ⟨p, hp, hc⟩
    rw [Option.map_some, Predicate.whereScript, Option.filter_some, Predicate.hasClauses_map, none]
    rfl

/-- Without a condition nothing is bound, and the tail is a test that no row passes, unless deleting
all is allowed. -/
theorem buildWith_of_not_hasCondition {d : Delete} {t : Table} (ht : d.table = some t)
    (h : ¬ d.HasCondition) (style : Style) :
    Renderable.buildWith style d =
      .ok ⟨"DELETE FROM " ++ t.reference style ++ if d.allowAll then "" else " WHERE 1=0", []⟩ := by
  rw [buildWith_of_table ht, tail_of_not_hasCondition h]
  cases d.allowAll with
  | true => rfl
  | false =>
    rw [if_neg Bool.false_ne_true, if_neg Bool.false_ne_true, Script.text, Piece.print_singleton]
    rfl

/-- With a condition the tail is the predicate, as it is written alone, after the keyword. -/
theorem buildWith_of_hasClauses {d : Delete} {t : Table} {p : Predicate Select}
    (ht : d.table = some t) (hp : d.filter = some p) (h : p.hasClauses) (style : Style) :
    Renderable.buildWith style d = (Renderable.buildWith style p).map fun c =>
      ⟨"DELETE FROM " ++ t.reference style ++ (" WHERE " ++ c.sql), c.params⟩ := by
  rw [buildWith_of_table ht, tail_of_hasClauses hp h,
    Renderable.buildWith_of_emits p.emits_writeTree, Script.append_of_ok rfl, Piece.print_append,
    Script.text, Piece.print_singleton]
  cases p.treeScript.outcome <;> rfl

end Delete

theorem Predicate.sql_ne_empty {p : Predicate Select} (h : p.hasClauses) {style : Style} {b : Built}
    (hb : Renderable.buildWith style p = .ok b) : b.sql ≠ "" := by
  obtain ⟨outcome, rfl⟩ := (Renderable.buildWith_eq_ok_iff p.emits_writeTree).1 hb
  have visible : p.treeScript.Visible := visible_script (by rwa [hasClauses_map])
  exact visible outcome style 0

/-! ## Calls take no entry away -/

theorem InList.put_ne_nil {q : Type} (eq : q → q → Bool) (subject : Term q) (key : Option String)
    (values : List Value) (es : List (InList q)) : put eq subject key values es ≠ [] := by
  cases es with
  | nil => exact List.cons_ne_nil _ _
  | cons e es =>
    rw [put]
    split_ifs <;> exact List.cons_ne_nil _ _

theorem Predicate.hasClauses_modifyAt {q : Type} {f : Predicate q → Predicate q}
    (hf : ∀ n, n.hasClauses → (f n).hasClauses) (path : List Nat) {p : Predicate q}
    (h : p.hasClauses) : (p.modifyAt f path).hasClauses := by
  induction path generalizing p with
  | nil => exact hf p h
  | cons i path ih =>
    obtain ⟨own, groups⟩ := p
    rw [modifyAt, hasClauses_node, Bool.or_eq_true, List.any_eq_true]
    rw [hasClauses_node, Bool.or_eq_true, List.any_eq_true] at h
    refine h.imp_right ?_
    rintro ⟨g, hg, hc⟩
    obtain ⟨j, hj⟩ := List.mem_iff_getElem?.1 hg
    refine ⟨if i = j then g.modifyAt f path else g, List.mem_iff_getElem?.2 ⟨j, ?_⟩, ?_⟩
    · rw [List.getElem?_modify, hj]
      rfl
    · split_ifs
      · exact ih hc
      · exact hc

namespace Cursor

theorem hasClauses_modifyOwn {c : Cursor} {f : Conditions Select → Conditions Select}
    (hf : ∀ o, o.isEmpty = false → (f o).isEmpty = false) (h : c.root.hasClauses) :
    (c.modifyOwn f).root.hasClauses := by
  refine Predicate.hasClauses_modifyAt (fun n hn => ?_) c.path h
  obtain ⟨own, groups⟩ := n
  rw [Predicate.hasClauses_node, Bool.or_eq_true, Bool.not_eq_true'] at hn
  rw [Predicate.modifyOwn, Predicate.hasClauses_node, Bool.or_eq_true, Bool.not_eq_true']
  exact hn.imp_left (hf own)

theorem hasClauses_openGroup {c : Cursor} (conjunction : Conjunction) (h : c.root.hasClauses) :
    (c.openGroup conjunction).root.hasClauses := by
  refine Predicate.hasClauses_modifyAt (fun n hn => ?_) c.path h
  obtain ⟨own, groups⟩ := n
  rw [Predicate.hasClauses_node] at hn ⊢
  rw [Predicate.groups, List.any_append, ← Bool.or_assoc]
  exact Bool.or_eq_true_iff.2 (Or.inl hn)

/-- A call adds an entry to the node of the cursor, or changes none of its entries. -/
theorem hasClauses_apply {c c' : Cursor} {call : Call} (h : c.apply call = .ok c')
    (hc : c.root.hasClauses) : c'.root.hasClauses := by
  cases call with
  | compare | literal | textMatch | flag =>
    cases h
    exact hasClauses_modifyOwn (fun o _ => by simp [Conditions.isEmpty]) hc
  | range negated | nullTest negated | rowTest negated =>
    cases h
    refine hasClauses_modifyOwn (fun o _ => ?_) hc
    cases negated <;> simp [Conditions.isEmpty]
  | inList negated =>
    cases h
    refine hasClauses_modifyOwn (fun o _ => ?_) hc
    cases negated <;> simp [Conditions.isEmpty, InList.put_ne_nil]
  | openGroup conjunction =>
    obtain ⟨k, -, rfl⟩ := exists_of_map_eq_ok h
    exact hasClauses_openGroup k hc
  | enterGroup index =>
    simp only [apply] at h
    split_ifs at h
    cases h
    exact hc
  | leaveGroup =>
    cases h
    exact hc
  | setConjunction conjunction =>
    obtain ⟨k, -, rfl⟩ := exists_of_map_eq_ok h
    exact hasClauses_modifyOwn (fun _ ho => ho) hc
  | setTable table =>
    cases h
    exact hasClauses_modifyOwn (fun _ ho => ho) hc

theorem hasClauses_run (calls : List Call) {c : Cursor} (hc : c.root.hasClauses) :
    (c.run calls).1.root.hasClauses := by
  induction calls generalizing c with
  | nil => exact hc
  | cons call rest ih =>
    rw [run]
    cases h : c.apply call with
    | ok c' => exact ih (hasClauses_apply h hc)
    | error e => exact hc

end Cursor

namespace Delete

theorem hasCondition_edit {d : Delete} (h : d.HasCondition) (calls : List Call) :
    (Filtered.edit d calls).1.HasCondition := by
  obtain ⟨p, hp, hc⟩ := d.hasCondition_iff.1 h
  have root : (Filtered.cursor d).root = p := by
    change d.filter.getD .empty = p
    rw [hp, Option.getD_some]
  refine (hasCondition_iff _).2 ⟨_, rfl, ?_⟩
  exact Cursor.hasClauses_run calls (by rwa [root])

/-- The DELETE after some chains of calls on its predicate, each cut at its first failure. -/
def afterChains (d : Delete) (chains : List (List Call)) : Delete :=
  chains.foldl (fun d calls => (Filtered.edit d calls).1) d

theorem hasCondition_afterChains (chains : List (List Call)) {d : Delete} (h : d.HasCondition) :
    (d.afterChains chains).HasCondition := by
  induction chains generalizing d with
  | nil => exact h
  | cons calls chains ih => exact ih (hasCondition_edit h calls)

/-! ## Safety -/

/-- What a DELETE says after its table, in whatever way it came about: nothing only if deleting all
is allowed and no node of its predicate has an entry; a test that no row passes if there is no entry
and deleting all is not allowed; its predicate if there is an entry.  No calls on the predicate take
the last entry away. -/
theorem safe_by_default (d : Delete) :
    (∀ t style b, d.table = some t → Renderable.buildWith style d = .ok b →
      ∃ rest, b.sql = "DELETE FROM " ++ t.reference style ++ rest ∧
        (rest = "" ↔ d.allowAll ∧ ¬ d.HasCondition) ∧
        (¬ d.allowAll → ¬ d.HasCondition → rest = " WHERE 1=0" ∧ b.params = []) ∧
        (d.HasCondition → ∃ p ∈ d.filter, ∃ c : Built, Renderable.buildWith style p = .ok c ∧
          c.sql ≠ "" ∧ rest = " WHERE " ++ c.sql ∧ b.params = c.params)) ∧
      ∀ chains, d.HasCondition → (d.afterChains chains).HasCondition := by
  refine ⟨fun t style b ht hb => ?_, fun chains h => hasCondition_afterChains chains h⟩
  by_cases h : d.HasCondition
  · obtain ⟨p, hp, hc⟩ := d.hasCondition_iff.1 h
    rw [buildWith_of_hasClauses ht hp hc] at hb
    obtain ⟨c, hq, rfl⟩ := exists_of_map_eq_ok hb
    have visible := Predicate.sql_ne_empty hc hq
    refine ⟨_, rfl, ?_, fun _ none => absurd h none, fun _ => ⟨p, hp, c, hq, visible, rfl, rfl⟩⟩
    exact iff_of_false (by simp [String.append_eq_empty_iff]) fun none => none.2 h
  · rw [buildWith_of_not_hasCondition ht h] at hb
    cases hb
    refine ⟨_, rfl, ?_, fun all _ => ⟨if_neg all, rfl⟩, fun some => absurd some h⟩
    cases d.allowAll <;> simp [h]

/-- A DELETE whose predicate has empty sub-groups and, two levels down, the given conditions. -/
def ofDeep (own : Conditions Select) : Delete :=
  { table := some { name := "t", aliasName := some "x" }
    filter := some (.node {} [.empty, .node {} [.empty, .node own []]]) }

/-- The conditions of a node that asks whether a column is null. -/
def oneNullTest : Conditions Select :=
  { isNull := [.column { name := "a" }] }

theorem safe_by_default_ofDeep :
    ((ofDeep {}).table = some { name := "t", aliasName := some "x" } ∧
      Renderable.buildWith {} (ofDeep {}) = .ok ⟨"DELETE FROM t AS x WHERE 1=0", []⟩ ∧
      ¬ (ofDeep {}).HasCondition ∧
      ∃ rest, "DELETE FROM t AS x WHERE 1=0" = "DELETE FROM " ++ "t AS x" ++ rest ∧
        rest = " WHERE 1=0") ∧
    Renderable.buildWith {} (ofDeep oneNullTest) =
      .ok ⟨"DELETE FROM t AS x WHERE (((a IS NULL)))", []⟩ ∧
    (ofDeep oneNullTest).HasCondition ∧
    ((ofDeep oneNullTest).afterChains
      [[.setConjunction (.text "OR"), .openGroup (.text "XOR")], [.leaveGroup]]).HasCondition := by
  have none : ¬ (ofDeep {}).HasCondition := by
    rw [hasCondition_iff]
    rintro ⟨p, hp, hc⟩
    obtain rfl := Option.some.inj hp
    exact absurd hc (by decide)
  have some : (ofDeep oneNullTest).HasCondition := (hasCondition_iff _).2 ⟨_, rfl, rfl⟩
  obtain ⟨rest, sql, -, noop, -⟩ := (safe_by_default (ofDeep {})).1 _ {} _ rfl rfl
  exact ⟨⟨rfl, rfl, none, rest, sql, (noop Bool.false_ne_true none).1⟩, rfl, some,
    (safe_by_default _).2 _ some⟩

end Delete

end SqlBuilder
