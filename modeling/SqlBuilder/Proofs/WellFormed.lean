import SqlBuilder.Proofs.Contents

/-!
# Which statements can be built

`WellFormed` says of a statement and of every SELECT that is written for it what a build needs:
tables, assignments, members, and full-text searches with as many values as columns.  A statement
has no problem among its items exactly if it is well-formed (`Statement.clean_items`), so that is
when it builds, in every style; otherwise every build ends with the first problem.
-/

namespace SqlBuilder

variable {q : Type} {P Q : q → Prop}

/-! ## Requirements of nodes and of SELECTs -/

/-- The SELECTs in a node that are written: all but the subjects of empty lists. -/
def Conditions.written (c : Conditions q) : List q :=
  Conditions.nested { c with
    among := c.among.filter (!·.values.isEmpty)
    notAmong := c.notAmong.filter (!·.values.isEmpty) }

/-- The full-text searches of all nodes fit, and the SELECTs that are written satisfy `P`. -/
def Predicate.Meets (P : q → Prop) (p : Predicate q) : Prop :=
  ∀ n, p.HasNode n → (∀ e ∈ n.own.matching, e.Fits) ∧ ∀ s ∈ n.own.written, P s

/-- There is a table, the predicate is in order, and the SELECTs in the list and in the sort keys
satisfy `P`, as do those that are written for the predicate. -/
structure SelectOver.Meets (P : q → Prop) (f : SelectOver q) : Prop where
  table : f.table.isSome
  columns : ∀ t ∈ f.columns, ∀ s ∈ t.nested, P s
  filter : ∀ p ∈ f.filter, p.Meets P
  orderBy : ∀ k ∈ f.orderBy, ∀ s ∈ k.nested, P s

theorem Conditions.mem_nested_of_mem_written {c : Conditions q} {s : q} (h : s ∈ c.written) :
    s ∈ c.nested := by
  simp only [written, nested, List.mem_append, List.mem_flatMap, List.mem_filter] at h ⊢
  grind

namespace Predicate

theorem HasNode.mem_nested {p n : Predicate q} (h : p.HasNode n) {s : q} (hs : s ∈ n.own.nested) :
    s ∈ p.nested := by
  induction p using Predicate.induction with
  | node own groups ih =>
    rw [nested_node, List.mem_append]
    rcases hasNode_iff.1 h with rfl | ⟨g, hg, hn⟩
    · exact Or.inl hs
    · exact Or.inr (List.mem_flatMap.2 ⟨g, hg, ih g hg hn⟩)

theorem Meets.imp {p : Predicate q} (h : p.Meets P) (hPQ : ∀ s ∈ p.nested, P s → Q s) :
    p.Meets Q := by
  intro n hn
  obtain ⟨fits, written⟩ := h n hn
  refine ⟨fits, fun s hs => hPQ s ?_ (written s hs)⟩
  exact hn.mem_nested (Conditions.mem_nested_of_mem_written hs)

theorem meets_node (own : Conditions q) (groups : List (Predicate q)) :
    (node own groups).Meets P ↔
      ((∀ e ∈ own.matching, e.Fits) ∧ ∀ s ∈ own.written, P s) ∧ ∀ g ∈ groups, g.Meets P :=
  forall_hasNode_node own groups

end Predicate

theorem SelectOver.Meets.imp {f : SelectOver q} (h : f.Meets P)
    (hPQ : ∀ s ∈ f.nested, P s → Q s) : f.Meets Q := by
  obtain ⟨inColumns, inFilter, inOrder⟩ := f.forall_mem_nested.1 hPQ
  exact
    { table := h.table
      columns := fun t ht s hs => inColumns t ht s hs (h.columns t ht s hs)
      filter := fun p hp => (h.filter p hp).imp (inFilter p hp)
      orderBy := fun k hk s hs => inOrder k hk s hs (h.orderBy k hk s hs) }

/-! ## Well-formed statements -/

/-- A SELECT meets its requirements, and so does every SELECT that is written for it. -/
inductive Select.WellFormed : Select → Prop
  | of {form : SelectOver Select} (table : form.table.isSome)
    (columns : ∀ t ∈ form.columns, ∀ s ∈ t.nested, WellFormed s)
    (matching : ∀ p ∈ form.filter, ∀ n, p.HasNode n → ∀ e ∈ n.own.matching, e.Fits)
    (written : ∀ p ∈ form.filter, ∀ n, p.HasNode n → ∀ s ∈ n.own.written, WellFormed s)
    (orderBy : ∀ k ∈ form.orderBy, ∀ s ∈ k.nested, WellFormed s) : WellFormed (.of form)

theorem Select.wellFormed_of_iff (form : SelectOver Select) :
    (of form).WellFormed ↔ form.Meets WellFormed := by
  constructor
  · rintro ⟨table, columns, matching, written, orderBy⟩
    exact ⟨table, columns, fun p hp n hn => ⟨matching p hp n hn, written p hp n hn⟩, orderBy⟩
  · rintro ⟨table, columns, filter, orderBy⟩
    exact .of table columns (fun p hp n hn => (filter p hp n hn).1)
      (fun p hp n hn => (filter p hp n hn).2) orderBy

/-- What a build of the statement needs. -/
def Statement.WellFormed : Statement → Prop
  | select s => s.WellFormed
  | insert s => s.values ≠ []
  | update s => s.table.isSome ∧ s.values ≠ [] ∧ ∀ p ∈ s.filter, p.Meets Select.WellFormed
  | delete s => s.table.isSome ∧ ∀ p ∈ s.filter, p.Meets Select.WellFormed
  | setOperation o => 2 ≤ o.members.length ∧ ∀ s ∈ o.members, s.WellFormed

/-! ## Items without a problem -/

/-- No item is a problem. -/
def Item.Clean (l : List Item) : Prop :=
  ∀ x ∈ l, x.problem? = none

namespace Item

theorem firstProblem_eq_none_iff {l : List Item} : firstProblem l = none ↔ Clean l :=
  List.findSome?_eq_none_iff

@[simp]
theorem clean_nil : Clean [] :=
  List.forall_mem_nil _

@[simp]
theorem clean_append {l m : List Item} : Clean (l ++ m) ↔ Clean l ∧ Clean m :=
  List.forall_mem_append

@[simp]
theorem clean_flatMap {α : Type} {f : α → List Item} {l : List α} :
    Clean (l.flatMap f) ↔ ∀ x ∈ l, Clean (f x) :=
  forall_mem_flatMap

@[simp]
theorem clean_flatten {ls : List (List Item)} : Clean ls.flatten ↔ ∀ l ∈ ls, Clean l :=
  List.forall_mem_flatten

@[simp]
theorem clean_cons_value (v : Value) (l : List Item) : Clean (.value v :: l) ↔ Clean l :=
  List.forall_mem_cons.trans (and_iff_right rfl)

@[simp]
theorem clean_cons_name (name : String) (l : List Item) : Clean (.name name :: l) ↔ Clean l :=
  List.forall_mem_cons.trans (and_iff_right rfl)

@[simp]
theorem clean_names (names : List String) : Clean (names.map .name) :=
  List.forall_mem_map.2 fun _ _ => rfl

@[simp]
theorem clean_values (vs : List Value) : Clean (vs.map .value) :=
  List.forall_mem_map.2 fun _ _ => rfl

@[simp]
theorem clean_require {c : Prop} [Decidable c] {e : BuildError} : Clean (require c e) ↔ c := by
  by_cases h : c <;> simp [require, Clean, problem?, h]

end Item

@[simp]
theorem Table.clean_items (t : Option Table) : Item.Clean (t.elim [] items) := by
  cases t with
  | some t => exact Item.clean_names _
  | none => exact Item.clean_nil

@[simp]
theorem Column.clean_items (c : Column) : Item.Clean c.items := by
  have table : Item.Clean (c.table.elim [] Table.qualifierItems) := by
    cases c.table with
    | some t => exact Item.clean_names _
    | none => exact Item.clean_nil
  exact Item.clean_append.2 ⟨table, Item.clean_names [c.name]⟩

/-! ## Requirements and problems -/

section Entries

open Item

variable {i : q → List Item}

theorem Term.clean_items {t : Term q} :
    Clean (t.map i).items ↔ ∀ s ∈ t.nested, Clean (i s) := by
  cases t <;> simp [Term.map, items, nested]

theorem Term.clean_selectedItems {t : Term q} :
    Clean (t.map i).selectedItems ↔ ∀ s ∈ t.nested, Clean (i s) := by
  rw [selectedItems, clean_append, Term.clean_items]
  exact and_iff_left (clean_names _)

theorem Operand.clean_items {o : Operand q} :
    Clean (o.map i).items ↔ ∀ s ∈ o.nested, Clean (i s) := by
  cases o <;> simp [Operand.map, items, nested]

theorem TextMatch.fits_map {r : Type} (f : q → r) (e : TextMatch q) : (e.map f).Fits ↔ e.Fits := by
  simp [Fits, TextMatch.map]

theorem TextMatch.clean_items {e : TextMatch q} :
    Clean (e.map i).items ↔ e.Fits ∧ ∀ s ∈ e.nested, Clean (i s) := by
  have columns : Clean ((e.map i).columns.flatMap Term.items) ↔ ∀ s ∈ e.nested, Clean (i s) := by
    simp only [TextMatch.map, clean_flatMap, List.forall_mem_map, Term.clean_items, nested,
      forall_mem_flatMap]
  rw [items, clean_append, clean_append, clean_require, fits_map, columns]
  simp

theorem InList.clean_items {e : InList q} :
    Clean (e.map i).items ↔ !e.values.isEmpty → ∀ s ∈ e.nested, Clean (i s) := by
  unfold items InList.map
  by_cases h : e.values.isEmpty <;> simp [h, Term.clean_items, nested]

theorem Range.clean_items {e : Range q} :
    Clean (e.map i).items ↔ ∀ s ∈ e.nested, Clean (i s) := by
  simp [items, Range.map, Term.clean_items, nested]

theorem Test.clean_items {t : Test q} :
    Clean (t.map i).items ↔ ∀ s ∈ t.nested, Clean (i s) := by
  cases t with
  | comparison c =>
    simp only [Test.map, Comparison.map, items, clean_append, Term.clean_items, Operand.clean_items,
      nested, Comparison.nested, List.forall_mem_append]
  | literal sql => simp [Test.map, items, nested]

theorem Flag.clean_items {e : Flag q} :
    Clean (e.map i).items ↔ ∀ s ∈ e.nested, Clean (i s) := by
  simp [items, Flag.map, Term.clean_items, nested]

theorem Conditions.clean_entryItems {c : Conditions q} :
    Clean (c.map i).entryItems.flatten ↔
      (∀ e ∈ c.matching, e.Fits) ∧ ∀ s ∈ c.written, Clean (i s) := by
  rw [clean_flatten, written, forall_mem_nested]
  simp only [entryItems, Conditions.map, List.forall_mem_append, List.forall_mem_map,
    TextMatch.clean_items, InList.clean_items, Range.clean_items, Test.clean_items,
    Term.clean_items, Flag.clean_items, List.mem_filter, imp_and, forall_and, and_imp, and_assoc]

theorem Predicate.clean_items {p : Predicate q} :
    Clean (p.map i).items ↔ p.Meets fun s => Clean (i s) := by
  induction p using Predicate.induction with
  | node own groups ih =>
    rw [map_node, items_node, clean_append, Conditions.clean_entryItems, clean_flatMap,
      List.forall_mem_map, meets_node]
    exact and_congr_right fun _ => forall₂_congr fun g hg => ih g hg

theorem SelectOver.clean_items {f : SelectOver q} :
    Clean (f.map i).items ↔ f.Meets fun s => Clean (i s) := by
  have columns : Clean ((f.map i).columns.flatMap Term.selectedItems) ↔
      ∀ t ∈ f.columns, ∀ s ∈ t.nested, Clean (i s) := by
    simp only [SelectOver.map, clean_flatMap, List.forall_mem_map, Term.clean_selectedItems]
  have filter : Clean ((f.map i).filter.toList.flatMap Predicate.items) ↔
      ∀ p ∈ f.filter, p.Meets fun s => Clean (i s) := by
    simp only [SelectOver.map, Option.toList_map, clean_flatMap, List.forall_mem_map,
      Predicate.clean_items, Option.mem_toList, Option.mem_def]
  have order : Clean ((f.map i).orderBy.flatMap SortKey.items) ↔
      ∀ k ∈ f.orderBy, ∀ s ∈ k.nested, Clean (i s) := by
    simp only [SelectOver.map, clean_flatMap, List.forall_mem_map]
    exact forall₂_congr fun k _ => Term.clean_items
  rw [items, clean_append, clean_append, clean_append, clean_append, clean_require, columns, filter,
    order]
  constructor
  · rintro ⟨table, ⟨⟨columns, -⟩, filter⟩, order⟩
    exact ⟨table, columns, filter, order⟩
  · rintro ⟨table, columns, filter, order⟩
    exact ⟨table, ⟨⟨columns, Table.clean_items _⟩, filter⟩, order⟩

end Entries

theorem Select.clean_items (s : Select) : Item.Clean s.items ↔ s.WellFormed := by
  induction s using Select.induction with
  | of form ih =>
    rw [items_of, SelectOver.clean_items, wellFormed_of_iff]
    exact ⟨fun h => h.imp fun s hs => (ih s hs).1, fun h => h.imp fun s hs => (ih s hs).2⟩

theorem Predicate.clean_filterItems (p : Option (Predicate Select)) :
    Item.Clean (filterItems p) ↔ ∀ r ∈ p, r.Meets Select.WellFormed := by
  simp only [filterItems, Item.clean_flatMap, Predicate.clean_items, Select.clean_items,
    Option.mem_toList, Option.mem_def]

/-- The requirements are met exactly if there is no problem. -/
theorem Statement.clean_items (s : Statement) : Item.Clean s.items ↔ s.WellFormed := by
  cases s with
  | select s => exact s.clean_items
  | insert s =>
    have row : Item.Clean (.name s.table.name :: s.values.map (.name ·.column) ++
        s.values.map (.value ·.value)) := by
      refine Item.clean_append.2 ⟨(Item.clean_cons_name _ _).2 ?_, ?_⟩
      · exact List.forall_mem_map.2 fun _ _ => rfl
      · exact List.forall_mem_map.2 fun _ _ => rfl
    rw [items, Insert.items, Item.clean_append, Item.clean_require]
    exact and_iff_left row
  | update s =>
    have assignments : Item.Clean (s.table.elim [] Table.items ++
        s.values.flatMap Assignment.items) := by
      simp [Assignment.items]
    rw [items, Update.items, Item.clean_append, Item.clean_append, Item.clean_append,
      Item.clean_require, Item.clean_require, Predicate.clean_filterItems]
    exact and_congr_right fun _ => and_congr_right fun _ => and_iff_right assignments
  | delete s =>
    rw [items, Delete.items, Item.clean_append, Item.clean_append, Item.clean_require,
      Predicate.clean_filterItems]
    exact and_congr_right fun _ => and_iff_right (Table.clean_items _)
  | setOperation o =>
    rw [items, SetOperation.items, Item.clean_append, Item.clean_require, Item.clean_flatMap]
    exact and_congr_right fun _ => forall₂_congr fun s _ => s.clean_items

/-! ## Builds -/

/-- A statement builds exactly if it is well-formed; otherwise each build ends with the problem that
comes first in the order of writing, which does not depend on the style. -/
theorem buildWith_iff_wellFormed (s : Statement) (style : Style) :
    ((∃ b, Renderable.buildWith style s = .ok b) ↔ s.WellFormed) ∧
      ∀ e, Renderable.buildWith style s = .error e ↔ Item.firstProblem s.items = some e := by
  rw [Renderable.buildWith_of_emits s.emits_write, s.holds_script.outcome, ← s.clean_items,
    ← Item.firstProblem_eq_none_iff]
  cases Item.firstProblem s.items <;> simp [Except.map]

/-- The subject of an empty list is not written, so its missing table does not count; of the two
other problems the one of the full-text search comes first. -/
example :
    Renderable.buildWith {} (Statement.delete
      { table := some { name := "t" }
        filter := some (.node
          { someRow := [.of {}]
            among := [⟨.subquery (.of {}), none, []⟩]
            matching := [⟨[.column { name := "a" }], [], .natural⟩] } []) }) =
      .error (.matchArity 1 0) :=
  rfl

end SqlBuilder
