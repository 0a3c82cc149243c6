import SqlBuilder.Proofs.Clauses

/-!
# What a statement holds

The items of a statement are its names, its bind values and its problems, in the order of writing:
a statement holds what its parts hold, one part after the other.  A name is a part of a table where
it is introduced or qualifies a column, a column, or an alias.  A problem is an item where a
requirement is not met, whatever else is wrong before or after it.  `Script.Holds` says that a
script comes to an end at the first problem of a list of items, and that its names and values are
the items if there is none; the rules for it follow the composition of scripts.  Main statement: the
parameters of a build are the values of the items (`params_eq_bindings`).
-/

namespace SqlBuilder

variable {q : Type}

/-! ## Items -/

/-- A name, a bind value, or what is wrong with a part of a statement. -/
inductive Item where
  | name (s : String)
  | value (v : Value)
  | problem (e : BuildError)

namespace Item

/-- The name, if the item is one. -/
def name? : Item → Option String
  | name s => some s
  | _ => none

/-- The bind value, if the item is one. -/
def value? : Item → Option Value
  | value v => some v
  | _ => none

/-- The problem, if the item is one. -/
def problem? : Item → Option BuildError
  | problem e => some e
  | _ => none

/-- The names among some items. -/
def names (l : List Item) : List String :=
  l.filterMap name?

/-- The bind values among some items. -/
def values (l : List Item) : List Value :=
  l.filterMap value?

/-- The first problem among some items. -/
def firstProblem (l : List Item) : Option BuildError :=
  l.findSome? problem?

/-- The problem of a part that does not meet a requirement. -/
def require (c : Prop) [Decidable c] (e : BuildError) : List Item :=
  if c then [] else [problem e]

theorem firstProblem_append (l m : List Item) :
    firstProblem (l ++ m) = (firstProblem l).or (firstProblem m) :=
  List.findSome?_append

end Item

/-! ## The items of an entry -/

/-- The parts of a table where a statement introduces it. -/
def Table.items (t : Table) : List Item :=
  (t.schema.toList ++ [t.name] ++ t.aliasName.toList).map .name

/-- The parts of a table before a column: its alias, or else its schema and name. -/
def Table.qualifierItems (t : Table) : List Item :=
  (t.aliasName.elim (t.schema.toList ++ [t.name]) fun a => [a]).map .name

/-- A column has the parts of its table before its own name. -/
def Column.items (c : Column) : List Item :=
  c.table.elim [] Table.qualifierItems ++ [.name c.name]

/-- A term has its column, or what the nested SELECT holds. -/
def Term.items : Term (List Item) → List Item
  | column c => c.items
  | subquery l => l

/-- The items of a term in the list of a SELECT, where a column has its alias. -/
def Term.selectedItems (t : Term (List Item)) : List Item :=
  t.items ++ (t.column?.bind Column.aliasName).toList.map .name

/-- An operand has its value, its column, or what the nested SELECT holds. -/
def Operand.items : Operand (List Item) → List Item
  | value v => [.value v]
  | column c => c.items
  | subquery l => l

/-- There are as many values as columns, and at least one of each. -/
def TextMatch.Fits (e : TextMatch q) : Prop :=
  e.columns ≠ [] ∧ e.columns.length = e.values.length

instance (e : TextMatch q) : Decidable e.Fits :=
  inferInstanceAs (Decidable (_ ∧ _))

/-- A full-text search has its columns before its terms. -/
def TextMatch.items (e : TextMatch (List Item)) : List Item :=
  Item.require e.Fits (.matchArity e.columns.length e.values.length) ++
    e.columns.flatMap Term.items ++ e.values.map .value

/-- The subject of an empty list is not looked at. -/
def InList.items (e : InList (List Item)) : List Item :=
  if e.values.isEmpty then [] else e.subject.items ++ e.values.map .value

/-- A range has its subject before its bounds. -/
def Range.items (e : Range (List Item)) : List Item :=
  e.subject.items ++ [.value e.lower] ++ [.value e.upper]

/-- A comparison has its subject before its target; nothing is known of a literal. -/
def Test.items : Test (List Item) → List Item
  | comparison c => c.subject.items ++ c.target.items
  | literal _ => []

/-- A flag has its subject before its value. -/
def Flag.items (e : Flag (List Item)) : List Item :=
  e.subject.items ++ [.value e.value]

/-- The items of the entries of a node, kind after kind. -/
def Conditions.entryItems (c : Conditions (List Item)) : List (List Item) :=
  c.matching.map TextMatch.items ++
  c.among.map InList.items ++
  c.notAmong.map InList.items ++
  c.between.map Range.items ++
  c.notBetween.map Range.items ++
  c.tests.map Test.items ++
  c.isNull.map Term.items ++
  c.isNotNull.map Term.items ++
  c.flags.map Flag.items ++
  c.someRow ++
  c.noRow

namespace Predicate

mutual

/-- The items of a node, and then those of its sub-groups. -/
def items : Predicate (List Item) → List Item
  | node own groups => own.entryItems.flatten ++ groupItems groups

/-- The items of some sub-groups, one after the other. -/
def groupItems : List (Predicate (List Item)) → List Item
  | [] => []
  | p :: rest => items p ++ groupItems rest

end

theorem groupItems_eq (ps : List (Predicate (List Item))) : groupItems ps = ps.flatMap items := by
  induction ps with
  | nil => rfl
  | cons p ps ih => rw [groupItems, ih, List.flatMap_cons]

theorem items_node (own : Conditions (List Item)) (groups : List (Predicate (List Item))) :
    (node own groups).items = own.entryItems.flatten ++ groups.flatMap items := by
  rw [items, groupItems_eq]

end Predicate

/-! ## The items of a statement -/

/-- A sort key has the items of its term. -/
def SortKey.items (k : SortKey (List Item)) : List Item :=
  k.term.items

/-- A SELECT has its list before its table, then its predicate and its sort keys. -/
def SelectOver.items (s : SelectOver (List Item)) : List Item :=
  Item.require s.table.isSome (.validation (.missingTable "SELECT")) ++
    (s.columns.flatMap Term.selectedItems ++ s.table.elim [] Table.items ++
      s.filter.toList.flatMap Predicate.items ++ s.orderBy.flatMap SortKey.items)

/-- The items of a SELECT, with those of nested ones at their places. -/
def Select.items : Select → List Item :=
  fold SelectOver.items

theorem Select.items_of (s : SelectOver Select) : (of s).items = (s.map items).items :=
  fold_of _ s

/-- The items of the predicate of a statement, if there is one. -/
def Predicate.filterItems (p : Option (Predicate Select)) : List Item :=
  p.toList.flatMap fun p => (p.map Select.items).items

/-- The column of an assignment, and its value. -/
def Assignment.items (a : Assignment) : List Item :=
  [.name a.column, .value a.value]

/-- An INSERT has its table by name alone, and all columns before all values. -/
def Insert.items (s : Insert) : List Item :=
  Item.require (s.values ≠ []) (.validation .nothingToInsert) ++
    (.name s.table.name :: s.values.map (.name ·.column) ++ s.values.map (.value ·.value))

/-- An UPDATE has its table, its assignments and its predicate. -/
def Update.items (s : Update) : List Item :=
  Item.require s.table.isSome (.validation (.missingTable "UPDATE")) ++
    (Item.require (s.values ≠ []) (.validation .nothingToSet) ++
      (s.table.elim [] Table.items ++ s.values.flatMap Assignment.items ++
        Predicate.filterItems s.filter))

/-- A DELETE has its table and its predicate. -/
def Delete.items (s : Delete) : List Item :=
  Item.require s.table.isSome (.validation (.missingTable "DELETE")) ++
    (s.table.elim [] Table.items ++ Predicate.filterItems s.filter)

/-- A set operation has what its members have. -/
def SetOperation.items (o : SetOperation) : List Item :=
  Item.require (2 ≤ o.members.length) (.validation (.tooFewMembers o.operator.keyword)) ++
    o.members.flatMap Select.items

namespace Statement

/-- What a statement holds, in the order of writing. -/
def items : Statement → List Item
  | select s => s.items
  | insert s => s.items
  | update s => s.items
  | delete s => s.items
  | setOperation o => o.items

/-- The bind values of a statement, in the order of writing. -/
def bindings (s : Statement) : List Value :=
  Item.values s.items

/-- The table, schema, column and alias names of a statement, in the order of writing. -/
def names (s : Statement) : List String :=
  Item.names s.items

end Statement

/-! ## Scripts and their items -/

namespace Piece

/-- The item that a piece is written for; fixed text and literals have none. -/
def item? : Piece → Option Item
  | ident name => some (.name name)
  | param v => some (.value v)
  | _ => none

/-- The items of some pieces. -/
def items (ps : List Piece) : List Item :=
  ps.filterMap item?

/-- The name, if the piece is one. -/
def name? : Piece → Option String
  | ident name => some name
  | _ => none

/-- The names among some pieces. -/
def names (ps : List Piece) : List String :=
  ps.filterMap name?

theorem names_append (ps qs : List Piece) : names (ps ++ qs) = names ps ++ names qs :=
  List.filterMap_append

theorem items_append (ps qs : List Piece) : items (ps ++ qs) = items ps ++ items qs :=
  List.filterMap_append

theorem values_items (ps : List Piece) : Item.values (items ps) = values ps := by
  have same : (fun p : Piece => p.item?.bind Item.value?) = value? := by
    funext p
    cases p <;> rfl
  rw [Item.values, items, List.filterMap_filterMap, same, values]

theorem names_items (ps : List Piece) : Item.names (items ps) = names ps := by
  have same : (fun p : Piece => p.item?.bind Item.name?) = name? := by
    funext p
    cases p <;> rfl
  rw [Item.names, items, List.filterMap_filterMap, same, names]

end Piece

/-- The script ends at the first problem, or has the other items if there is none. -/
structure Script.Holds (s : Script) (l : List Item) : Prop where
  outcome : s.outcome = (Item.firstProblem l).elim (.ok ()) .error
  items : s.outcome = .ok () → Piece.items s.pieces = l

namespace Script

theorem Holds.values {s : Script} {l : List Item} (h : s.Holds l) (ok : s.outcome = .ok ()) :
    Piece.values s.pieces = Item.values l := by
  rw [← Piece.values_items, h.items ok]

theorem Holds.names {s : Script} {l : List Item} (h : s.Holds l) (ok : s.outcome = .ok ()) :
    Piece.names s.pieces = Item.names l := by
  rw [← Piece.names_items, h.items ok]

theorem holds_plain {s : Script} (ho : s.outcome = .ok ()) (hi : Piece.items s.pieces = []) :
    s.Holds [] :=
  ⟨ho, fun _ => hi⟩

theorem holds_empty : (∅ : Script).Holds [] :=
  holds_plain rfl rfl

theorem holds_text (t : String) : (text t).Holds [] :=
  holds_plain rfl rfl

theorem holds_ident (name : String) : (ident name).Holds [.name name] :=
  ⟨rfl, fun _ => rfl⟩

theorem holds_param (v : Value) : (param v).Holds [.value v] :=
  ⟨rfl, fun _ => rfl⟩

theorem holds_fail (e : BuildError) (l : List Item) : (fail e).Holds (.problem e :: l) :=
  ⟨rfl, fun h => nomatch h⟩

theorem Holds.append {a b : Script} {l m : List Item} (ha : a.Holds l) (hb : b.Holds m) :
    (a ++ b).Holds (l ++ m) := by
  have outcome := ha.outcome
  cases hl : Item.firstProblem l with
  | some e =>
    rw [hl] at outcome
    rw [append_of_error outcome]
    refine ⟨?_, fun h => ?_⟩
    · rw [Item.firstProblem_append, hl]
      exact outcome
    · rw [outcome] at h
      cases h
  | none =>
    rw [hl] at outcome
    rw [append_of_ok outcome]
    refine ⟨?_, fun h => ?_⟩
    · rw [Item.firstProblem_append, hl]
      exact hb.outcome
    · rw [Piece.items_append, ha.items outcome, hb.items h]

theorem Holds.opened {s : Script} {l : List Item} (t : String) (h : s.Holds l) :
    (text t ++ s).Holds l :=
  (holds_text t).append h

theorem Holds.append_plain {s t : Script} {l : List Item} (hs : s.Holds l) (ht : t.Holds []) :
    (s ++ t).Holds l := by
  have h := hs.append ht
  rwa [List.append_nil] at h

theorem Holds.closed {s : Script} {l : List Item} (h : s.Holds l) (t : String) :
    (s ++ text t).Holds l :=
  h.append_plain (holds_text t)

theorem Holds.link {a b : Script} {l m : List Item} (ha : a.Holds l) (t : String) (hb : b.Holds m) :
    (a ++ text t ++ b).Holds (l ++ m) :=
  (ha.closed t).append hb

theorem Holds.parenthesized {s : Script} {l : List Item} (h : s.Holds l) :
    s.parenthesized.Holds l :=
  (h.opened "(").closed ")"

/-- A guard that makes a script fail is a requirement. -/
theorem Holds.guard {c r : Prop} [Decidable c] [Decidable r] (hcr : c ↔ ¬ r) {s : Script}
    {l : List Item} (e : BuildError) (h : s.Holds l) :
    (if c then fail e else s).Holds (Item.require r e ++ l) := by
  by_cases hr : r
  · rw [if_neg fun hc => hcr.1 hc hr, Item.require, if_pos hr]
    exact h
  · rw [if_pos (hcr.2 hr), Item.require, if_neg hr]
    exact holds_fail e l

theorem holds_separated (separator : String) {ss : List Script} {ls : List (List Item)}
    (h : List.Forall₂ Holds ss ls) : (separated separator ss).Holds ls.flatten := by
  induction h with
  | nil => exact holds_empty
  | cons hs ht ih =>
    cases ht with
    | nil =>
      rw [List.flatten_singleton]
      exact hs
    | cons hb ht =>
      rw [separated_cons_cons, List.flatten_cons]
      exact hs.link separator ih

theorem holds_params (vs : List Value) : (params vs).Holds (vs.map .value) := by
  have h := holds_separated ", " (forall₂_map_of_mem fun v (_ : v ∈ vs) => holds_param v)
  rwa [← List.flatMap_def, ← List.map_eq_flatMap] at h

theorem holds_names (names : List String) :
    (separated ", " (names.map ident)).Holds (names.map .name) := by
  have h := holds_separated ", " (forall₂_map_of_mem fun n (_ : n ∈ names) => holds_ident n)
  rwa [← List.flatMap_def, ← List.map_eq_flatMap] at h

theorem holds_schema (t : Table) : (schema t).Holds (t.schema.toList.map .name) := by
  unfold schema
  cases t.schema with
  | some s => exact (holds_ident s).closed "."
  | none => exact holds_empty

theorem holds_table (t : Table) : (table t).Holds t.items := by
  rw [Table.items, List.map_append, List.map_append]
  refine ((holds_schema t).append (holds_ident t.name)).append ?_
  cases t.aliasName with
  | some a => exact (holds_ident a).opened " AS "
  | none => exact holds_empty

theorem holds_qualifier (t : Table) : (qualifier t).Holds t.qualifierItems := by
  unfold qualifier Table.qualifier Table.qualifierItems
  cases t.aliasName with
  | some a => exact (holds_ident a).closed "."
  | none =>
    rw [Option.elim_none, List.map_append]
    exact ((holds_schema t).append (holds_ident t.name)).closed "."

theorem holds_column (c : Column) : (column c).Holds c.items := by
  unfold column Column.items
  cases c.table with
  | some t => exact (holds_qualifier t).append (holds_ident c.name)
  | none => exact holds_ident c.name

end Script

/-! ## Entries -/

section Entries

variable {g : q → Script} {i : q → List Item}

theorem Term.holds_script {t : Term q} (h : ∀ s ∈ t.nested, (g s).Holds (i s)) :
    (t.map g).script.Holds (t.map i).items := by
  cases t with
  | column c => exact Script.holds_column c
  | subquery s => exact (h s (List.mem_singleton_self s)).parenthesized

theorem Operand.holds_script {o : Operand q} (h : ∀ s ∈ o.nested, (g s).Holds (i s)) :
    (o.map g).script.Holds (o.map i).items := by
  cases o with
  | value v => exact Script.holds_param v
  | column c => exact Script.holds_column c
  | subquery s => exact (h s (List.mem_singleton_self s)).parenthesized

/-- A list of parts with commas between them. -/
theorem Script.holds_list {α β γ : Type} {u : α → β} {v : α → γ} {script : β → Script}
    {items : γ → List Item} {l : List α} (h : ∀ x ∈ l, (script (u x)).Holds (items (v x))) :
    (separated ", " ((l.map u).map script)).Holds ((l.map v).flatMap items) := by
  rw [List.flatMap_def]
  exact holds_separated ", " (forall₂_map_map h)

theorem TextMatch.holds_script {e : TextMatch q} (h : ∀ s ∈ e.nested, (g s).Holds (i s)) :
    (e.map g).script.Holds (e.map i).items := by
  have columns : (Script.separated ", " ((e.map g).columns.map Term.script)).Holds
      ((e.map i).columns.flatMap Term.items) :=
    Script.holds_list fun t ht =>
      Term.holds_script fun s hs => h s (List.mem_flatMap.2 ⟨t, ht, hs⟩)
  have guard : ((e.map g).columns.isEmpty || (e.map g).columns.length != (e.map g).values.length) ↔
      ¬ (e.map i).Fits := by
    simp [Fits, TextMatch.map, Decidable.or_iff_not_imp_left]
  have lengths : (e.map g).columns.length = (e.map i).columns.length := by
    simp [TextMatch.map]
  rw [script, items, List.append_assoc, lengths]
  rw [lengths] at guard
  exact Script.Holds.guard guard _ ((((columns.opened _).link _ (Script.holds_params _)).closed
    _).closed _)

theorem InList.holds_script (negated : Bool) {e : InList q}
    (h : ∀ s ∈ e.nested, (g s).Holds (i s)) :
    ((e.map g).script negated).Holds (e.map i).items := by
  unfold script items InList.map
  by_cases hv : e.values.isEmpty
  · rw [if_pos hv, if_pos hv]
    exact Script.holds_text _
  · rw [if_neg hv, if_neg hv]
    exact (((Term.holds_script h).opened _).link _ (Script.holds_params _)).closed _

theorem Range.holds_script (negated : Bool) {e : Range q} (h : ∀ s ∈ e.nested, (g s).Holds (i s)) :
    ((e.map g).script negated).Holds (e.map i).items :=
  (((Term.holds_script h).link _ (Script.holds_param _)).link _
    (Script.holds_param _)).parenthesized

theorem Test.holds_script {t : Test q} (h : ∀ s ∈ t.nested, (g s).Holds (i s)) :
    (t.map g).script.Holds (t.map i).items := by
  cases t with
  | comparison c =>
    have subject := Term.holds_script fun s hs => h s (List.mem_append_left _ hs)
    have target := Operand.holds_script fun s hs => h s (List.mem_append_right _ hs)
    exact (((subject.closed _).closed _).link _ target).parenthesized
  | literal sql => exact (Script.holds_plain rfl rfl).parenthesized

theorem Term.holds_nullTestScript (negated : Bool) {t : Term q}
    (h : ∀ s ∈ t.nested, (g s).Holds (i s)) :
    ((t.map g).nullTestScript negated).Holds (t.map i).items :=
  ((Term.holds_script h).opened _).closed _

theorem Flag.holds_script {e : Flag q} (h : ∀ s ∈ e.nested, (g s).Holds (i s)) :
    (e.map g).script.Holds (e.map i).items :=
  (((Term.holds_script h).opened _).link _ (Script.holds_param _)).closed _

theorem Conditions.holds_clauseScripts {c : Conditions q} (h : ∀ s ∈ c.nested, (g s).Holds (i s)) :
    List.Forall₂ Script.Holds (c.map g).clauseScripts (c.map i).entryItems := by
  obtain ⟨matching, among, notAmong, between, notBetween, tests, isNull, isNotNull, flags, someRow,
    noRow⟩ := c.forall_mem_nested.1 h
  unfold Conditions.clauseScripts Conditions.entryItems Conditions.map
  refine List.rel_append (List.rel_append (List.rel_append (List.rel_append (List.rel_append
    (List.rel_append (List.rel_append (List.rel_append (List.rel_append (List.rel_append
      ?_ ?_) ?_) ?_) ?_) ?_) ?_) ?_) ?_) ?_) ?_
  · exact forall₂_map_map fun e he => TextMatch.holds_script (matching e he)
  · exact forall₂_map_map fun e he => InList.holds_script false (among e he)
  · exact forall₂_map_map fun e he => InList.holds_script true (notAmong e he)
  · exact forall₂_map_map fun e he => Range.holds_script false (between e he)
  · exact forall₂_map_map fun e he => Range.holds_script true (notBetween e he)
  · exact forall₂_map_map fun t ht => Test.holds_script (tests t ht)
  · exact forall₂_map_map fun t ht => Term.holds_nullTestScript false (isNull t ht)
  · exact forall₂_map_map fun t ht => Term.holds_nullTestScript true (isNotNull t ht)
  · exact forall₂_map_map fun e he => Flag.holds_script (flags e he)
  · rw [List.map_map]
    exact forall₂_map_of_mem fun s hs => (someRow s hs).parenthesized.opened _
  · rw [List.map_map]
    exact forall₂_map_of_mem fun s hs => (noRow s hs).parenthesized.opened _

/-! ## Predicates -/

namespace Predicate

/-- Sub-groups that are not written hold nothing. -/
theorem items_of_not_hasClauses {p : Predicate (List Item)} (h : p.hasClauses = false) :
    p.items = [] := by
  induction p using Predicate.induction with
  | node own groups ih =>
    obtain ⟨hown, hgroups⟩ := hasClauses_node_eq_false.1 h
    have entries : own.entryItems = [] := by
      simp only [Conditions.isEmpty, Bool.and_eq_true, List.isEmpty_iff] at hown
      simp [Conditions.entryItems, hown]
    rw [items_node, entries, List.flatten_nil, List.nil_append, List.flatMap_eq_nil_iff]
    exact fun g hg => ih g hg (hgroups g hg)

theorem holds_script {p : Predicate q} (h : ∀ s ∈ p.nested, (g s).Holds (i s)) :
    (p.map g).script.Holds (p.map i).items := by
  induction p using Predicate.induction with
  | node own groups ih =>
    obtain ⟨inOwn, inGroups⟩ := (forall_mem_nested own groups).1 h
    have below : List.Forall₂ Script.Holds (groupScripts (groups.map (map g)))
        (((groups.map (map i)).filter hasClauses).map items) := by
      rw [groupScripts_eq, filter_hasClauses_map, filter_hasClauses_map]
      refine forall₂_map_map fun p hp => ?_
      have mem := (List.mem_filter.1 hp).1
      exact (ih p mem (inGroups p mem)).parenthesized
    have all := Script.holds_separated own.conjunction.separator
      (List.rel_append (own.holds_clauseScripts inOwn) below)
    rw [List.flatten_append, ← List.flatMap_def,
      flatMap_filter_hasClauses fun _ => items_of_not_hasClauses] at all
    rw [map_node, map_node, script, items_node]
    exact all

theorem holds_whereScript {p : Option (Predicate q)}
    (h : ∀ r ∈ p, ∀ s ∈ r.nested, (g s).Holds (i s)) {s : Script} (hs : s.Holds []) :
    (whereScript (p.map (map g)) s).Holds ((p.map (map i)).toList.flatMap items) := by
  cases p with
  | none => exact hs
  | some r =>
    rw [Option.map_some, Option.map_some, Option.toList_some, List.flatMap_singleton, whereScript,
      Option.filter_some, hasClauses_map]
    by_cases hr : r.hasClauses
    · rw [if_pos hr]
      exact (holds_script (h r rfl)).opened _
    · rw [if_neg hr, items_of_not_hasClauses (by rwa [hasClauses_map, Bool.eq_false_iff])]
      exact hs

end Predicate

end Entries

/-! ## Statements -/

section Statements

variable {g : q → Script} {i : q → List Item}

/-- A statement that needs a table holds the problem that there is none, or what follows from it. -/
theorem Script.holds_withTable (kind : String) {o : Option Table} {k : Table → Script}
    {l : Option Table → List Item} (h : ∀ t, (k t).Holds (l (some t))) :
    (withTable kind o k).Holds
      (Item.require o.isSome (.validation (.missingTable kind)) ++ l o) := by
  cases o with
  | some t => exact h t
  | none => exact holds_fail _ _

theorem Term.holds_selectedScript {t : Term q} (h : ∀ s ∈ t.nested, (g s).Holds (i s)) :
    (t.map g).selectedScript.Holds (t.map i).selectedItems := by
  refine (Term.holds_script h).append ?_
  -- only a column has an alias, and columns stay as they are
  have column : (t.map g).column? = (t.map i).column? := by
    cases t <;> rfl
  rw [column]
  cases (t.map i).column?.bind Column.aliasName with
  | some a => exact (Script.holds_ident a).opened " AS "
  | none => exact Script.holds_empty

theorem holds_countScript (keyword : String) (n : Option UInt64) :
    (countScript keyword n).Holds [] := by
  cases n <;> exact Script.holds_plain rfl rfl

/-- A list of parts, or what stands in its place if it is empty. -/
theorem Script.holds_ite_isEmpty {α β γ : Type} {u : α → β} {v : α → γ} {items : γ → List Item}
    {l : List α} {s t : Script} (hs : s.Holds []) (ht : t.Holds ((l.map v).flatMap items)) :
    (if (l.map u).isEmpty then s else t).Holds ((l.map v).flatMap items) := by
  cases l with
  | nil => exact hs
  | cons x l => exact ht

theorem SelectOver.holds_script {f : SelectOver q} (h : ∀ s ∈ f.nested, (g s).Holds (i s)) :
    (f.map g).script.Holds (f.map i).items := by
  obtain ⟨inColumns, inFilter, inOrder⟩ := f.forall_mem_nested.1 h
  have columns := Script.holds_list fun t ht => Term.holds_selectedScript (inColumns t ht)
  have order : (Script.separated ", " ((f.orderBy.map (SortKey.map g)).map SortKey.script)).Holds
      ((f.orderBy.map (SortKey.map i)).flatMap SortKey.items) :=
    Script.holds_list fun k hk => ((Term.holds_script (inOrder k hk)).closed _).closed _
  have filter := Predicate.holds_whereScript inFilter Script.holds_empty
  have list := Script.holds_ite_isEmpty (u := Term.map g) (Script.holds_text "*") columns
  have sorted := Script.holds_ite_isEmpty (u := SortKey.map g) Script.holds_empty
    (order.opened " ORDER BY ")
  refine Script.holds_withTable "SELECT" (l := fun o => (f.map i).columns.flatMap
    Term.selectedItems ++ o.elim [] Table.items ++ _ ++ _) fun t => ?_
  have rows := ((list.opened "SELECT ").link " FROM " (Script.holds_table t)).append filter
  exact ((rows.append sorted).append_plain (holds_countScript _ _)).append_plain
    (holds_countScript _ _)

namespace Select

theorem holds_script (s : Select) : s.script.Holds s.items := by
  induction s using Select.induction with
  | of form ih =>
    rw [script_of, items_of]
    exact SelectOver.holds_script ih

end Select

theorem Predicate.holds_filter (p : Option (Predicate Select)) {s : Script} (hs : s.Holds []) :
    (whereScript (p.map (map Select.script)) s).Holds (filterItems p) := by
  have h := holds_whereScript (p := p) (fun _ _ u _ => u.holds_script) hs
  rwa [Option.toList_map, List.flatMap_map] at h

theorem Assignment.holds_script (a : Assignment) : a.script.Holds a.items :=
  (Script.holds_ident a.column).link " = " (Script.holds_param a.value)

theorem Insert.holds_script (s : Insert) : s.script.Holds s.items := by
  have columns := Script.holds_names (s.values.map Assignment.column)
  have values := Script.holds_params (s.values.map Assignment.value)
  rw [List.map_map, List.map_map] at columns
  rw [List.map_map] at values
  have target := ((Script.holds_ident s.table.name).opened "INSERT INTO ").link " (" columns
  refine Script.Holds.guard (by simp) _ (Script.Holds.append_plain ?_ ?_)
  · exact (target.link ") VALUES (" values).closed ")"
  · split_ifs
    · exact Script.holds_text _
    · exact Script.holds_empty

theorem Update.holds_script (s : Update) : s.script.Holds s.items := by
  refine Script.holds_withTable "UPDATE" (l := fun o => Item.require _ _ ++
    (o.elim [] Table.items ++ _ ++ _)) fun t => ?_
  have values := Script.holds_separated ", " (forall₂_map_of_mem fun a (_ : a ∈ s.values) =>
    a.holds_script)
  rw [← List.flatMap_def] at values
  refine Script.Holds.guard (by simp) _ ?_
  exact (((Script.holds_table t).opened "UPDATE ").link " SET " values).append
    (Predicate.holds_filter s.filter Script.holds_empty)

theorem Delete.holds_script (s : Delete) : s.script.Holds s.items := by
  refine Script.holds_withTable "DELETE" (l := fun o => o.elim [] Table.items ++ _) fun t => ?_
  refine ((Script.holds_table t).opened _).append (Predicate.holds_filter s.filter ?_)
  split_ifs
  · exact Script.holds_empty
  · exact Script.holds_text _

theorem SetOperation.holds_script (o : SetOperation) : o.script.Holds o.items := by
  have members := Script.holds_separated (" " ++ o.operator.keyword ++ " ")
    (forall₂_map_of_mem fun s (_ : s ∈ o.members) => s.holds_script.parenthesized)
  rw [← List.flatMap_def] at members
  exact Script.Holds.guard (by omega) _ members

theorem Statement.holds_script (s : Statement) : s.script.Holds s.items := by
  cases s with
  | select s => exact s.holds_script
  | insert s => exact s.holds_script
  | update s => exact s.holds_script
  | delete s => exact s.holds_script
  | setOperation o => exact o.holds_script

end Statements

/-- The parameters of a build are the bind values of the statement, in the order of writing: none is
lost, doubled or moved. -/
theorem params_eq_bindings {s : Statement} {style : Style} {b : Built}
    (h : Renderable.buildWith style s = .ok b) : b.params = s.bindings := by
  obtain ⟨outcome, rfl⟩ := (Renderable.buildWith_eq_ok_iff s.emits_write).1 h
  exact s.holds_script.values outcome

/-- A SELECT that compares a column with a number. -/
def selectNumber (n : Int64) : Select :=
  .of
    { table := some { name := "u" }
      filter := some (.node
        { tests := [.comparison ⟨.column { name := "x" }, .equal, .value (.int n)⟩] } []) }

/-- An UPDATE that binds the numbers from 1 to 13 in the order of writing, and 0 in the subject of
an empty list. -/
def updateNumbers : Statement :=
  .update
    { table := some { name := "t" }
      values := [⟨"a", .int 1⟩, ⟨"b", .int 2⟩]
      filter := some (.node
        { between := [⟨.subquery (selectNumber 6), .int 7, .int 8⟩]
          noRow := [.of
            { table := some { name := "v" }
              columns := [.subquery (selectNumber 11)]
              orderBy := [⟨.subquery (selectNumber 12), .ascending⟩] }]
          tests := [.comparison
            ⟨.subquery (selectNumber 9), .lessThan, .subquery (selectNumber 10)⟩]
          among := [⟨.subquery (selectNumber 0), none, []⟩,
            ⟨.column { name := "c" }, some "c", [.int 5]⟩]
          matching := [⟨[.subquery (selectNumber 3)], [.int 4], .boolean⟩] }
        [.empty, .node { flags := [⟨.column { name := "d" }, .int 13⟩] } []]) }

theorem params_eq_bindings_updateNumbers :
    ∃ b, Renderable.buildWith {} updateNumbers = .ok b ∧ b.params = updateNumbers.bindings ∧
      updateNumbers.bindings = [1, 2, 3, 4, 5, 6, 7, 8, 9, 10, 11, 12, 13].map Value.int := by
  have outcome : updateNumbers.script.outcome = .ok () := rfl
  have built : Renderable.buildWith {} updateNumbers = .ok _ :=
    (Renderable.buildWith_eq_ok_iff (Statement.emits_write _)).2 ⟨outcome, rfl⟩
  exact ⟨_, built, params_eq_bindings built, rfl⟩

end SqlBuilder
