import SqlBuilder.Query.Select

/-!
# Induction over nested SELECTs

`nested` lists the SELECTs that stand directly in an entry, in the order of writing.  A SELECT
standing in another is smaller than it (`SelectOver.sizeOf_lt_of_mem_nested`), which gives the two
induction principles that all later proofs use: `Predicate.induction`, with a hypothesis for each
sub-group, and `Select.induction`, with a hypothesis for each nested SELECT.
-/

namespace SqlBuilder

variable {q r : Type}

/-! ## The SELECTs in an entry -/

/-- The SELECT that a term is, if it is one. -/
def Term.nested : Term q → List q
  | column _ => []
  | subquery s => [s]

/-- The SELECT that an operand is, if it is one. -/
def Operand.nested : Operand q → List q
  | value _ => []
  | column _ => []
  | subquery s => [s]

/-- The SELECTs on both sides of a comparison. -/
def Comparison.nested (c : Comparison q) : List q :=
  c.subject.nested ++ c.target.nested

/-- The SELECTs in a comparison; literal text has none. -/
def Test.nested : Test q → List q
  | comparison c => c.nested
  | literal _ => []

/-- The SELECT that is the subject of a range. -/
def Range.nested (e : Range q) : List q :=
  e.subject.nested

/-- The SELECT that is the subject of a flag. -/
def Flag.nested (e : Flag q) : List q :=
  e.subject.nested

/-- The SELECTs among the columns of a full-text search. -/
def TextMatch.nested (e : TextMatch q) : List q :=
  e.columns.flatMap Term.nested

/-- The SELECT that is the subject of a list. -/
def InList.nested (e : InList q) : List q :=
  e.subject.nested

/-- The SELECTs in the entries of a node, kind after kind. -/
def Conditions.nested (c : Conditions q) : List q :=
  c.matching.flatMap TextMatch.nested ++
  c.among.flatMap InList.nested ++
  c.notAmong.flatMap InList.nested ++
  c.between.flatMap Range.nested ++
  c.notBetween.flatMap Range.nested ++
  c.tests.flatMap Test.nested ++
  c.isNull.flatMap Term.nested ++
  c.isNotNull.flatMap Term.nested ++
  c.flags.flatMap Flag.nested ++
  c.someRow ++
  c.noRow

namespace Predicate

mutual

/-- The SELECTs in the nodes of a predicate, each node before its sub-groups. -/
def nested : Predicate q → List q
  | node own groups => own.nested ++ nestedGroups groups

/-- The SELECTs in some sub-groups, one after the other. -/
def nestedGroups : List (Predicate q) → List q
  | [] => []
  | p :: rest => nested p ++ nestedGroups rest

end

theorem nestedGroups_eq (ps : List (Predicate q)) : nestedGroups ps = ps.flatMap nested := by
  induction ps with
  | nil => rfl
  | cons p ps ih => rw [nestedGroups, ih, List.flatMap_cons]

theorem nested_node (own : Conditions q) (groups : List (Predicate q)) :
    (node own groups).nested = own.nested ++ groups.flatMap nested := by
  rw [nested, nestedGroups_eq]

end Predicate

/-- The SELECT that a sort key goes by, if it does. -/
def SortKey.nested (k : SortKey q) : List q :=
  k.term.nested

/-- The SELECTs that stand directly in a SELECT: in its list, its predicate and its sort keys. -/
def SelectOver.nested (s : SelectOver q) : List q :=
  s.columns.flatMap Term.nested ++ s.filter.toList.flatMap Predicate.nested ++
    s.orderBy.flatMap SortKey.nested

section Forall

variable {P : q → Prop}

theorem forall_mem_flatMap {α : Type} {f : α → List q} {l : List α} :
    (∀ s ∈ l.flatMap f, P s) ↔ ∀ x ∈ l, ∀ s ∈ f x, P s := by
  simp only [List.mem_flatMap, forall_exists_index, and_imp]
  exact ⟨fun h x hx s hs => h s x hx hs, fun h s x hx hs => h x hx s hs⟩

/-- A property of the SELECTs in a node, by kinds of conditions. -/
theorem Conditions.forall_mem_nested (c : Conditions q) :
    (∀ s ∈ c.nested, P s) ↔
      (∀ e ∈ c.matching, ∀ s ∈ e.nested, P s) ∧ (∀ e ∈ c.among, ∀ s ∈ e.nested, P s) ∧
      (∀ e ∈ c.notAmong, ∀ s ∈ e.nested, P s) ∧ (∀ e ∈ c.between, ∀ s ∈ e.nested, P s) ∧
      (∀ e ∈ c.notBetween, ∀ s ∈ e.nested, P s) ∧ (∀ t ∈ c.tests, ∀ s ∈ t.nested, P s) ∧
      (∀ t ∈ c.isNull, ∀ s ∈ t.nested, P s) ∧ (∀ t ∈ c.isNotNull, ∀ s ∈ t.nested, P s) ∧
      (∀ e ∈ c.flags, ∀ s ∈ e.nested, P s) ∧ (∀ s ∈ c.someRow, P s) ∧ ∀ s ∈ c.noRow, P s := by
  simp only [nested, List.forall_mem_append, forall_mem_flatMap, and_assoc]

theorem Predicate.forall_mem_nested (own : Conditions q) (groups : List (Predicate q)) :
    (∀ s ∈ (node own groups).nested, P s) ↔
      (∀ s ∈ own.nested, P s) ∧ ∀ g ∈ groups, ∀ s ∈ g.nested, P s := by
  rw [nested_node, List.forall_mem_append, forall_mem_flatMap]

theorem SelectOver.forall_mem_nested (f : SelectOver q) :
    (∀ s ∈ f.nested, P s) ↔
      (∀ t ∈ f.columns, ∀ s ∈ t.nested, P s) ∧ (∀ p ∈ f.filter, ∀ s ∈ p.nested, P s) ∧
      ∀ k ∈ f.orderBy, ∀ s ∈ k.nested, P s := by
  simp only [nested, List.forall_mem_append, forall_mem_flatMap, Option.mem_toList, Option.mem_def,
    and_assoc]

end Forall

/-! ## Induction over sub-groups -/

namespace Predicate

theorem map_node (f : q → r) (own : Conditions q) (groups : List (Predicate q)) :
    (node own groups).map f = node (own.map f) (groups.map (map f)) := by
  rw [map, mapGroups_eq]

theorem hasClauses_node (own : Conditions q) (groups : List (Predicate q)) :
    (node own groups).hasClauses = (!own.isEmpty || groups.any hasClauses) := by
  rw [hasClauses, anyHasClauses_eq]

/-- A property of predicates holds if a node has it whenever its sub-groups do. -/
@[elab_as_elim]
theorem induction {P : Predicate q → Prop}
    (node : ∀ own groups, (∀ g ∈ groups, P g) → P (.node own groups)) (p : Predicate q) : P p := by
  match p with
  | .node own groups =>
    refine node own groups fun g hg => ?_
    have : sizeOf g < sizeOf groups := List.sizeOf_lt_of_mem hg
    exact induction node g
termination_by sizeOf p
decreasing_by
  rw [Predicate.node.sizeOf_spec]
  omega

@[simp]
theorem hasClauses_map (f : q → r) (p : Predicate q) : (p.map f).hasClauses = p.hasClauses := by
  induction p using Predicate.induction with
  | node own groups ih =>
    rw [map_node, hasClauses_node, hasClauses_node, Conditions.isEmpty_map, List.any_map]
    congr 1
    rw [Bool.eq_iff_iff, List.any_eq_true, List.any_eq_true]
    exact exists_congr fun g => and_congr_right fun hg => by rw [Function.comp_apply, ih g hg]

/-- What stands for nested SELECTs does not decide which sub-groups hold a clause. -/
theorem filter_hasClauses_map (f : q → r) (ps : List (Predicate q)) :
    (ps.map (map f)).filter hasClauses = (ps.filter hasClauses).map (map f) := by
  have same : (hasClauses ∘ map f : Predicate q → Bool) = hasClauses := funext (hasClauses_map f)
  rw [List.filter_map, same]

end Predicate

/-! ## Induction over nested SELECTs -/

section Size

variable [SizeOf q]

theorem sizeOf_lt_of_mem_flatMap {α : Type} [SizeOf α] {f : α → List q} {l : List α} {s : q}
    (hf : ∀ x, s ∈ f x → sizeOf s < sizeOf x) (h : s ∈ l.flatMap f) : sizeOf s < sizeOf l := by
  obtain ⟨x, hx, hs⟩ := List.mem_flatMap.1 h
  exact Nat.lt_trans (hf x hs) (List.sizeOf_lt_of_mem hx)

theorem Term.sizeOf_lt_of_mem_nested {t : Term q} {s : q} (h : s ∈ t.nested) :
    sizeOf s < sizeOf t := by
  cases t with
  | column c => cases h
  | subquery u =>
    obtain rfl := List.mem_singleton.1 h
    rw [Term.subquery.sizeOf_spec]
    omega

theorem Operand.sizeOf_lt_of_mem_nested {o : Operand q} {s : q} (h : s ∈ o.nested) :
    sizeOf s < sizeOf o := by
  cases o with
  | value v => cases h
  | column c => cases h
  | subquery u =>
    obtain rfl := List.mem_singleton.1 h
    rw [Operand.subquery.sizeOf_spec]
    omega

theorem Test.sizeOf_lt_of_mem_nested {t : Test q} {s : q} (h : s ∈ t.nested) :
    sizeOf s < sizeOf t := by
  cases t with
  | comparison c =>
    rw [Test.comparison.sizeOf_spec, Comparison.mk.sizeOf_spec]
    rcases List.mem_append.1 h with h | h
    · have := Term.sizeOf_lt_of_mem_nested h
      omega
    · have := Operand.sizeOf_lt_of_mem_nested h
      omega
  | literal sql => cases h

theorem Range.sizeOf_lt_of_mem_nested {e : Range q} {s : q} (h : s ∈ e.nested) :
    sizeOf s < sizeOf e := by
  have := Term.sizeOf_lt_of_mem_nested h
  rw [Range.mk.sizeOf_spec]
  omega

theorem Flag.sizeOf_lt_of_mem_nested {e : Flag q} {s : q} (h : s ∈ e.nested) :
    sizeOf s < sizeOf e := by
  have := Term.sizeOf_lt_of_mem_nested h
  rw [Flag.mk.sizeOf_spec]
  omega

theorem TextMatch.sizeOf_lt_of_mem_nested {e : TextMatch q} {s : q} (h : s ∈ e.nested) :
    sizeOf s < sizeOf e := by
  have := sizeOf_lt_of_mem_flatMap (fun _ => Term.sizeOf_lt_of_mem_nested) h
  rw [TextMatch.mk.sizeOf_spec]
  omega

theorem InList.sizeOf_lt_of_mem_nested {e : InList q} {s : q} (h : s ∈ e.nested) :
    sizeOf s < sizeOf e := by
  have := Term.sizeOf_lt_of_mem_nested h
  rw [InList.mk.sizeOf_spec]
  omega

theorem Conditions.sizeOf_lt_of_mem_nested {c : Conditions q} {s : q} (h : s ∈ c.nested) :
    sizeOf s < sizeOf c := by
  rw [Conditions.mk.sizeOf_spec]
  simp only [Conditions.nested, List.mem_append] at h
  rcases h with (((((((((h | h) | h) | h) | h) | h) | h) | h) | h) | h) | h
  · have := sizeOf_lt_of_mem_flatMap (fun _ => TextMatch.sizeOf_lt_of_mem_nested) h
    omega
  · have := sizeOf_lt_of_mem_flatMap (fun _ => InList.sizeOf_lt_of_mem_nested) h
    omega
  · have := sizeOf_lt_of_mem_flatMap (fun _ => InList.sizeOf_lt_of_mem_nested) h
    omega
  · have := sizeOf_lt_of_mem_flatMap (fun _ => Range.sizeOf_lt_of_mem_nested) h
    omega
  · have := sizeOf_lt_of_mem_flatMap (fun _ => Range.sizeOf_lt_of_mem_nested) h
    omega
  · have := sizeOf_lt_of_mem_flatMap (fun _ => Test.sizeOf_lt_of_mem_nested) h
    omega
  · have := sizeOf_lt_of_mem_flatMap (fun _ => Term.sizeOf_lt_of_mem_nested) h
    omega
  · have := sizeOf_lt_of_mem_flatMap (fun _ => Term.sizeOf_lt_of_mem_nested) h
    omega
  · have := sizeOf_lt_of_mem_flatMap (fun _ => Flag.sizeOf_lt_of_mem_nested) h
    omega
  · have := List.sizeOf_lt_of_mem h
    omega
  · have := List.sizeOf_lt_of_mem h
    omega

theorem Predicate.sizeOf_lt_of_mem_nested {p : Predicate q} {s : q} (h : s ∈ p.nested) :
    sizeOf s < sizeOf p := by
  induction p using Predicate.induction with
  | node own groups ih =>
    rw [Predicate.node.sizeOf_spec]
    rw [nested_node, List.mem_append] at h
    rcases h with h | h
    · have := Conditions.sizeOf_lt_of_mem_nested h
      omega
    · obtain ⟨g, hg, hs⟩ := List.mem_flatMap.1 h
      have := ih g hg hs
      have := List.sizeOf_lt_of_mem hg
      omega

theorem SortKey.sizeOf_lt_of_mem_nested {k : SortKey q} {s : q} (h : s ∈ k.nested) :
    sizeOf s < sizeOf k := by
  have := Term.sizeOf_lt_of_mem_nested h
  rw [SortKey.mk.sizeOf_spec]
  omega

theorem SelectOver.sizeOf_lt_of_mem_nested {f : SelectOver q} {s : q} (h : s ∈ f.nested) :
    sizeOf s < sizeOf f := by
  rw [SelectOver.mk.sizeOf_spec]
  simp only [SelectOver.nested, List.mem_append] at h
  rcases h with (h | h) | h
  · have := sizeOf_lt_of_mem_flatMap (fun _ => Term.sizeOf_lt_of_mem_nested) h
    omega
  · obtain ⟨p, hp, hs⟩ := List.mem_flatMap.1 h
    have := Predicate.sizeOf_lt_of_mem_nested hs
    rw [Option.mem_toList.1 hp, Option.some.sizeOf_spec]
    omega
  · have := sizeOf_lt_of_mem_flatMap (fun _ => SortKey.sizeOf_lt_of_mem_nested) h
    omega

end Size

/-- A property of SELECTs holds if a SELECT has it whenever those nested in it do. -/
@[elab_as_elim]
theorem Select.induction {P : Select → Prop}
    (of : ∀ form, (∀ t ∈ form.nested, P t) → P (.of form)) (s : Select) : P s := by
  match s with
  | .of form =>
    refine of form fun t ht => ?_
    have : sizeOf t < sizeOf form := SelectOver.sizeOf_lt_of_mem_nested ht
    exact Select.induction of t
termination_by sizeOf s
decreasing_by
  rw [Select.of.sizeOf_spec]
  omega

end SqlBuilder
