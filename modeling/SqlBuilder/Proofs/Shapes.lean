import SqlBuilder.Proofs.RoundTrip
import Mathlib.Logic.Relation

/-!
# Shapes of serial forms, and texts that differ in the order of members

A `Shape` says what is looked for at each place of a serial form, as far as the order of members
goes: where a record stands and which fields it has, where a bind value stands, and where neither
does.  `Edit` is one change that a record or a bind value at some place should not notice: its
members change places, a member that is no field comes in, or a field that may be missing is
written as null.  `Rearranged` is any number of such changes, made or undone.

`Legible` says of an outline that nothing is wrong with it but that some value is not the one that
was looked for.  A change leaves it as it is.
-/

namespace SqlBuilder

/-- What is looked for at a place of a text. -/
inductive Shape where
  /-- A null, a boolean, a number or a string. -/
  | scalar
  /-- A bind value. -/
  | value
  /-- A value that may be null instead. -/
  | option (s : Shape)
  /-- An array. -/
  | list (s : Shape)
  /-- One of some named cases, with what each carries. -/
  | cases (cs : List (String × Shape))
  /-- A record with its fields. -/
  | record (fields : List (String × Shape))
  /-- A value of a type. -/
  | type (t : SerialType)

namespace Shape

/-- Named cases that carry nothing. -/
def names (ns : List String) : Shape :=
  cases (ns.map fun n => (n, scalar))

/-- Whether an array or an object may stand here. -/
def Opens : Shape → Prop
  | value | list _ | record _ => True
  | _ => False

end Shape

open Shape in
/-- The shape of the serial form of a type. -/
def SerialType.shape : SerialType → Shape
  | value => .value
  | table => record [("name", scalar), ("alias", option scalar), ("schema", option scalar)]
  | column => record [("name", scalar), ("alias", option scalar), ("table", option (type table))]
  | conjunction =>
    names ([Conjunction.and, .or, .andNot, .orNot].map Conjunction.serialName)
  | operator =>
    names ([Operator.equal, .notEqual, .greaterThan, .greaterThanOrEqual, .lessThan,
      .lessThanOrEqual, .like, .notLike].map Operator.serialName)
  | matchMode => names ([MatchMode.natural, .boolean, .queryExpansion].map MatchMode.name)
  | direction => names ([Direction.ascending, .descending].map Direction.serialName)
  | setOperator =>
    names ([SetOperator.union, .unionAll, .intersect, .except].map SetOperator.serialName)
  | term => cases [("Column", type column), ("Subquery", type select)]
  | operand => cases [("Value", .value), ("Column", type column), ("Subquery", type select)]
  | comparison =>
    record [("subject", type term), ("operator", type operator), ("target", type operand)]
  | test => cases [("Structured", type comparison), ("Literal", scalar)]
  | range => record [("subject", type term), ("lower", .value), ("upper", .value)]
  | nullTest => record [("subject", type term)]
  | flag => record [("subject", type term), ("value", .value)]
  | textMatch =>
    record [("columns", list (type term)), ("values", list .value), ("mode", type matchMode)]
  | inList =>
    record [("subject", type term), ("key", option scalar), ("values", list .value)]
  | predicate =>
    record [("conjunction", type conjunction), ("comparisons", list (type test)),
      ("betweens", list (type range)), ("not_betweens", list (type range)),
      ("is_null", list (type nullTest)), ("is_not_null", list (type nullTest)),
      ("booleans", list (type flag)), ("matches", list (type textMatch)),
      ("ins", list (type inList)), ("not_ins", list (type inList)),
      ("exists", list (type select)), ("not_exists", list (type select)),
      ("sub_wheres", list (type predicate)), ("table", option (type table))]
  | sortKey => record [("column", type term), ("order", type direction)]
  | select =>
    record [("table", option (type table)), ("columns", list (type term)),
      ("where_tree", option (type predicate)), ("order_by", list (type sortKey)),
      ("limit", option scalar), ("offset", option scalar)]
  | assignment => record [("column", scalar), ("value", .value)]
  | insert =>
    record [("table", type table), ("values", list (type assignment)), ("ignore", scalar)]
  | update =>
    record [("table", option (type table)), ("values", list (type assignment)),
      ("where_tree", option (type predicate))]
  | delete =>
    record [("table", option (type table)), ("where_tree", option (type predicate)),
      ("allow_delete_all", scalar)]
  | setOperation => record [("operator", type setOperator), ("selects", list (type select))]

namespace Outline

/-! ## Members under a name -/

/-- The members of an object, with their keys. -/
abbrev Members := List (Option String × Outline)

/-- Whether an array or an object stands here. -/
def IsCompound : Outline → Prop
  | array .. | object .. => True
  | _ => False

/-- The values of the members with a name. -/
def under (name : String) (ms : Members) : List Outline :=
  ms.filterMap fun m => if m.1 = some name then some m.2 else none

section

variable {name k : String} {o : Outline} {ms ms' : Members}

@[simp]
theorem under_nil : under name [] = [] := rfl

@[simp]
theorem under_cons_self : under name ((some name, o) :: ms) = o :: under name ms := by
  simp [under]

theorem under_cons_of_ne (h : k ≠ name) : under name ((some k, o) :: ms) = under name ms := by
  simp [under, h]

theorem under_append : under name (ms ++ ms') = under name ms ++ under name ms' := by
  simp [under, List.filterMap_append]

theorem under_perm (h : ms.Perm ms') : (under name ms).Perm (under name ms') :=
  h.filterMap _

end

/-- Every key is a whole string, and a member that is none of some names can be passed over. -/
def Passable (names : List String) (ms : Members) : Prop :=
  ∀ m ∈ ms, ∃ k, m.1 = some k ∧ (k ∉ names → m.2.skip = .ok ())

section

variable {names : List String} {k : String} {o : Outline} {ms ms' : Members}

@[simp]
theorem passable_nil : Passable names [] := fun _ h => nomatch h

@[simp]
theorem not_passable_keyless : ¬Passable names ((none, o) :: ms) := fun h => by
  obtain ⟨k, key, -⟩ := h _ List.mem_cons_self
  cases key

theorem passable_cons :
    Passable names ((some k, o) :: ms) ↔ (k ∉ names → o.skip = .ok ()) ∧ Passable names ms := by
  simp [Passable]

theorem passable_append : Passable names (ms ++ ms') ↔ Passable names ms ∧ Passable names ms' := by
  simp only [Passable, List.mem_append, or_imp, forall_and]

theorem passable_perm (h : ms.Perm ms') : Passable names ms ↔ Passable names ms' := by
  simp only [Passable, h.mem_iff]

end

/-- Members change places, or a complete value under none of some names comes in. -/
inductive Shuffle (names : List String) : Members → Members → Prop where
  | places {ms ms' : Members} (h : ms.Perm ms') : Shuffle names ms ms'
  | unknown {k : String} {o : Outline} {ms : Members} (other : k ∉ names)
    (complete : o.skip = .ok ()) : Shuffle names ms ((some k, o) :: ms)

section

variable {names : List String} {ms ms' : Members}

theorem Shuffle.passable (h : Shuffle names ms ms') :
    Passable names ms ↔ Passable names ms' := by
  cases h with
  | places h => exact passable_perm h
  | unknown other complete =>
    rw [passable_cons]
    exact ⟨fun passable => ⟨fun _ => complete, passable⟩, fun h => h.2⟩

/-- The members under one of the names are the same, in some order. -/
theorem Shuffle.under (h : Shuffle names ms ms') {name : String} (mem : name ∈ names) :
    (Outline.under name ms).Perm (Outline.under name ms') := by
  cases h with
  | places h => exact under_perm h
  | unknown other complete =>
    rw [under_cons_of_ne (ne_of_mem_of_not_mem mem other).symm]

end

/-! ## Changes that are not noticed -/

/-- One change at some place of the outline of a form. -/
inductive Edit : Shape → Outline → Outline → Prop where
  /-- The members of a record. -/
  | members {fields : List (String × Shape)} {ms ms' : Members}
    (h : Shuffle (fields.map Prod.fst) ms ms') :
    Edit (.record fields) (.object ms .closed) (.object ms' .closed)
  /-- The kind and the content of a bind value. -/
  | tagged {ms ms' : Members} (h : Shuffle ["type", "value"] ms ms') :
    Edit .value (.object ms .closed) (.object ms' .closed)
  /-- A field that may be missing is missing, or null. -/
  | null {fields : List (String × Shape)} {name : String} {s : Shape} {ms : Members}
    (field : fields.lookup name = some (.option s)) (missing : under name ms = []) :
    Edit (.record fields) (.object ms .closed) (.object ((some name, .null) :: ms) .closed)
  /-- Inside a field of a record. -/
  | member {fields : List (String × Shape)} {name : String} {s : Shape} {pre post : Members}
    {o o' : Outline} (field : fields.lookup name = some s) (inner : Edit s o o') :
    Edit (.record fields) (.object (pre ++ (some name, o) :: post) .closed)
      (.object (pre ++ (some name, o') :: post) .closed)
  /-- Inside a field of a record that is written as an array. -/
  | element {fields : List (String × Shape)} {name : String} {s : Shape} {pre post : List Outline}
    {o o' : Outline} (field : fields[pre.length]? = some (name, s)) (inner : Edit s o o') :
    Edit (.record fields) (.array (pre ++ o :: post) .closed) (.array (pre ++ o' :: post) .closed)
  /-- Inside an item of a list. -/
  | item {s : Shape} {pre post : List Outline} {o o' : Outline} (inner : Edit s o o') :
    Edit (.list s) (.array (pre ++ o :: post) .closed) (.array (pre ++ o' :: post) .closed)
  /-- Inside what a case carries. -/
  | case {cs : List (String × Shape)} {name : String} {s : Shape} {o o' : Outline}
    (found : cs.lookup name = some s) (inner : Edit s o o') :
    Edit (.cases cs) (.object [(some name, o)] .closed) (.object [(some name, o')] .closed)
  /-- Inside a value that is not missing. -/
  | option {s : Shape} {o o' : Outline} (inner : Edit s o o') : Edit (.option s) o o'
  | type {t : SerialType} {o o' : Outline} (inner : Edit t.shape o o') : Edit (.type t) o o'

/-- Two outlines that changes lead from one to the other. -/
def Rearranged (s : Shape) : Outline → Outline → Prop :=
  Relation.EqvGen (Edit s)

/-- A field of a record has a name among those of the fields. -/
theorem mem_names_of_lookup {fields : List (String × Shape)} {name : String} {s : Shape}
    (field : fields.lookup name = some s) : name ∈ fields.map Prod.fst := by
  induction fields with
  | nil => cases field
  | cons f fields ih =>
    obtain ⟨k, s'⟩ := f
    rw [List.lookup_cons] at field
    by_cases same : name = k
    · exact same ▸ List.mem_cons_self
    · simp only [beq_eq_false_iff_ne.2 same] at field
      exact List.mem_cons_of_mem _ (ih field)

/-- How the values under the name of a field can change, given how one of them can. -/
inductive FieldEdit (inner : Shape → Outline → Outline → Prop) (s : Shape) :
    List Outline → List Outline → Prop where
  | places {os os' : List Outline} (h : os.Perm os') : FieldEdit inner s os os'
  | inside {pre post : List Outline} {o o' : Outline} (h : inner s o o') :
    FieldEdit inner s (pre ++ o :: post) (pre ++ o' :: post)
  | null {s' : Shape} (h : s = .option s') : FieldEdit inner s [] [.null]

section

variable {fields : List (String × Shape)} {name k : String} {s s' : Shape}
  {inner : Shape → Outline → Outline → Prop}

theorem fieldEdit_members {ms ms' : Members} (h : Shuffle (fields.map Prod.fst) ms ms')
    (field : fields.lookup k = some s) : FieldEdit inner s (under k ms) (under k ms') :=
  .places (h.under (mem_names_of_lookup field))

theorem fieldEdit_null {ms : Members} (field : fields.lookup name = some (.option s))
    (missing : under name ms = []) (field' : fields.lookup k = some s') :
    FieldEdit inner s' (under k ms) (under k ((some name, .null) :: ms)) := by
  by_cases same : name = k
  · subst same
    rw [under_cons_self, missing]
    exact .null (Option.some.inj (field'.symm.trans field))
  · rw [under_cons_of_ne same]
    exact .places (.refl _)

theorem fieldEdit_member {pre post : Members} {o o' : Outline} (field : fields.lookup name = some s)
    (h : inner s o o') (field' : fields.lookup k = some s') :
    FieldEdit inner s' (under k (pre ++ (some name, o) :: post))
      (under k (pre ++ (some name, o') :: post)) := by
  rw [under_append, under_append]
  by_cases same : name = k
  · subst same
    obtain rfl : s' = s := Option.some.inj (field'.symm.trans field)
    rw [under_cons_self, under_cons_self]
    exact .inside h
  · rw [under_cons_of_ne same, under_cons_of_ne same]
    exact .places (.refl _)

end

/-! ## Legible outlines -/

/-- Nothing that is read stands in the way of reading but a value that is not the one looked for,
with some depth left: no number out of range, no half of a surrogate pair, no item too many, nothing
nested too deep, and for a named case a string or an object with one member. -/
inductive Legible : Nat → Shape → Outline → Prop where
  | scalar {d : Nat} {o : Outline} (whole : o.unexpected = .mismatch) : Legible d .scalar o
  | misplaced {d : Nat} {s : Shape} {o : Outline} (opens : s.Opens) (flat : ¬o.IsCompound)
    (whole : o.unexpected = .mismatch) : Legible d s o
  | null {d : Nat} {s : Shape} : Legible d (.option s) .null
  | option {d : Nat} {s : Shape} {o : Outline} (h : Legible d s o) : Legible d (.option s) o
  | type {d : Nat} {t : SerialType} {o : Outline} (h : Legible d t.shape o) : Legible d (.type t) o
  | items {d : Nat} {s : Shape} {os : List Outline} (h : ∀ o ∈ os, Legible d s o) :
    Legible (d + 1) (.list s) (.array os .closed)
  | listObject {d : Nat} {s : Shape} {ms : Members} {ending : Ending} :
    Legible d (.list s) (.object ms ending)
  | name {d : Nat} {cs : List (String × Shape)} {k : String} :
    Legible d (.cases cs) (.string (some k))
  | case {d : Nat} {cs : List (String × Shape)} {k : String} {o : Outline}
    (h : ∀ s, cs.lookup k = some s → Legible d s o) :
    Legible (d + 1) (.cases cs) (.object [(some k, o)] .closed)
  | members {d : Nat} {fields : List (String × Shape)} {ms : Members}
    (passable : Passable (fields.map Prod.fst) ms)
    (h : ∀ k s, fields.lookup k = some s → ∀ o ∈ under k ms, Legible d s o) :
    Legible (d + 1) (.record fields) (.object ms .closed)
  | elements {d : Nat} {fields : List (String × Shape)} {os : List Outline}
    (short : os.length ≤ fields.length)
    (h : ∀ (i : Nat) o k s, os[i]? = some o → fields[i]? = some (k, s) → Legible d s o) :
    Legible (d + 1) (.record fields) (.array os .closed)
  | tagged {d : Nat} {ms : Members} (passable : Passable ["type", "value"] ms)
    (kind : ∀ o ∈ under "type" ms, Legible d (.names (Value.Kind.all.map Value.Kind.name)) o)
    (content : ∀ o ∈ under "value" ms, ∃ j, o.json d = .ok j) :
    Legible (d + 1) .value (.object ms .closed)
  | pair {d : Nat} {os : List Outline} (short : os.length ≤ 2)
    (kind : ∀ o, os[0]? = some o → o.unexpected = .mismatch)
    (content : ∀ o, os[1]? = some o → ∃ j, o.json d = .ok j) :
    Legible (d + 1) .value (.array os .closed)

section

variable {d : Nat} {s : Shape} {fields cs : List (String × Shape)}

theorem legible_type {t : SerialType} {o : Outline} :
    Legible d (.type t) o ↔ Legible d t.shape o := by
  refine ⟨fun h => ?_, .type⟩
  cases h with
  | misplaced opens => exact absurd opens id
  | type h => exact h

theorem legible_option {o : Outline} (compound : o.IsCompound) :
    Legible d (.option s) o ↔ Legible d s o := by
  refine ⟨fun h => ?_, .option⟩
  cases h with
  | misplaced opens => exact absurd opens id
  | null => exact absurd compound id
  | option h => exact h

theorem legible_list {os : List Outline} :
    Legible d (.list s) (.array os .closed) ↔ ∃ e, d = e + 1 ∧ ∀ o ∈ os, Legible e s o := by
  constructor
  · intro h
    cases h with
    | misplaced _ flat => exact absurd trivial flat
    | items h => exact ⟨_, rfl, h⟩
  · rintro ⟨e, rfl, h⟩
    exact .items h

theorem legible_case {k : String} {o : Outline} :
    Legible d (.cases cs) (.object [(some k, o)] .closed) ↔
      ∃ e, d = e + 1 ∧ ∀ s, cs.lookup k = some s → Legible e s o := by
  constructor
  · intro h
    cases h with
    | misplaced _ flat => exact absurd trivial flat
    | case h => exact ⟨_, rfl, h⟩
  · rintro ⟨e, rfl, h⟩
    exact .case h

theorem legible_members {ms : Members} :
    Legible d (.record fields) (.object ms .closed) ↔ ∃ e, d = e + 1 ∧
      Passable (fields.map Prod.fst) ms ∧
      ∀ k s, fields.lookup k = some s → ∀ o ∈ under k ms, Legible e s o := by
  constructor
  · intro h
    cases h with
    | misplaced _ flat => exact absurd trivial flat
    | members passable h => exact ⟨_, rfl, passable, h⟩
  · rintro ⟨e, rfl, passable, h⟩
    exact .members passable h

theorem legible_elements {os : List Outline} :
    Legible d (.record fields) (.array os .closed) ↔ ∃ e, d = e + 1 ∧
      os.length ≤ fields.length ∧
      ∀ (i : Nat) o k s, os[i]? = some o → fields[i]? = some (k, s) → Legible e s o := by
  constructor
  · intro h
    cases h with
    | misplaced _ flat => exact absurd trivial flat
    | elements short h => exact ⟨_, rfl, short, h⟩
  · rintro ⟨e, rfl, short, h⟩
    exact .elements short h

theorem legible_tagged {ms : Members} :
    Legible d .value (.object ms .closed) ↔ ∃ e, d = e + 1 ∧ Passable ["type", "value"] ms ∧
      (∀ o ∈ under "type" ms, Legible e (.names (Value.Kind.all.map Value.Kind.name)) o) ∧
      ∀ o ∈ under "value" ms, ∃ j, o.json e = .ok j := by
  constructor
  · intro h
    cases h with
    | misplaced _ flat => exact absurd trivial flat
    | tagged passable kind content => exact ⟨_, rfl, passable, kind, content⟩
  · rintro ⟨e, rfl, passable, kind, content⟩
    exact .tagged passable kind content

/-- Only arrays and objects are changed. -/
theorem Edit.isCompound {o o' : Outline} (h : Edit s o o') :
    o.IsCompound ∧ o'.IsCompound := by
  induction h with
  | option _ ih => exact ih
  | type _ ih => exact ih
  | _ => exact ⟨trivial, trivial⟩

theorem Legible.unexpected {o : Outline} (h : Legible d s o) : o.unexpected = .mismatch := by
  induction h with
  | scalar whole | misplaced _ _ whole => exact whole
  | option _ ih | type _ ih => exact ih
  | _ => rfl

end

/-- Records are equally legible if the values under each field change as those of a field can. -/
theorem legible_members_congr {fields : List (String × Shape)} {ms ms' : Members} {d : Nat}
    (passable : Passable (fields.map Prod.fst) ms ↔ Passable (fields.map Prod.fst) ms')
    (edited : ∀ k s, fields.lookup k = some s →
      FieldEdit (fun s o o' => ∀ e, Legible e s o ↔ Legible e s o') s (under k ms) (under k ms')) :
    Legible d (.record fields) (.object ms .closed) ↔
      Legible d (.record fields) (.object ms' .closed) := by
  have fieldwise : ∀ e, (∀ k s, fields.lookup k = some s → ∀ o ∈ under k ms, Legible e s o) ↔
      ∀ k s, fields.lookup k = some s → ∀ o ∈ under k ms', Legible e s o := by
    refine fun e => forall₂_congr fun k s => forall_congr' fun field => ?_
    generalize under k ms = os, under k ms' = os', edited k s field = edit
    cases edit with
    | places h => simp only [h.mem_iff]
    | inside h => simp only [List.mem_append, List.mem_cons, or_imp, forall_and, forall_eq, h]
    | null h => simp [h, Legible.null]
  simp only [legible_members, passable, fieldwise]

/-- Lists that differ in one place agree at the others. -/
theorem getElem?_middle_of_ne {pre post : List Outline} {o o' : Outline} {i : Nat}
    (h : i ≠ pre.length) : (pre ++ o :: post)[i]? = (pre ++ o' :: post)[i]? := by
  rw [List.getElem?_append, List.getElem?_append]
  split
  · rfl
  · obtain ⟨j, after⟩ : ∃ j, i - pre.length = j + 1 := ⟨i - pre.length - 1, by omega⟩
    rw [after]
    rfl

/-- A record in the form of an array stays legible if one of its items does. -/
theorem legible_elements_middle {fields : List (String × Shape)} {name : String} {s : Shape}
    {pre post : List Outline} {o o' : Outline} {d : Nat}
    (field : fields[pre.length]? = some (name, s)) (item : ∀ e, Legible e s o → Legible e s o')
    (h : Legible d (.record fields) (.array (pre ++ o :: post) .closed)) :
    Legible d (.record fields) (.array (pre ++ o' :: post) .closed) := by
  obtain ⟨e, rfl, short, items⟩ := legible_elements.1 h
  refine .elements (by simpa using short) fun i x k s' at_i field' => ?_
  by_cases here : i = pre.length
  · subst here
    obtain rfl : x = o' := by simpa using at_i.symm
    obtain ⟨rfl, rfl⟩ := Prod.mk.inj (Option.some.inj (field'.symm.trans field))
    exact item e (items _ o k s' (by simp) field')
  · exact items i x k s' ((getElem?_middle_of_ne here).trans at_i) field'

/-- A change leaves an outline as legible as it was. -/
theorem Edit.legible {s : Shape} {o o' : Outline} (h : Edit s o o') (d : Nat) :
    Legible d s o ↔ Legible d s o' := by
  induction h generalizing d with
  | members h =>
    exact legible_members_congr h.passable fun k s field => fieldEdit_members h field
  | tagged h =>
    have kind := h.under (List.mem_cons_self : "type" ∈ ["type", "value"])
    have content := h.under (by simp : "value" ∈ ["type", "value"])
    simp only [legible_tagged, h.passable, kind.mem_iff, content.mem_iff]
  | null field missing =>
    exact legible_members_congr (by simp [passable_cons, mem_names_of_lookup field])
      fun k s' field' => fieldEdit_null field missing field'
  | member field inner ih =>
    exact legible_members_congr
      (by simp [passable_append, passable_cons, mem_names_of_lookup field])
      fun k s' field' => fieldEdit_member field ih field'
  | element field inner ih =>
    exact ⟨legible_elements_middle field fun e => (ih e).1,
      legible_elements_middle field fun e => (ih e).2⟩
  | item inner ih =>
    simp only [legible_list, List.mem_append, List.mem_cons, or_imp, forall_and, forall_eq, ih]
  | case found inner ih =>
    simp only [legible_case, found, Option.some.injEq, forall_eq', ih]
  | option inner ih =>
    rw [legible_option inner.isCompound.1, legible_option inner.isCompound.2, ih]
  | type inner ih => rw [legible_type, legible_type, ih]

theorem Rearranged.legible {s : Shape} {o o' : Outline} (h : Rearranged s o o') (d : Nat) :
    Legible d s o ↔ Legible d s o' := by
  induction h with
  | rel _ _ edit => exact edit.legible d
  | refl => exact Iff.rfl
  | symm _ _ _ ih => exact ih.symm
  | trans _ _ _ _ _ ih ih' => exact ih.trans ih'

end Outline

end SqlBuilder
