import Mathlib.Data.List.Induction
import SqlBuilder.Proofs.Clauses
import SqlBuilder.Statement.Cursor

/-!
# Where a cursor stands

A cursor is a tree and a path, and the calls change both.  `Cursor.Step` says once what a call that
succeeds does; all later statements about calls go through it.  The invariant is that the path leads
to a node of the tree (`Cursor.IsPlaced`): one call keeps it (`isPlaced_step`), so a run does
(`isPlaced_run`).  Main statement: wherever a run over the predicate of a statement stops, the
cursor stands at a node of that predicate, and no step of its path leaves the list of sub-groups it
indexes (`Filtered.cursor_stands_in_tree`).
-/

namespace SqlBuilder

/-! ## Nodes by position -/

namespace Predicate

variable {q : Type}

theorem at?_cons (p : Predicate q) (i : Nat) (path : List Nat) :
    p.at? (i :: path) = (p.groups[i]?).bind fun g => g.at? path := by
  rw [at?]

theorem at?_append (p : Predicate q) (path rest : List Nat) :
    p.at? (path ++ rest) = (p.at? path).bind fun n => n.at? rest := by
  induction path generalizing p with
  | nil => rfl
  | cons i path ih =>
    rw [List.cons_append, at?_cons, at?_cons, Option.bind_assoc]
    exact Option.bind_congr fun g _ => ih g

theorem at?_concat (p : Predicate q) (path : List Nat) (i : Nat) :
    p.at? (path ++ [i]) = (p.at? path).bind fun n => n.groups[i]? := by
  rw [at?_append]
  refine Option.bind_congr fun n _ => ?_
  rw [at?_cons]
  exact Option.bind_fun_some _

/-- A path that leads to a node passes existing nodes only. -/
theorem exists_at?_of_append {p n : Predicate q} {path rest : List Nat}
    (h : p.at? (path ++ rest) = some n) : ∃ m, p.at? path = some m ∧ m.at? rest = some n := by
  rw [at?_append] at h
  exact Option.bind_eq_some_iff.1 h

theorem modifyAt_cons (f : Predicate q → Predicate q) (i : Nat) (path : List Nat)
    (p : Predicate q) :
    p.modifyAt f (i :: path) = .node p.own (p.groups.modify i (modifyAt f path)) := by
  cases p
  rfl

/-- The node at the path is the changed one. -/
theorem at?_modifyAt (f : Predicate q → Predicate q) (path : List Nat) (p : Predicate q) :
    (p.modifyAt f path).at? path = (p.at? path).map f := by
  induction path generalizing p with
  | nil => rfl
  | cons i path ih =>
    rw [modifyAt_cons, at?_cons, at?_cons, groups, List.getElem?_modify_eq]
    cases p.groups[i]? with
    | none => rfl
    | some g => exact ih g

/-- Nodes that do not stand below the changed one keep their conditions. -/
theorem map_own_at?_modifyAt (f : Predicate q → Predicate q) {path other : List Nat}
    (h : ¬ path <+: other) (p : Predicate q) :
    ((p.modifyAt f path).at? other).map own = (p.at? other).map own := by
  induction path generalizing p other with
  | nil => exact absurd (List.nil_prefix) h
  | cons i path ih =>
    rw [modifyAt_cons]
    cases other with
    | nil => rfl
    | cons j other =>
      rw [at?_cons, at?_cons, groups]
      by_cases hij : i = j
      · subst hij
        have below : ¬ path <+: other := fun hp => h (List.cons_prefix_cons.2 ⟨rfl, hp⟩)
        rw [List.getElem?_modify_eq]
        cases p.groups[i]? with
        | none => rfl
        | some g => exact ih below g
      · rw [List.getElem?_modify_ne _ _ hij]

/-- `n` stands `k` levels below `p`. -/
inductive IsBelow (p : Predicate q) : Nat → Predicate q → Prop
  | root : p.IsBelow 0 p
  | group {k : Nat} {n g : Predicate q} (h : p.IsBelow k n) (hg : g ∈ n.groups) :
    p.IsBelow (k + 1) g

theorem isBelow_of_at? (path : List Nat) {p n : Predicate q} (h : p.at? path = some n) :
    p.IsBelow path.length n := by
  induction path using List.reverseRecOn generalizing n with
  | nil =>
    cases h
    exact .root
  | append_singleton path i ih =>
    rw [at?_concat] at h
    obtain ⟨m, hm, hi⟩ := Option.bind_eq_some_iff.1 h
    rw [List.length_append, List.length_singleton]
    exact .group (ih hm) (List.mem_of_getElem? hi)

end Predicate

/-! ## What a call does -/

/-- The kinds of conditions. -/
inductive Kind where
  | matching
  | among
  | notAmong
  | between
  | notBetween
  | tests
  | isNull
  | isNotNull
  | flags
  | someRow
  | noRow
  deriving DecidableEq

/-- The entries of a kind. -/
def Kind.Entry (q : Type) : Kind → Type
  | matching => TextMatch q
  | among | notAmong => InList q
  | between | notBetween => Range q
  | tests => Test q
  | isNull | isNotNull => Term q
  | flags => Flag q
  | someRow | noRow => q

namespace Conditions

variable {q : Type}

/-- The entries of each kind. -/
def entries (o : Conditions q) : (k : Kind) → List (k.Entry q)
  | .matching => o.matching
  | .among => o.among
  | .notAmong => o.notAmong
  | .between => o.between
  | .notBetween => o.notBetween
  | .tests => o.tests
  | .isNull => o.isNull
  | .isNotNull => o.isNotNull
  | .flags => o.flags
  | .someRow => o.someRow
  | .noRow => o.noRow

/-- The conditions with other entries of one kind. -/
def setEntries (o : Conditions q) : (k : Kind) → List (k.Entry q) → Conditions q
  | .matching, es => { o with matching := es }
  | .among, es => { o with among := es }
  | .notAmong, es => { o with notAmong := es }
  | .between, es => { o with between := es }
  | .notBetween, es => { o with notBetween := es }
  | .tests, es => { o with tests := es }
  | .isNull, es => { o with isNull := es }
  | .isNotNull, es => { o with isNotNull := es }
  | .flags, es => { o with flags := es }
  | .someRow, es => { o with someRow := es }
  | .noRow, es => { o with noRow := es }

@[simp]
theorem entries_setEntries (o : Conditions q) (k : Kind) (es : List (k.Entry q)) :
    (o.setEntries k es).entries k = es := by
  cases k <;> rfl

theorem entries_setEntries_of_ne (o : Conditions q) {k k' : Kind} (h : k' ≠ k)
    (es : List (k.Entry q)) : (o.setEntries k es).entries k' = o.entries k' := by
  cases k <;> cases k' <;> first | rfl | exact absurd rfl h

@[simp]
theorem conjunction_setEntries (o : Conditions q) (k : Kind) (es : List (k.Entry q)) :
    (o.setEntries k es).conjunction = o.conjunction := by
  cases k <;> rfl

@[simp]
theorem table_setEntries (o : Conditions q) (k : Kind) (es : List (k.Entry q)) :
    (o.setEntries k es).table = o.table := by
  cases k <;> rfl

end Conditions

/-- The lists of values that a term must be among, or must not be among. -/
def Kind.membership (negated : Bool) : Kind :=
  if negated then .notAmong else .among

namespace Call

/-- The condition that a call adds after those of its kind.  A list of values is none, since it may
take the place of another. -/
def addition (c : Cursor) : Call → Option (Σ k : Kind, k.Entry Select)
  | compare operator column target =>
    some ⟨.tests, Test.comparison ⟨c.resolve column, operator, target⟩⟩
  | literal sql => some ⟨.tests, Test.literal sql⟩
  | textMatch mode columns values =>
    some ⟨.matching, TextMatch.mk (columns.map c.resolve) values mode⟩
  | range false column lower upper => some ⟨.between, Range.mk (c.resolve column) lower upper⟩
  | range true column lower upper => some ⟨.notBetween, Range.mk (c.resolve column) lower upper⟩
  | nullTest false column => some ⟨.isNull, c.resolve column⟩
  | nullTest true column => some ⟨.isNotNull, c.resolve column⟩
  | flag column value => some ⟨.flags, Flag.mk (c.resolve column) value⟩
  | rowTest false select => some ⟨.someRow, select⟩
  | rowTest true select => some ⟨.noRow, select⟩
  | inList .. | openGroup _ | enterGroup _ | leaveGroup | setConjunction _ | setTable _ => none

end Call

namespace Conditions

/-- The conditions with an entry more at the end of its kind. -/
def add {q : Type} (e : Σ k : Kind, k.Entry q) (o : Conditions q) : Conditions q :=
  o.setEntries e.1 (o.entries e.1 ++ [e.2])

/-- The conditions with a list of values put among those that are there. -/
def putList (negated : Bool) (subject : Term Select) (key : Option String) (values : List Value)
    (o : Conditions Select) : Conditions Select :=
  let put := InList.put Select.same subject key values
  if negated then { o with notAmong := put o.notAmong } else { o with among := put o.among }

end Conditions

namespace Cursor

/-- A call that succeeds adds a condition, puts a list of values, sets a field of the node, opens a
sub-group or moves. -/
inductive Step (c : Cursor) : Call → Cursor → Prop
  | add {call : Call} {e : Σ k : Kind, k.Entry Select} (h : call.addition c = some e) :
    Step c call (c.modifyOwn (Conditions.add e))
  | put (negated : Bool) (column : ColumnArg) (values : List Value) :
    Step c (.inList negated column values)
      (c.modifyOwn (Conditions.putList negated (c.resolve column) column.key values))
  | setConjunction {a : ConjunctionArg} {k : Conjunction} (h : a.resolve = .ok k) :
    Step c (.setConjunction a) (c.modifyOwn fun o => { o with conjunction := k })
  | setTable (t : Table) : Step c (.setTable t) (c.modifyOwn fun o => { o with table := some t })
  | openGroup {a : ConjunctionArg} {k : Conjunction} (h : a.resolve = .ok k) :
    Step c (.openGroup a) (c.openGroup k)
  | enterGroup {i : Nat} (h : i < c.node.groups.length) :
    Step c (.enterGroup i) { c with path := c.path ++ [i] }
  | leaveGroup : Step c .leaveGroup { c with path := c.path.dropLast }

theorem step_of_apply {c c' : Cursor} {call : Call} (h : c.apply call = .ok c') :
    c.Step call c' := by
  cases call with
  | compare operator column target =>
    cases h
    exact .add (show Call.addition c (.compare operator column target) = some _ from rfl)
  | literal sql =>
    cases h
    exact .add (show Call.addition c (.literal sql) = some _ from rfl)
  | textMatch mode columns values =>
    cases h
    exact .add (show Call.addition c (.textMatch mode columns values) = some _ from rfl)
  | flag column value =>
    cases h
    exact .add (show Call.addition c (.flag column value) = some _ from rfl)
  | range negated column lower upper =>
    cases h
    cases negated with
    | false => exact .add (show Call.addition c (.range false column lower upper) = some _ from rfl)
    | true => exact .add (show Call.addition c (.range true column lower upper) = some _ from rfl)
  | nullTest negated column =>
    cases h
    cases negated with
    | false => exact .add (show Call.addition c (.nullTest false column) = some _ from rfl)
    | true => exact .add (show Call.addition c (.nullTest true column) = some _ from rfl)
  | rowTest negated select =>
    cases h
    cases negated with
    | false => exact .add (show Call.addition c (.rowTest false select) = some _ from rfl)
    | true => exact .add (show Call.addition c (.rowTest true select) = some _ from rfl)
  | inList negated column values =>
    cases h
    exact .put negated column values
  | openGroup a =>
    cases hk : a.resolve with
    | error e => simp [apply, hk, Except.map] at h
    | ok k =>
      rw [apply, hk] at h
      cases h
      exact .openGroup hk
  | enterGroup i =>
    simp only [apply] at h
    split_ifs at h with hi
    cases h
    exact .enterGroup hi
  | leaveGroup =>
    cases h
    exact .leaveGroup
  | setConjunction a =>
    cases hk : a.resolve with
    | error e => simp [apply, hk, bind, Except.bind] at h
    | ok k =>
      rw [apply, hk] at h
      cases h
      exact .setConjunction hk
  | setTable t =>
    cases h
    exact .setTable t

/-- What each of some calls keeps if it succeeds holds wherever a run of them stops. -/
theorem run_induction_of_mem {P : Cursor → Prop} {calls : List Call}
    (step : ∀ {c c' : Cursor} {call : Call}, call ∈ calls → P c → c.Step call c' → P c')
    {c : Cursor} (h : P c) : P (c.run calls).1 := by
  induction calls generalizing c with
  | nil => exact h
  | cons call rest ih =>
    rw [run]
    cases hc : c.apply call with
    | error e => exact h
    | ok c' =>
      refine ih (fun hm => step (List.mem_cons_of_mem _ hm)) ?_
      exact step List.mem_cons_self h (step_of_apply hc)

/-- What every call that succeeds keeps holds wherever a run stops. -/
theorem run_induction {P : Cursor → Prop}
    (step : ∀ {c c' : Cursor} {call : Call}, P c → c.Step call c' → P c') (calls : List Call)
    {c : Cursor} (h : P c) : P (c.run calls).1 :=
  run_induction_of_mem (fun _ => step) h

/-! ## The path leads to a node -/

/-- The path leads to a node of the tree. -/
def IsPlaced (c : Cursor) : Prop :=
  ∃ n, c.root.at? c.path = some n

theorem node_eq {c : Cursor} {n : Predicate Select} (h : c.root.at? c.path = some n) :
    c.node = n := by
  rw [node, h, Option.getD_some]

theorem IsPlaced.at?_node {c : Cursor} (h : c.IsPlaced) : c.root.at? c.path = some c.node := by
  obtain ⟨n, hn⟩ := h
  rw [hn, node_eq hn]

theorem at?_modify {c : Cursor} (h : c.IsPlaced) (f : Predicate Select → Predicate Select) :
    (c.modify f).root.at? c.path = some (f c.node) := by
  show (c.root.modifyAt f c.path).at? c.path = some (f c.node)
  rw [Predicate.at?_modifyAt, h.at?_node, Option.map_some]

theorem IsPlaced.modify {c : Cursor} (h : c.IsPlaced) (f : Predicate Select → Predicate Select) :
    (c.modify f).IsPlaced :=
  ⟨_, at?_modify h f⟩

/-- The group that is opened stands where the cursor moves to. -/
theorem at?_openGroup {c : Cursor} (h : c.IsPlaced) (k : Conjunction) :
    (c.openGroup k).root.at? (c.openGroup k).path =
      some (.node { conjunction := k, table := c.table } []) := by
  have opened : (c.openGroup k).root.at? c.path =
      some (.node c.node.own
        (c.node.groups ++ [.node { conjunction := k, table := c.table } []])) :=
    at?_modify h _
  show (c.openGroup k).root.at? (c.path ++ [c.node.groups.length]) = _
  rw [Predicate.at?_concat, opened, Option.bind_some]
  exact List.getElem?_concat_length

theorem isPlaced_step {c c' : Cursor} {call : Call} (h : c.IsPlaced) (step : c.Step call c') :
    c'.IsPlaced := by
  cases step with
  | add | put | setConjunction | setTable => exact h.modify _
  | openGroup => exact ⟨_, at?_openGroup h _⟩
  | enterGroup hi =>
    refine ⟨c.node.groups.get ⟨_, hi⟩, ?_⟩
    rw [Predicate.at?_concat, h.at?_node, Option.bind_some]
    exact List.getElem?_eq_getElem hi
  | leaveGroup =>
    obtain ⟨n, hn⟩ := h
    rcases List.eq_nil_or_concat' c.path with hp | ⟨path, i, hp⟩
    · rw [hp] at hn
      exact ⟨n, by rwa [hp]⟩
    · rw [hp] at hn
      obtain ⟨m, hm, -⟩ := Predicate.exists_at?_of_append hn
      exact ⟨m, by rwa [hp, List.dropLast_concat]⟩

theorem isPlaced_run (calls : List Call) {c : Cursor} (h : c.IsPlaced) :
    (c.run calls).1.IsPlaced :=
  run_induction isPlaced_step calls h

/-- Entering a group fails exactly where there is none of that number. -/
theorem exists_enterGroup_iff (c : Cursor) (i : Nat) :
    (∃ c', c.apply (.enterGroup i) = .ok c') ↔ i < c.node.groups.length := by
  simp only [apply]
  split_ifs with hi
  · exact iff_of_true ⟨_, rfl⟩ hi
  · exact iff_of_false (by rintro ⟨c', h⟩; cases h) hi

end Cursor

/-! ## Statements -/

/-- Setting the predicate of a statement sets it, and changes nothing else. -/
class LawfulFiltered (σ : Type) [Filtered σ] : Prop where
  filter_setFilter (p : Predicate Select) (s : σ) :
    Filtered.filter (Filtered.setFilter p s) = some p
  table_setFilter (p : Predicate Select) (s : σ) :
    Filtered.table (Filtered.setFilter p s) = Filtered.table s
  setFilter_setFilter (p r : Predicate Select) (s : σ) :
    Filtered.setFilter p (Filtered.setFilter r s) = Filtered.setFilter p s

instance : LawfulFiltered Select :=
  ⟨fun _ _ => rfl, fun _ _ => rfl, fun _ _ _ => rfl⟩

instance : LawfulFiltered Update :=
  ⟨fun _ _ => rfl, fun _ _ => rfl, fun _ _ _ => rfl⟩

instance : LawfulFiltered Delete :=
  ⟨fun _ _ => rfl, fun _ _ => rfl, fun _ _ _ => rfl⟩

namespace Filtered

variable {σ : Type} [Filtered σ]

/-- Where some calls on the predicate of a statement lead. -/
def reach (s : σ) (calls : List Call) : Cursor :=
  ((cursor s).run calls).1

theorem isPlaced_reach (s : σ) (calls : List Call) : (reach s calls).IsPlaced :=
  Cursor.isPlaced_run calls ⟨_, rfl⟩

/-- Wherever some calls lead, the cursor stands at a node of the predicate that the statement has
then: each index of its path is one of a sub-group, its depth is that of the node, and the groups
that can be entered are those of the node. -/
theorem cursor_stands_in_tree [LawfulFiltered σ] (s : σ) (calls : List Call) :
    ∃ tree n, filter (edit s calls).1 = some tree ∧ (reach s calls).root = tree ∧
      tree.at? (reach s calls).path = some n ∧ (reach s calls).node = n ∧
      (∀ before i after, (reach s calls).path = before ++ i :: after →
        ∃ m, tree.at? before = some m ∧ i < m.groups.length) ∧
      tree.IsBelow (reach s calls).depth n ∧
      ∀ i, (∃ c, (reach s calls).apply (.enterGroup i) = .ok c) ↔ i < n.groups.length := by
  obtain ⟨n, hn⟩ := isPlaced_reach s calls
  have node := Cursor.node_eq hn
  refine ⟨(reach s calls).root, n, LawfulFiltered.filter_setFilter _ s, rfl, hn, node, ?_,
    Predicate.isBelow_of_at? _ hn, ?_⟩
  · intro before i after hp
    rw [hp] at hn
    obtain ⟨m, hm, rest⟩ := Predicate.exists_at?_of_append hn
    rw [Predicate.at?_cons] at rest
    obtain ⟨g, hg, -⟩ := Option.bind_eq_some_iff.1 rest
    exact ⟨m, hm, (List.getElem?_eq_some_iff.1 hg).1⟩
  · intro i
    rw [← node]
    exact Cursor.exists_enterGroup_iff _ i

/-- A DELETE with a predicate that was not built by calls: two groups, the second with one of its
own. -/
def deleteNested : Delete :=
  { table := some { name := "t" }
    filter := some (.node {} [.empty, .node { conjunction := .or } [.empty]]) }

theorem cursor_stands_in_tree_deleteNested :
    LawfulFiltered Delete ∧ ∃ tree n,
      filter (edit deleteNested [.enterGroup 1, .openGroup (.text "or"), .literal "x",
        .leaveGroup]).1 = some tree ∧
      tree.at? [1] = some n ∧ n.groups.length = 2 ∧ tree.IsBelow 1 n := by
  obtain ⟨tree, n, filter, root, found, -, -, depth, -⟩ :=
    cursor_stands_in_tree deleteNested
      [.enterGroup 1, .openGroup (.text "or"), .literal "x", .leaveGroup]
  refine ⟨inferInstance, tree, n, filter, found, ?_, depth⟩
  subst root
  cases found
  rfl

end Filtered

end SqlBuilder
