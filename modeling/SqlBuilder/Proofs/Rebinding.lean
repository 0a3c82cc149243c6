import SqlBuilder.Proofs.Occurrence
import SqlBuilder.Proofs.Resumption

/-!
# Tables of nodes do not reach the text

The table of a node decides what a bare name stands for when a condition is added, and nothing
after that.  `Predicate.unbound` takes the tables off all nodes, also those of the predicates of
nested SELECTs; it changes nothing that is written (`Predicate.write_unbound`), so predicates that
differ in tables of nodes alone are written alike.  Setting tables on a statement or on nodes of its
predicate changes no more than that (`Filtered.unbound_of_rebound`).  A statement that is given a
predicate is written as what stands before it, the predicate, and what stands after it, and the
predicate shows in its place only how many values are bound before.  Main statement:
`conditions_keep_meaning`.
-/

namespace SqlBuilder

variable {q r u : Type}

/-! ## Replacing nested SELECTs twice -/

section MapMap

variable (f : q → r) (g : r → u)

@[simp]
theorem Term.map_map (t : Term q) : (t.map f).map g = t.map (g ∘ f) := by
  cases t <;> rfl

@[simp]
theorem Operand.map_map (o : Operand q) : (o.map f).map g = o.map (g ∘ f) := by
  cases o <;> rfl

@[simp]
theorem Test.map_map (t : Test q) : (t.map f).map g = t.map (g ∘ f) := by
  cases t <;> simp [map, Comparison.map]

@[simp]
theorem Range.map_map (e : Range q) : (e.map f).map g = e.map (g ∘ f) := by
  simp [map]

@[simp]
theorem Flag.map_map (e : Flag q) : (e.map f).map g = e.map (g ∘ f) := by
  simp [map]

@[simp]
theorem TextMatch.map_map (e : TextMatch q) : (e.map f).map g = e.map (g ∘ f) := by
  simp [map]

@[simp]
theorem InList.map_map (e : InList q) : (e.map f).map g = e.map (g ∘ f) := by
  simp [map]

theorem Conditions.map_map (c : Conditions q) : (c.map f).map g = c.map (g ∘ f) := by
  simp [map]

theorem Predicate.map_map (p : Predicate q) : (p.map f).map g = p.map (g ∘ f) := by
  induction p using Predicate.induction with
  | node own groups ih =>
    rw [map_node, map_node, map_node, Conditions.map_map, List.map_map]
    congr 1
    exact List.map_congr_left ih

@[simp]
theorem SortKey.map_map (k : SortKey q) : (k.map f).map g = k.map (g ∘ f) := by
  simp [map]

theorem SelectOver.map_map (s : SelectOver q) : (s.map f).map g = s.map (g ∘ f) := by
  have filter : (Predicate.map g ∘ Predicate.map f : Predicate q → Predicate u) =
      Predicate.map (g ∘ f) := funext fun p => p.map_map f g
  simp [map, filter]

end MapMap

/-! ## Taking the tables off -/

namespace Predicate

mutual

/-- The predicate without the tables of its nodes. -/
def unbind : Predicate q → Predicate q
  | node own groups => node { own with table := none } (unbindGroups groups)

/-- Some sub-groups without the tables of their nodes. -/
def unbindGroups : List (Predicate q) → List (Predicate q)
  | [] => []
  | p :: rest => unbind p :: unbindGroups rest

end

theorem unbindGroups_eq (ps : List (Predicate q)) : unbindGroups ps = ps.map unbind := by
  induction ps with
  | nil => rfl
  | cons p ps ih => rw [unbindGroups, ih, List.map_cons]

theorem unbind_node (own : Conditions q) (groups : List (Predicate q)) :
    (node own groups).unbind = node { own with table := none } (groups.map unbind) := by
  rw [unbind, unbindGroups_eq]

@[simp]
theorem hasClauses_unbind (p : Predicate q) : p.unbind.hasClauses = p.hasClauses := by
  induction p using Predicate.induction with
  | node own groups ih =>
    rw [unbind_node, hasClauses_node, hasClauses_node, List.any_map]
    congr 1
    rw [Bool.eq_iff_iff, List.any_eq_true, List.any_eq_true]
    exact exists_congr fun g => and_congr_right fun hg => by rw [Function.comp_apply, ih g hg]

theorem map_unbind (f : q → r) (p : Predicate q) : p.unbind.map f = (p.map f).unbind := by
  induction p using Predicate.induction with
  | node own groups ih =>
    rw [unbind_node, map_node, map_node, unbind_node, List.map_map, List.map_map]
    congr 1
    exact List.map_congr_left ih

/-- No clause and no separator looks at the table of its node. -/
theorem write_unbind (p : Predicate (Writing Unit)) : p.unbind.write = p.write := by
  induction p using Predicate.induction with
  | node own groups ih =>
    have kept : (hasClauses ∘ unbind : Predicate (Writing Unit) → Bool) = hasClauses :=
      funext hasClauses_unbind
    have below : groupClauses (groups.map unbind) = groupClauses groups := by
      rw [groupClauses_eq, groupClauses_eq, List.filter_map, kept, List.map_map]
      refine List.map_congr_left fun g hg => ?_
      rw [Function.comp_apply, ih g (List.mem_filter.1 hg).1]
    rw [unbind_node, write, write, below]
    rfl

theorem writeWhere_unbind (p : Option (Predicate (Writing Unit))) :
    writeWhere (p.map unbind) = writeWhere p := by
  funext otherwise
  cases p with
  | none => rfl
  | some p =>
    rw [Option.map_some, writeWhere, writeWhere, Option.filter_some, Option.filter_some,
      hasClauses_unbind]
    by_cases h : p.hasClauses
    · rw [if_pos h, if_pos h]
      exact congrArg (Writing.text " WHERE " >>= fun _ => ·) p.write_unbind
    · rw [if_neg h, if_neg h]

end Predicate

/-- The SELECT without the tables of the nodes of its predicate. -/
def SelectOver.unbind (s : SelectOver q) : SelectOver q :=
  { s with filter := s.filter.map Predicate.unbind }

theorem SelectOver.map_unbind (f : q → r) (s : SelectOver q) :
    s.unbind.map f = (s.map f).unbind := by
  have filter : (Predicate.map f ∘ Predicate.unbind) = Predicate.unbind ∘ Predicate.map f :=
    funext (Predicate.map_unbind f)
  simp [map, unbind, filter]

theorem SelectOver.write_unbind (s : SelectOver (Writing Unit)) : s.unbind.write = s.write := by
  rw [write, write, unbind, Predicate.writeWhere_unbind]

/-- An action that writes what another writes is that action. -/
theorem Emits.unique {a b : Writing Unit} {s : Script} (ha : Emits a s) (hb : Emits b s) : a = b :=
  funext fun w => (ha w).trans (hb w).symm

namespace Select

/-- The SELECT without the tables of nodes, at any depth; the tables that SELECTs are over stay. -/
def unbound : Select → Select :=
  fold fun s => of s.unbind

theorem unbound_of (s : SelectOver Select) : (of s).unbound = of (s.map unbound).unbind :=
  fold_of _ s

theorem write_unbound (s : Select) : s.unbound.write = s.write := by
  induction s using Select.induction with
  | of form ih =>
    have nested : Emits (form.map (write ∘ unbound)).write (form.map script).script :=
      SelectOver.emits_write fun t ht => by
        rw [Function.comp_apply, ih t ht]
        exact t.emits_write
    rw [unbound_of, write_of, write_of, SelectOver.map_unbind, SelectOver.write_unbind,
      SelectOver.map_map]
    exact nested.unique (SelectOver.emits_write fun t _ => t.emits_write)

end Select

namespace Predicate

/-- The predicate without the tables of nodes, at any depth and in nested SELECTs. -/
def unbound (p : Predicate Select) : Predicate Select :=
  (p.map Select.unbound).unbind

theorem write_unbound (p : Predicate Select) :
    Renderable.write p.unbound = Renderable.write p := by
  change (p.unbound.map Select.write).write = (p.map Select.write).write
  have nested : (Select.write ∘ Select.unbound) = Select.write := funext Select.write_unbound
  rw [unbound, map_unbind, write_unbind, map_map, nested]

/-- Predicates that differ in tables of nodes alone are written alike. -/
theorem write_eq_of_unbound_eq {p p' : Predicate Select} (h : p.unbound = p'.unbound) :
    Renderable.write p = Renderable.write p' := by
  rw [← p.write_unbound, h, p'.write_unbound]

end Predicate

/-! ## Changing tables -/

namespace Predicate

theorem unbound_node (own : Conditions Select) (groups : List (Predicate Select)) :
    (node own groups).unbound =
      node { own.map Select.unbound with table := none } (groups.map unbound) := by
  rw [unbound, map_node, unbind_node, List.map_map]
  rfl

/-- The predicate with another table, or none, at the node that a path leads to. -/
def bindAt (path : List Nat) (t : Option Table) (p : Predicate Select) : Predicate Select :=
  p.modifyAt (modifyOwn fun o => { o with table := t }) path

theorem unbound_bindAt (path : List Nat) (t : Option Table) (p : Predicate Select) :
    (p.bindAt path t).unbound = p.unbound := by
  induction path generalizing p with
  | nil =>
    obtain ⟨own, groups⟩ := p
    change (node { own with table := t } groups).unbound = _
    rw [unbound_node, unbound_node]
    rfl
  | cons i path ih =>
    obtain ⟨own, groups⟩ := p
    change (node own (groups.modify i (bindAt path t))).unbound = _
    rw [unbound_node, unbound_node]
    congr 1
    refine List.ext_getElem? fun j => ?_
    rw [List.getElem?_map, List.getElem?_map, List.getElem?_modify]
    cases groups[j]? with
    | none => rfl
    | some g =>
      split_ifs
      · exact congrArg some (ih g)
      · rfl

end Predicate

/-- The call sets a table or moves the cursor, and adds nothing. -/
def Call.SetsTables : Call → Prop
  | setTable _ | enterGroup _ | leaveGroup => True
  | compare _ _ _ | literal _ | textMatch _ _ _ | inList _ _ _ | range _ _ _ _ | nullTest _ _
  | flag _ _ | rowTest _ _ | openGroup _ | setConjunction _ => False

namespace Cursor

theorem unbound_step {c c' : Cursor} {call : Call} (only : call.SetsTables)
    (step : c.Step call c') : c'.root.unbound = c.root.unbound := by
  cases step with
  | @add _ e he => cases call <;> first | exact only.elim | cases he
  | put | setConjunction | openGroup => exact only.elim
  | setTable t => exact Predicate.unbound_bindAt c.path (some t) c.root
  | enterGroup | leaveGroup => rfl

theorem unbound_run {calls : List Call} (only : ∀ call ∈ calls, call.SetsTables) (c : Cursor) :
    (c.run calls).1.root.unbound = c.root.unbound := by
  refine run_induction_of_mem (P := fun d => d.root.unbound = c.root.unbound) ?_ rfl
  exact fun hm hd step => (unbound_step (only _ hm) step).trans hd

end Cursor

namespace Filtered

/-- Statements whose table can be set, their predicate staying what it is. -/
class Rebindable (σ : Type) [Filtered σ] where
  setTable : Table → σ → σ
  filter_setTable (t : Table) (s : σ) : filter (setTable t s) = filter s

instance : Rebindable Select := ⟨Select.setTable, fun _ _ => rfl⟩
instance : Rebindable Update := ⟨Update.setTable, fun _ _ => rfl⟩
instance : Rebindable Delete := ⟨Delete.setTable, fun _ _ => rfl⟩

section Rebound

variable {σ : Type} [Filtered σ] [Rebindable σ]

/-- Statements that come from `s` by setting the table of the statement, of the root of its
predicate, or of nodes that a cursor moves to. -/
inductive Rebound (s : σ) : σ → Prop
  | start : Rebound s s
  | statement {u : σ} (h : Rebound s u) (t : Table) : Rebound s (Rebindable.setTable t u)
  | root {u : σ} (h : Rebound s u) {p : Predicate Select} (hp : filter u = some p) (t : Table) :
    Rebound s (setFilter (p.setTable t) u)
  | nodes {u : σ} (h : Rebound s u) {calls : List Call}
    (only : ∀ call ∈ calls, call.SetsTables) : Rebound s (edit u calls).1

theorem unbound_of_rebound [LawfulFiltered σ] {s u : σ} (h : Rebound s u) :
    (cursor u).root.unbound = (cursor s).root.unbound := by
  induction h with
  | start => rfl
  | @statement u _ t ih =>
    rw [← ih, cursor, cursor, Rebindable.filter_setTable]
  | @root u _ p hp t ih =>
    rw [← ih, cursor, cursor, LawfulFiltered.filter_setFilter, hp]
    exact p.unbound_bindAt [] (some t)
  | @nodes u _ calls only ih =>
    rw [← ih, cursor_edit]
    exact Cursor.unbound_run only (cursor u)

end Rebound

/-! ## Predicates in their places -/

/-- What a statement writes around its predicate does not depend on the predicate. -/
class LawfulParted (σ : Type) [Filtered σ] [Renderable σ] [Parted σ] : Prop where
  head_setFilter (p : Predicate Select) (s : σ) : Parted.head (setFilter p s) = Parted.head s
  otherwise_setFilter (p : Predicate Select) (s : σ) :
    Parted.otherwise (setFilter p s) = Parted.otherwise s
  tail_setFilter (p : Predicate Select) (s : σ) : Parted.tail (setFilter p s) = Parted.tail s

instance : LawfulParted Select := ⟨fun _ _ => rfl, fun _ _ => rfl, fun _ _ => rfl⟩
instance : LawfulParted Update := ⟨fun _ _ => rfl, fun _ _ => rfl, fun _ _ => rfl⟩
instance : LawfulParted Delete := ⟨fun _ _ => rfl, fun _ _ => rfl, fun _ _ => rfl⟩

end Filtered

/-- One built text after another, with the values of both. -/
instance : Append Built where
  append a b := ⟨a.sql ++ b.sql, a.params ++ b.params⟩

theorem Built.append_eq (a b : Built) : a ++ b = ⟨a.sql ++ b.sql, a.params ++ b.params⟩ := rfl

namespace Script

/-- What a script writes and binds where `n` values are bound before it. -/
def builtAfter (style : Style) (n : Nat) (s : Script) : Except BuildError Built :=
  s.outcome.map fun _ => ⟨Piece.print style n s.pieces, Piece.values s.pieces⟩

theorem builtAfter_append (style : Style) (n : Nat) (a b : Script) :
    (a ++ b).builtAfter style n = do
      let x ← a.builtAfter style n
      let y ← b.builtAfter style (n + x.params.length)
      return x ++ y := by
  unfold builtAfter
  rcases ha : a.outcome with e | ⟨⟩
  · rw [append_of_error ha, ha]
    rfl
  · rw [append_of_ok ha, Piece.print_append, Piece.values_append]
    cases b.outcome <;> rfl

theorem builtAfter_text_append (style : Style) (n : Nat) (t : String) (s : Script) :
    (text t ++ s).builtAfter style n =
      (s.builtAfter style n).map fun b => ⟨t ++ b.sql, b.params⟩ := by
  unfold builtAfter
  rw [append_of_ok rfl, Piece.print_append, text, Piece.print_singleton]
  cases s.outcome <;> rfl

end Script

namespace Piece

/-- What is written for a piece that is no bind value does not depend on the values before it. -/
theorem getElem?_printed_of_value?_eq_none (style : Style) {ps : List Piece} {i : Nat} {p : Piece}
    (hp : ps[i]? = some p) (fixed : p.value? = none) (n : Nat) :
    (printed style n ps)[i]? = some (p.write style 0) := by
  induction ps generalizing i n with
  | nil => cases hp
  | cons q qs ih =>
    cases i with
    | zero =>
      cases hp
      cases p <;> first | rfl | cases fixed
    | succ i => exact ih hp _

end Piece

/-- Where `n` values are bound before it, the script ends as it ends where none is, binds the same
values and writes the same tokens, but that its placeholders are numbered on from `n`. -/
structure Script.Shifts (style : Style) (n : Nat) (s : Script) : Prop where
  built : s.builtAfter style n = (s.builtAfter style 0).map fun b =>
    ⟨Piece.print style n s.pieces, b.params⟩
  tokens {i : Nat} {p : Piece} : s.pieces[i]? = some p → p.value? = none →
    (Piece.printed style n s.pieces)[i]? = (Piece.printed style 0 s.pieces)[i]?
  placeholders : Piece.placeholders style n s.pieces =
    (List.range' (n + 1) (Piece.values s.pieces).length).map
      (Writing.placeholder style.placeholder)

theorem Script.shifts (style : Style) (n : Nat) (s : Script) : s.Shifts style n where
  built := by
    unfold builtAfter
    cases s.outcome <;> rfl
  tokens hp fixed := by
    rw [Piece.getElem?_printed_of_value?_eq_none style hp fixed,
      Piece.getElem?_printed_of_value?_eq_none style hp fixed]
  placeholders := Piece.placeholders_eq style n s.pieces

namespace Filtered

section Carries

variable {σ : Type} [Filtered σ] [Renderable σ] [Parted σ]

/-- What stands in the place of the predicate. -/
def place (s : σ) : Script :=
  Predicate.whereScript ((filter s).map (Predicate.map Select.script)) (Parted.otherwise s)

theorem place_of_hasClauses {s : σ} {p : Predicate Select} (hp : filter s = some p)
    (h : p.hasClauses) : place s = .text " WHERE " ++ p.treeScript := by
  rw [place, hp, Option.map_some, Predicate.whereScript, Option.filter_some,
    Predicate.hasClauses_map, if_pos h]
  rfl

theorem place_of_not_hasClauses {s : σ} (h : ∀ p ∈ filter s, ¬ p.hasClauses) :
    place s = Parted.otherwise s := by
  rw [place]
  cases hp : filter s with
  | none => rfl
  | some p =>
    rw [Option.map_some, Predicate.whereScript, Option.filter_some, Predicate.hasClauses_map,
      if_neg (h p hp)]

/-- What is built of a statement: what stands before the predicate, its place, and what stands after
it. -/
theorem buildWith_eq (s : σ) (style : Style) : Renderable.buildWith style s = do
    let before ← (Parted.head s).builtAfter style 0
    let place ← (place s).builtAfter style before.params.length
    let after ← (Parted.tail s).builtAfter style (before.params.length + place.params.length)
    return before ++ place ++ after := by
  rw [Renderable.buildWith_of_emits (Parted.emits_write s), ← place, ← Script.builtAfter,
    Script.builtAfter_append, Script.builtAfter_append]
  simp only [bind_assoc, pure_bind, Built.append_eq, List.length_append, Nat.zero_add]

/-- What is built of a statement with a predicate that holds a clause. -/
theorem buildWith_of_hasClauses {s : σ} {p : Predicate Select} (hp : filter s = some p)
    (h : p.hasClauses) (style : Style) : Renderable.buildWith style s = do
      let before ← (Parted.head s).builtAfter style 0
      let tree ← p.treeScript.builtAfter style before.params.length
      let after ← (Parted.tail s).builtAfter style (before.params.length + tree.params.length)
      return before ++ ⟨" WHERE " ++ tree.sql, tree.params⟩ ++ after := by
  rw [buildWith_eq, place_of_hasClauses hp h]
  refine bind_congr fun before => ?_
  rw [Script.builtAfter_text_append]
  cases p.treeScript.builtAfter style before.params.length <;> rfl

end Carries

end Filtered

/-! ## Conditions keep their meaning -/

namespace Filtered

/-- What statements of a kind do with the conditions that they are given.  Setting tables, of the
statement or of nodes, changes no more of the predicate than tables, and nothing that is written.
The predicate that a statement is given is written in its place as it is written alone, but that it
counts its values on from those that are bound before it; without a clause it writes nothing. -/
structure KeepsMeaning (σ : Type) [Filtered σ] [Renderable σ] [Parted σ] [Rebindable σ] :
    Prop where
  unbound {s u : σ} : Rebound s u → (cursor u).root.unbound = (cursor s).root.unbound
  write {s u : σ} : Rebound s u →
    Renderable.write (cursor u).root = Renderable.write (cursor s).root
  carried (s : σ) {p : Predicate Select} : p.hasClauses → ∀ style : Style,
    Renderable.buildWith style (setFilter p s) = do
      let before ← (Parted.head s).builtAfter style 0
      let tree ← p.treeScript.builtAfter style before.params.length
      let after ← (Parted.tail s).builtAfter style (before.params.length + tree.params.length)
      return before ++ ⟨" WHERE " ++ tree.sql, tree.params⟩ ++ after
  absent (s : σ) {p : Predicate Select} : ¬ p.hasClauses → ∀ style : Style,
    Renderable.buildWith style (setFilter p s) = do
      let before ← (Parted.head s).builtAfter style 0
      let place ← (Parted.otherwise s).builtAfter style before.params.length
      let after ← (Parted.tail s).builtAfter style (before.params.length + place.params.length)
      return before ++ place ++ after

theorem keepsMeaning (σ : Type) [Filtered σ] [LawfulFiltered σ] [Renderable σ] [Parted σ]
    [LawfulParted σ] [Rebindable σ] : KeepsMeaning σ where
  unbound := unbound_of_rebound
  write h := Predicate.write_eq_of_unbound_eq (unbound_of_rebound h)
  carried s p h style := by
    have filter := LawfulFiltered.filter_setFilter p s
    rw [buildWith_of_hasClauses filter h, LawfulParted.head_setFilter, LawfulParted.tail_setFilter]
  absent s p h style := by
    have none : ∀ r ∈ filter (setFilter p s), ¬ r.hasClauses := by
      intro r hr
      rw [LawfulFiltered.filter_setFilter] at hr
      cases hr
      exact h
    rw [buildWith_eq, place_of_not_hasClauses none, LawfulParted.head_setFilter,
      LawfulParted.tail_setFilter, LawfulParted.otherwise_setFilter]

end Filtered

/-- The tables of nodes decide nothing that is written.  Predicates that differ in tables of nodes
alone, at whatever depth, do the same to every writer in every style, errors included; replacing the
table of any one node is such a difference, and so is every run of calls that set tables on a
statement and on its nodes.  Alone and in every statement over every table, a predicate is written
from one script, whose tokens, values and outcome are the same wherever it stands, the placeholders
being numbered on from the values before it. -/
theorem conditions_keep_meaning :
    (∀ p p' : Predicate Select, p.unbound = p'.unbound →
      Renderable.write p = Renderable.write p') ∧
    (∀ (p : Predicate Select) (path : List Nat) (t : Option Table),
      (p.bindAt path t).unbound = p.unbound ∧
      Renderable.write (p.bindAt path t) = Renderable.write p) ∧
    (∀ (p : Predicate Select) (style : Style),
      Renderable.buildWith style p = p.treeScript.builtAfter style 0 ∧
      ∀ n, p.treeScript.Shifts style n) ∧
    Filtered.KeepsMeaning Select ∧ Filtered.KeepsMeaning Update ∧ Filtered.KeepsMeaning Delete := by
  refine ⟨fun p p' h => Predicate.write_eq_of_unbound_eq h, fun p path t => ?_, fun p style => ?_,
    Filtered.keepsMeaning Select, Filtered.keepsMeaning Update, Filtered.keepsMeaning Delete⟩
  · have unbound := p.unbound_bindAt path t
    exact ⟨unbound, Predicate.write_eq_of_unbound_eq unbound⟩
  · exact ⟨Renderable.buildWith_of_emits p.emits_writeTree style,
      fun n => p.treeScript.shifts style n⟩

/-- Two nodes and the predicate of a nested SELECT, with a table each. -/
def boundConditions (outer inner nested : Option Table) : Predicate Select :=
  .node
    { table := outer
      tests := [.comparison ⟨.column { name := "a", table := some { name := "t" } }, .equal,
        .value (.int 1)⟩] }
    [.node
      { conjunction := .or
        table := inner
        someRow := [.of
          { table := some { name := "u" }
            filter := some (.node
              { table := nested
                flags := [⟨.column { name := "b" }, .bool true⟩] } []) }] } []]

/-- The conditions of an UPDATE without a table, which then gets one, as do both nodes; and the same
conditions alone and on an UPDATE that binds two values before them. -/
theorem conditions_keep_meaning_boundConditions :
    (boundConditions (some { name := "t" }) none (some { name := "u" })).unbound =
      (boundConditions none (some { name := "v" }) none).unbound ∧
    Renderable.write (boundConditions (some { name := "t" }) none (some { name := "u" })) =
      Renderable.write (boundConditions none (some { name := "v" }) none) ∧
    (let s : Update := { filter := some (boundConditions none none none) }
    let u := (Filtered.edit (s.setTable { name := "w" })
      [.setTable { name := "x" }, .enterGroup 0, .setTable { name := "y" }]).1
    Filtered.Rebound s u ∧ (Filtered.cursor u).root.own.table = some { name := "x" } ∧
      Renderable.write (Filtered.cursor u).root = Renderable.write (Filtered.cursor s).root) ∧
    Renderable.buildWith {} (boundConditions none none none) =
      .ok ⟨"(t.a = $1) AND (EXISTS (SELECT * FROM u WHERE (COALESCE(b, 0) = $2)))",
        [.int 1, .bool true]⟩ ∧
    Renderable.buildWith {} (Filtered.setFilter (boundConditions none none none)
        ({ table := some { name := "z" }, values := [⟨"c", .int 2⟩, ⟨"d", .int 3⟩] } : Update)) =
      .ok ⟨"UPDATE z SET c = $1, d = $2 WHERE " ++
        "(t.a = $3) AND (EXISTS (SELECT * FROM u WHERE (COALESCE(b, 0) = $4)))",
        [.int 2, .int 3, .int 1, .bool true]⟩ := by
  have h : (boundConditions (some { name := "t" }) none (some { name := "u" })).unbound =
      (boundConditions none (some { name := "v" }) none).unbound := rfl
  obtain ⟨write, -, alone, -, update, -⟩ := conditions_keep_meaning
  refine ⟨h, write _ _ h, ?_, ?_, ?_⟩
  · have only : ∀ call ∈ [Call.setTable { name := "x" }, .enterGroup 0, .setTable { name := "y" }],
        call.SetsTables := by
      simp [Call.SetsTables]
    have rebound := ((Filtered.Rebound.start
      (s := ({ filter := some (boundConditions none none none) } : Update))).statement
      { name := "w" }).nodes only
    exact ⟨rebound, rfl, update.write rebound⟩
  · rw [(alone _ {}).1]
    rfl
  · rw [update.carried _ (p := boundConditions none none none) rfl]
    rfl

end SqlBuilder
