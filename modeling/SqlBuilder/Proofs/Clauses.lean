import SqlBuilder.Proofs.Rendering

/-!
# Predicates without clauses

A predicate holds a clause if one of its nodes has an entry of some kind (`HoldsEntry`), and that is
what `hasClauses` computes.  A predicate without clauses writes nothing, and every other one writes
something, since each clause begins with fixed text (`Script.Visible`).  So the sub-groups without
clauses can be removed at all depths (`prune`): what is written for the predicate, and for a
statement that carries it, stays the same.
-/

namespace SqlBuilder

variable {q r : Type}

/-! ## Nodes and entries -/

/-- Some kind of condition has an entry. -/
def Conditions.HasEntry (c : Conditions q) : Prop :=
  c.matching ≠ [] ∨ c.among ≠ [] ∨ c.notAmong ≠ [] ∨ c.between ≠ [] ∨ c.notBetween ≠ [] ∨
    c.tests ≠ [] ∨ c.isNull ≠ [] ∨ c.isNotNull ≠ [] ∨ c.flags ≠ [] ∨ c.someRow ≠ [] ∨ c.noRow ≠ []

theorem Conditions.hasEntry_iff (c : Conditions q) : c.HasEntry ↔ c.isEmpty = false := by
  simp only [HasEntry, isEmpty, Bool.and_eq_false_iff, List.isEmpty_eq_false_iff, or_assoc]

namespace Predicate

/-- `n` stands in `p` at the end of some path; `p` itself does at the end of the empty path. -/
def HasNode (p n : Predicate q) : Prop :=
  ∃ path, p.at? path = some n

/-- Some node, at any depth, has an entry. -/
def HoldsEntry (p : Predicate q) : Prop :=
  ∃ n, p.HasNode n ∧ n.own.HasEntry

theorem hasNode_self (p : Predicate q) : p.HasNode p :=
  ⟨[], rfl⟩

theorem HasNode.of_mem_groups {p g n : Predicate q} (hg : g ∈ p.groups) (h : g.HasNode n) :
    p.HasNode n := by
  obtain ⟨path, hpath⟩ := h
  obtain ⟨i, hi⟩ := List.mem_iff_getElem?.1 hg
  refine ⟨i :: path, ?_⟩
  rw [at?, hi, Option.bind_some, hpath]

theorem hasNode_iff {p n : Predicate q} :
    p.HasNode n ↔ n = p ∨ ∃ g ∈ p.groups, g.HasNode n := by
  constructor
  · rintro ⟨path, h⟩
    cases path with
    | nil => exact Or.inl (Option.some.inj h).symm
    | cons i path =>
      obtain ⟨g, hg, hn⟩ := Option.bind_eq_some_iff.1 h
      exact Or.inr ⟨g, List.mem_of_getElem? hg, path, hn⟩
  · rintro (rfl | ⟨g, hg, h⟩)
    · exact n.hasNode_self
    · exact h.of_mem_groups hg

/-- A property of all nodes is one of the root and of the nodes of all sub-groups. -/
theorem forall_hasNode_node {P : Predicate q → Prop} (own : Conditions q)
    (groups : List (Predicate q)) :
    (∀ n, (node own groups).HasNode n → P n) ↔
      P (node own groups) ∧ ∀ g ∈ groups, ∀ n, g.HasNode n → P n := by
  constructor
  · intro h
    exact ⟨h _ (hasNode_self _), fun g hg n hn => h n (HasNode.of_mem_groups hg hn)⟩
  · rintro ⟨root, below⟩ n hn
    rcases hasNode_iff.1 hn with rfl | ⟨g, hg, hn⟩
    · exact root
    · exact below g hg n hn

theorem hasClauses_iff_holdsEntry (p : Predicate q) : p.hasClauses ↔ p.HoldsEntry := by
  induction p using Predicate.induction with
  | node own groups ih =>
    rw [hasClauses_node, Bool.or_eq_true, Bool.not_eq_true', ← Conditions.hasEntry_iff,
      List.any_eq_true]
    constructor
    · rintro (h | ⟨g, hg, h⟩)
      · exact ⟨_, hasNode_self _, h⟩
      · obtain ⟨n, hn, he⟩ := (ih g hg).1 h
        exact ⟨n, hn.of_mem_groups hg, he⟩
    · rintro ⟨n, hn, he⟩
      rcases hasNode_iff.1 hn with rfl | ⟨g, hg, hn⟩
      · exact Or.inl he
      · exact Or.inr ⟨g, hg, (ih g hg).2 ⟨n, hn, he⟩⟩

theorem hasClauses_eq_false_of_isEmpty {p : Predicate q} (h : p.isEmpty) :
    p.hasClauses = false := by
  obtain ⟨own, groups⟩ := p
  rw [isEmpty, Bool.and_eq_true, List.isEmpty_iff] at h
  obtain ⟨hown, rfl⟩ := h
  rw [hasClauses_node, hown]
  rfl

theorem hasClauses_node_eq_false {own : Conditions q} {groups : List (Predicate q)} :
    (node own groups).hasClauses = false ↔
      own.isEmpty ∧ ∀ g ∈ groups, g.hasClauses = false := by
  rw [hasClauses_node, Bool.or_eq_false_iff, Bool.not_eq_false', List.any_eq_false]
  simp only [Bool.not_eq_true]

/-- What is gathered from sub-groups does not change when those are left out that hold no clause and
give nothing. -/
theorem flatMap_filter_hasClauses {α : Type} {f : Predicate q → List α}
    (h : ∀ p : Predicate q, p.hasClauses = false → f p = []) (ps : List (Predicate q)) :
    (ps.filter hasClauses).flatMap f = ps.flatMap f := by
  induction ps with
  | nil => rfl
  | cons p ps ih =>
    rw [List.flatMap_cons, ← ih]
    by_cases hp : p.hasClauses
    · rw [List.filter_cons_of_pos hp, List.flatMap_cons]
    · rw [List.filter_cons_of_neg hp, h p (Bool.eq_false_iff.2 hp), List.nil_append]

end Predicate

/-! ## Removing sub-groups without clauses -/

namespace Predicate

mutual

/-- The predicate without its sub-groups that hold no clause, at all depths. -/
def prune : Predicate q → Predicate q
  | node own groups => node own (pruneGroups groups)

/-- The sub-groups that hold a clause, each pruned. -/
def pruneGroups : List (Predicate q) → List (Predicate q)
  | [] => []
  | p :: rest => if p.hasClauses then prune p :: pruneGroups rest else pruneGroups rest

end

theorem pruneGroups_eq (ps : List (Predicate q)) :
    pruneGroups ps = (ps.filter hasClauses).map prune := by
  induction ps with
  | nil => rfl
  | cons p ps ih => by_cases h : p.hasClauses <;> simp [pruneGroups, h, ih]

theorem prune_node (own : Conditions q) (groups : List (Predicate q)) :
    (node own groups).prune = node own ((groups.filter hasClauses).map prune) := by
  rw [prune, pruneGroups_eq]

@[simp]
theorem hasClauses_prune (p : Predicate q) : p.prune.hasClauses = p.hasClauses := by
  induction p using Predicate.induction with
  | node own groups ih =>
    rw [prune_node, hasClauses_node, hasClauses_node, List.any_map, List.any_filter]
    congr 1
    rw [Bool.eq_iff_iff, List.any_eq_true, List.any_eq_true]
    refine exists_congr fun g => and_congr_right fun hg => ?_
    rw [Function.comp_apply, ih g hg, Bool.and_self]

/-- Every sub-group that is left, at any depth, holds a clause. -/
theorem hasClauses_of_mem_groups_prune {p n : Predicate q} (hn : p.prune.HasNode n) :
    ∀ g ∈ n.groups, g.hasClauses := by
  induction p using Predicate.induction with
  | node own groups ih =>
    rw [prune_node, hasNode_iff] at hn
    rcases hn with rfl | ⟨g, hg, hn⟩
    · intro g hg
      obtain ⟨p, hp, rfl⟩ := List.mem_map.1 hg
      rw [hasClauses_prune]
      exact (List.mem_filter.1 hp).2
    · obtain ⟨p, hp, rfl⟩ := List.mem_map.1 hg
      exact ih p (List.mem_filter.1 hp).1 hn

theorem map_prune (f : q → r) (p : Predicate q) : p.prune.map f = (p.map f).prune := by
  induction p using Predicate.induction with
  | node own groups ih =>
    rw [prune_node, map_node, map_node, prune_node, filter_hasClauses_map, List.map_map,
      List.map_map]
    congr 1
    exact List.map_congr_left fun g hg => ih g (List.mem_filter.1 hg).1

theorem write_prune (p : Predicate (Writing Unit)) : p.prune.write = p.write := by
  induction p using Predicate.induction with
  | node own groups ih =>
    have kept : (groups.filter hasClauses).filter (hasClauses ∘ prune) =
        groups.filter hasClauses := by
      rw [List.filter_eq_self]
      intro g hg
      rw [Function.comp_apply, hasClauses_prune]
      exact (List.mem_filter.1 hg).2
    have same : groupClauses ((groups.filter hasClauses).map prune) = groupClauses groups := by
      rw [groupClauses_eq, groupClauses_eq, List.filter_map, kept, List.map_map]
      refine List.map_congr_left fun g hg => ?_
      rw [Function.comp_apply, ih g (List.mem_filter.1 hg).1]
    rw [prune_node, write, write, same]

/-! ## What a predicate without clauses writes -/

theorem write_of_not_hasClauses {p : Predicate (Writing Unit)} (h : p.hasClauses = false) :
    p.write = pure () := by
  obtain ⟨own, groups⟩ := p
  obtain ⟨hown, hgroups⟩ := hasClauses_node_eq_false.1 h
  have clauses : own.clauses = [] := by
    simp only [Conditions.isEmpty, Bool.and_eq_true, List.isEmpty_iff] at hown
    simp [Conditions.clauses, hown]
  have below : groupClauses groups = [] := by
    rw [groupClauses_eq, List.map_eq_nil_iff, List.filter_eq_nil_iff]
    intro g hg
    rw [hgroups g hg]
    exact Bool.false_ne_true
  rw [write, clauses, below]
  rfl

/-- Where a predicate holds no clause, there is no WHERE clause. -/
theorem writeWhere_of_not_hasClauses (f : q → Writing Unit) {p : Predicate q}
    (h : p.hasClauses = false) : writeWhere (some (p.map f)) = writeWhere none := by
  funext otherwise
  rw [writeWhere, Option.filter_some, hasClauses_map, h]
  rfl

theorem writeWhere_prune (f : q → Writing Unit) (p : Predicate q) :
    writeWhere (some (p.prune.map f)) = writeWhere (some (p.map f)) := by
  funext otherwise
  rw [map_prune, writeWhere, writeWhere, Option.filter_some, Option.filter_some, hasClauses_prune]
  by_cases h : (p.map f).hasClauses
  · rw [if_pos h, if_pos h]
    exact congrArg (Writing.text " WHERE " >>= fun _ => ·) (write_prune _)
  · rw [if_neg h, if_neg h]

end Predicate

/-! ## What a predicate with clauses writes -/

/-- If the script ends well, its text is not empty. -/
def Script.Visible (s : Script) : Prop :=
  s.outcome = .ok () → ∀ style n, Piece.print style n s.pieces ≠ ""

namespace Script

theorem visible_fail (e : BuildError) : (fail e).Visible :=
  fun h => nomatch h

theorem visible_text {t : String} (h : t ≠ "") : (text t).Visible := by
  intro _ style n
  rw [text, Piece.print_singleton]
  exact h

theorem Visible.append {a : Script} (h : a.Visible) (b : Script) : (a ++ b).Visible := by
  intro hab style n
  obtain ⟨ha, -⟩ := outcome_append_eq_ok.1 hab
  rw [append_of_ok ha, Piece.print_append, Ne, String.append_eq_empty_iff]
  exact fun empty => h ha style n empty.1

theorem Visible.ite {c : Prop} [Decidable c] {a b : Script} (ha : a.Visible) (hb : b.Visible) :
    (if c then a else b).Visible := by
  split_ifs
  · exact ha
  · exact hb

theorem visible_parenthesized (s : Script) : s.parenthesized.Visible :=
  ((visible_text (by decide)).append s).append _

theorem visible_separated (separator : String) {ss : List Script} (h : ∀ s ∈ ss, s.Visible)
    (hss : ss ≠ []) : (separated separator ss).Visible := by
  match ss with
  | [] => exact absurd rfl hss
  | [s] => exact h s (List.mem_singleton_self s)
  | s :: t :: ss => exact ((h s List.mem_cons_self).append _).append _

end Script

theorem TextMatch.visible_script (e : TextMatch Script) : e.script.Visible :=
  (Script.visible_fail _).ite
    (((((Script.visible_text (by decide)).append _).append _).append _).append _ |>.append _)

theorem InList.visible_script (negated : Bool) (e : InList Script) : (e.script negated).Visible :=
  (Script.visible_text (by cases negated <;> decide)).ite
    ((((Script.visible_text (by decide)).append _).append _).append _ |>.append _)

theorem Test.visible_script (t : Test Script) : t.script.Visible := by
  cases t with
  | comparison c => exact Script.visible_parenthesized _
  | literal sql => exact Script.visible_parenthesized _

theorem Term.visible_nullTestScript (negated : Bool) (t : Term Script) :
    (t.nullTestScript negated).Visible :=
  ((Script.visible_text (by decide)).append _).append _

theorem Flag.visible_script (e : Flag Script) : e.script.Visible :=
  ((((Script.visible_text (by decide)).append _).append _).append _).append _

theorem visible_rowTestScript (negated : Bool) (s : Script) : (rowTestScript negated s).Visible :=
  (Script.visible_text (by cases negated <;> decide)).append _

theorem Conditions.visible_clauseScripts (c : Conditions Script) :
    ∀ s ∈ c.clauseScripts, s.Visible := by
  unfold Conditions.clauseScripts
  simp only [List.forall_mem_append, List.forall_mem_map]
  refine ⟨⟨⟨⟨⟨⟨⟨⟨⟨⟨?_, ?_⟩, ?_⟩, ?_⟩, ?_⟩, ?_⟩, ?_⟩, ?_⟩, ?_⟩, ?_⟩, ?_⟩
  · exact fun e _ => e.visible_script
  · exact fun e _ => e.visible_script false
  · exact fun e _ => e.visible_script true
  · exact fun e _ => Script.visible_parenthesized _
  · exact fun e _ => Script.visible_parenthesized _
  · exact fun t _ => t.visible_script
  · exact fun t _ => t.visible_nullTestScript false
  · exact fun t _ => t.visible_nullTestScript true
  · exact fun e _ => e.visible_script
  · exact fun s _ => visible_rowTestScript false s
  · exact fun s _ => visible_rowTestScript true s

theorem Conditions.clauseScripts_eq_nil_iff (c : Conditions Script) :
    c.clauseScripts = [] ↔ c.isEmpty := by
  simp [clauseScripts, isEmpty, and_assoc]

namespace Predicate

theorem visible_script {p : Predicate Script} (h : p.hasClauses) : p.script.Visible := by
  obtain ⟨own, groups⟩ := p
  rw [script]
  refine Script.visible_separated _ (List.forall_mem_append.2 ⟨own.visible_clauseScripts, ?_⟩) ?_
  · rw [groupScripts_eq, List.forall_mem_map]
    exact fun g _ => Script.visible_parenthesized _
  · intro empty
    obtain ⟨hown, hgroups⟩ := List.append_eq_nil_iff.1 empty
    rw [Conditions.clauseScripts_eq_nil_iff] at hown
    rw [groupScripts_eq, List.map_eq_nil_iff, List.filter_eq_nil_iff] at hgroups
    have none : (node own groups).hasClauses = false :=
      hasClauses_node_eq_false.2 ⟨hown, fun g hg => Bool.eq_false_iff.2 (hgroups g hg)⟩
    rw [none] at h
    exact Bool.false_ne_true h

end Predicate

/-! ## Clause-free parts are invisible -/

/-- Statements of a kind are written alike whether sub-groups of their predicate that hold no clause
are there or not, and whether a predicate that holds no clause is there or not. -/
structure Filtered.IgnoresClauseFree (σ : Type) [Filtered σ] [Renderable σ]
    (p : Predicate Select) : Prop where
  prune : ∀ s : σ, Renderable.write (setFilter p.prune s) = Renderable.write (setFilter p s)
  absent : p.hasClauses = false → ∀ s : σ, filter s = none →
    Renderable.write (setFilter p s) = Renderable.write s

/-- Statements of a kind ignore clause-free parts if their WHERE clause is all that they write of
their predicate. -/
theorem Filtered.ignoresClauseFree_of_congr {σ : Type} [Filtered σ] [Renderable σ]
    (put : Option (Predicate Select) → σ → σ) (set : ∀ p s, setFilter p s = put (some p) s)
    (self : ∀ s, put (filter s) s = s)
    (congr : ∀ p q s, Predicate.writeWhere (p.map (Predicate.map Select.write)) =
      Predicate.writeWhere (q.map (Predicate.map Select.write)) →
        Renderable.write (put p s) = Renderable.write (put q s))
    (p : Predicate Select) : IgnoresClauseFree σ p where
  prune s := by
    rw [set, set]
    exact congr _ _ s (Predicate.writeWhere_prune Select.write p)
  absent h s none := by
    have same := congr (some p) (filter s) s
    rw [self, none] at same
    rw [set]
    exact same (Predicate.writeWhere_of_not_hasClauses Select.write h)

theorem Select.ignoresClauseFree (p : Predicate Select) : Filtered.IgnoresClauseFree Select p := by
  refine Filtered.ignoresClauseFree_of_congr (fun p s => of { s.form with filter := p })
    (fun _ _ => rfl) (fun ⟨_⟩ => rfl) ?_ p
  intro p q s same
  change (of _).write = (of _).write
  rw [write_of, write_of, SelectOver.map, SelectOver.map, SelectOver.write, SelectOver.write, same]

theorem Update.ignoresClauseFree (p : Predicate Select) : Filtered.IgnoresClauseFree Update p := by
  refine Filtered.ignoresClauseFree_of_congr (fun p s => { s with filter := p })
    (fun _ _ => rfl) (fun _ => rfl) ?_ p
  intro p q s same
  change write _ = write _
  simp only [write, same]

theorem Delete.ignoresClauseFree (p : Predicate Select) : Filtered.IgnoresClauseFree Delete p := by
  refine Filtered.ignoresClauseFree_of_congr (fun p s => { s with filter := p })
    (fun _ _ => rfl) (fun _ => rfl) ?_ p
  intro p q s same
  change write _ = write _
  simp only [write, same]

namespace Predicate

/-- The clause-free parts of a predicate, and no others, are invisible.  A predicate holds a clause
if a node at some depth has an entry; otherwise it writes nothing, and no statement shows whether it
has the predicate.  If it holds a clause, it writes some text.  Pruning leaves only sub-groups that
hold a clause and changes nothing that is written. -/
theorem clauses_alone_are_written (p : Predicate Select) :
    (p.hasClauses ↔ ∃ n, p.HasNode n ∧ n.own.HasEntry) ∧
      (p.isEmpty → p.hasClauses = false) ∧
      (p.hasClauses = false → ∀ w, (Renderable.write p).run.run w = (.ok (), w)) ∧
      (p.hasClauses → ∀ w w', (Renderable.write p).run.run w = (.ok (), w') →
        ∃ t, t ≠ "" ∧ w'.sql = w.sql ++ t) ∧
      (∀ n, p.prune.HasNode n → ∀ g ∈ n.groups, g.hasClauses) ∧
      Renderable.write p.prune = Renderable.write p ∧
      Filtered.IgnoresClauseFree Select p ∧ Filtered.IgnoresClauseFree Update p ∧
      Filtered.IgnoresClauseFree Delete p := by
  refine ⟨p.hasClauses_iff_holdsEntry, hasClauses_eq_false_of_isEmpty, ?_, ?_,
    fun n => hasClauses_of_mem_groups_prune, ?_, Select.ignoresClauseFree p,
    Update.ignoresClauseFree p, Delete.ignoresClauseFree p⟩
  · intro h w
    change (p.map Select.write).write.run.run w = _
    rw [write_of_not_hasClauses (by rwa [hasClauses_map])]
    rfl
  · intro h w w' hw
    obtain ⟨outcome, rfl⟩ := Prod.mk.inj ((p.emits_writeTree w).symm.trans hw)
    have visible : p.treeScript.Visible := visible_script (by rwa [hasClauses_map])
    exact ⟨_, visible outcome w.style w.params.size, rfl⟩
  · change (p.prune.map Select.write).write = (p.map Select.write).write
    rw [map_prune, write_prune]

/-- A predicate with two conditions, the second below and between sub-groups without any. -/
def amongBlanks : Predicate Select :=
  .node { conjunction := .orNot, isNull := [.column { name := "a" }] }
    [.empty, .node {} [.empty, .node { isNull := [.column { name := "b" }] } [], .empty], .empty]

theorem clauses_alone_are_written_amongBlanks :
    (amongBlanks.hasClauses ∧ (∃ n, amongBlanks.HasNode n ∧ n.own.HasEntry) ∧
      Renderable.write amongBlanks.prune = Renderable.write amongBlanks ∧
      (Renderable.buildWith {} amongBlanks).map Built.sql =
        .ok "(a IS NULL) OR NOT (((b IS NULL)))") ∧
    (node {} [empty] : Predicate Select).hasClauses = false ∧
      (Renderable.write (node {} [empty] : Predicate Select)).run.run { style := {} } =
        (.ok (), { style := {} }) := by
  obtain ⟨holds, -, -, -, -, prune, -⟩ := clauses_alone_are_written amongBlanks
  obtain ⟨-, -, silent, -⟩ := clauses_alone_are_written (node {} [empty])
  exact ⟨⟨rfl, holds.1 rfl, prune, by decide⟩, rfl, silent rfl _⟩

end Predicate

end SqlBuilder
