import SqlBuilder.Proofs.Frame

/-!
# What stands in a written statement

A script shows some parts if, when it ends well, they stand in its pieces in order and apart from
each other (`InOrder`, `Script.Shows`).  The rules follow the composition of scripts, as in the
script of an entry, of a predicate, and of a statement.  What a statement shows are the terms that
stand before its table, the table, the clauses of all nodes of its predicate in the order of
writing (`Predicate.clauseList`), and the terms by which it sorts.  Main statement:
`Filtered.inOrder_of_built`.
-/

namespace SqlBuilder

/-! ## Parts of a whole -/

/-- The parts stand in the whole in this order and apart from each other, with anything before,
between and after them. -/
inductive InOrder {α : Type} [Append α] : List α → α → Prop
  | nil (whole : α) : InOrder [] whole
  | cons (gap part : α) {parts : List α} {rest : α} (h : InOrder parts rest) :
    InOrder (part :: parts) (gap ++ (part ++ rest))

namespace InOrder

variable {α : Type} {parts parts' : List (List α)} {whole whole' : List α}

theorem self (whole : List α) : InOrder [whole] whole := by
  have h := cons [] whole (nil [])
  rwa [List.nil_append, List.append_nil] at h

theorem behind (gap : List α) (h : InOrder parts whole) : InOrder parts (gap ++ whole) := by
  cases h with
  | nil => exact nil _
  | cons gap' part h =>
    rw [← List.append_assoc]
    exact cons _ part h

theorem append (h : InOrder parts whole) (h' : InOrder parts' whole') :
    InOrder (parts ++ parts') (whole ++ whole') := by
  induction h with
  | nil whole => exact h'.behind whole
  | cons gap part _ ih =>
    rw [List.append_assoc, List.append_assoc]
    exact cons gap part ih

theorem sublist {fewer : List (List α)} (h : InOrder parts whole) (hf : fewer.Sublist parts) :
    InOrder fewer whole := by
  induction h generalizing fewer with
  | nil whole =>
    cases hf
    exact nil whole
  | cons gap part _ ih =>
    cases hf with
    | cons _ hf => exact ((ih hf).behind part).behind gap
    | cons_cons _ hf => exact cons gap part (ih hf)

variable {pieces : List Piece} {blocks : List (List Piece)}

theorem values (h : InOrder blocks pieces) :
    InOrder (blocks.map Piece.values) (Piece.values pieces) := by
  induction h with
  | nil => exact nil _
  | cons gap part _ ih =>
    rw [Piece.values_append, Piece.values_append]
    exact cons _ _ ih

/-- The texts of the parts stand in the text of the whole, each as it is written after the values
that stand before it. -/
theorem print (h : InOrder blocks pieces) (style : Style) (n : Nat) :
    ∃ texts, List.Forall₂ (fun block text => ∃ m, text = Piece.print style m block) blocks texts ∧
      InOrder texts (Piece.print style n pieces) := by
  induction h generalizing n with
  | nil => exact ⟨[], .nil, nil _⟩
  | cons gap part _ ih =>
    obtain ⟨texts, written, inOrder⟩ :=
      ih (n + (Piece.values gap).length + (Piece.values part).length)
    rw [Piece.print_append, Piece.print_append]
    exact ⟨_, .cons ⟨_, rfl⟩ written, cons _ _ inOrder⟩

end InOrder

/-! ## Scripts that show parts -/

namespace Script

/-- If the script ends well, the parts stand in its pieces in order. -/
def Shows (s : Script) (parts : List (List Piece)) : Prop :=
  s.outcome = .ok () → InOrder parts s.pieces

variable {a b s : Script} {parts parts' : List (List Piece)}

theorem shows_nil (s : Script) : s.Shows [] :=
  fun _ => .nil _

theorem shows_self (s : Script) : s.Shows [s.pieces] :=
  fun _ => .self _

theorem shows_fail (e : BuildError) (parts : List (List Piece)) : (fail e).Shows parts :=
  fun h => nomatch h

theorem Shows.append (ha : a.Shows parts) (hb : b.Shows parts') :
    (a ++ b).Shows (parts ++ parts') := by
  intro h
  obtain ⟨oka, okb⟩ := outcome_append_eq_ok.1 h
  rw [append_of_ok oka]
  exact (ha oka).append (hb okb)

theorem Shows.opened (a : Script) (h : s.Shows parts) : (a ++ s).Shows parts :=
  (shows_nil a).append h

theorem Shows.closed (h : s.Shows parts) (b : Script) : (s ++ b).Shows parts := by
  have hb := h.append (shows_nil b)
  rwa [List.append_nil] at hb

theorem Shows.parenthesized (h : s.Shows parts) : s.parenthesized.Shows parts :=
  (h.opened _).closed _

theorem Shows.ite {c : Prop} [Decidable c] (ha : a.Shows parts) (hb : b.Shows parts) :
    (if c then a else b).Shows parts := by
  split_ifs
  · exact ha
  · exact hb

/-- Scripts with separators show what each of them shows. -/
theorem shows_separated (separator : String) {ss : List Script}
    {partss : List (List (List Piece))} (h : List.Forall₂ Shows ss partss) :
    (separated separator ss).Shows partss.flatten := by
  induction h with
  | nil => exact shows_nil _
  | cons hs hr ih =>
    cases hr with
    | nil =>
      rw [List.flatten_singleton]
      exact hs
    | cons _ _ => exact (hs.closed _).append ih

theorem shows_separated_map {α : Type} (separator : String) {l : List α} {script : α → Script}
    {part : α → List Piece} (h : ∀ x ∈ l, (script x).Shows [part x]) :
    (separated separator (l.map script)).Shows (l.map part) := by
  have shown := shows_separated separator (forall₂_map_of_mem h)
  rwa [← List.flatMap_def, ← List.map_eq_flatMap] at shown

theorem shows_withTable (kind : String) {t : Table} {o : Option Table} (ht : o = some t)
    {k : Table → Script} (h : (k t).Shows parts) : (withTable kind o k).Shows parts := by
  rw [ht]
  exact h

theorem append_empty (s : Script) : s ++ ∅ = s := by
  obtain ⟨ps, e | ⟨⟩⟩ := s
  · rfl
  · rw [append_of_ok rfl, pieces_empty, List.append_nil]
    rfl

theorem fail_append (e : BuildError) (s : Script) : fail e ++ s = fail e :=
  append_of_error rfl s

theorem withTable_append (kind : String) (o : Option Table) (k : Table → Script) (s : Script) :
    withTable kind o k ++ s = withTable kind o fun t => k t ++ s := by
  cases o <;> rfl

end Script

/-! ## Clauses -/

section Clauses

variable {q r : Type}

/-- An entry of some kind. -/
abbrev Clause (q : Type) : Type :=
  Σ k : Kind, k.Entry q

namespace Kind

/-- The kinds in the order of writing. -/
def all : List Kind :=
  [.matching, .among, .notAmong, .between, .notBetween, .tests, .isNull, .isNotNull, .flags,
    .someRow, .noRow]

theorem mem_all (k : Kind) : k ∈ all := by
  cases k <;> decide

/-- Replaces the nested SELECTs of an entry. -/
def mapEntry (f : q → r) : (k : Kind) → k.Entry q → k.Entry r
  | matching => TextMatch.map f
  | among | notAmong => InList.map f
  | between | notBetween => Range.map f
  | tests => Test.map f
  | isNull | isNotNull => Term.map f
  | flags => Flag.map f
  | someRow | noRow => f

/-- The script of the clause for an entry. -/
def script : (k : Kind) → k.Entry Script → Script
  | matching => TextMatch.script
  | among => InList.script false
  | notAmong => InList.script true
  | between => Range.script false
  | notBetween => Range.script true
  | tests => Test.script
  | isNull => Term.nullTestScript false
  | isNotNull => Term.nullTestScript true
  | flags => Flag.script
  | someRow => rowTestScript false
  | noRow => rowTestScript true

end Kind

namespace Clause

/-- The clause with other SELECTs in place of its own. -/
def map (f : q → r) (c : Clause q) : Clause r :=
  ⟨c.1, c.1.mapEntry f c.2⟩

/-- What the clause is about. -/
def terms : Clause q → List (Term q)
  | ⟨.matching, e⟩ => TextMatch.columns e
  | ⟨.among, e⟩ | ⟨.notAmong, e⟩ => [InList.subject e]
  | ⟨.between, e⟩ | ⟨.notBetween, e⟩ => [Range.subject e]
  | ⟨.tests, .comparison c⟩ => [c.subject]
  | ⟨.tests, .literal _⟩ => []
  | ⟨.isNull, t⟩ | ⟨.isNotNull, t⟩ => [t]
  | ⟨.flags, e⟩ => [Flag.subject e]
  | ⟨.someRow, _⟩ | ⟨.noRow, _⟩ => []

/-- Whether the clause is written as a constant, whatever it is about. -/
def isConstant : Clause q → Bool
  | ⟨.among, e⟩ | ⟨.notAmong, e⟩ => (InList.values e).isEmpty
  | _ => false

/-- The terms that are written in the clause. -/
def writtenTerms (c : Clause q) : List (Term q) :=
  if c.isConstant then [] else c.terms

/-- The script of the clause by its kind. -/
def script (c : Clause Script) : Script :=
  c.1.script c.2

end Clause

theorem TextMatch.shows_script (e : TextMatch Script) :
    e.script.Shows (e.columns.map fun t => t.script.pieces) :=
  (Script.shows_fail _ _).ite
    ((((Script.shows_separated_map ", " fun t _ => t.script.shows_self).opened _).closed _).closed _
      |>.closed _ |>.closed _)

theorem InList.shows_script (negated : Bool) (e : InList Script) :
    (e.script negated).Shows
      ((if e.values.isEmpty then [] else [e.subject]).map fun t => t.script.pieces) := by
  unfold InList.script
  by_cases none : e.values.isEmpty
  · rw [if_pos none, if_pos none]
    exact Script.shows_nil _
  · rw [if_neg none, if_neg none]
    exact (e.subject.script.shows_self.opened _).closed _ |>.closed _ |>.closed _

theorem Range.shows_script (negated : Bool) (e : Range Script) :
    (e.script negated).Shows [e.subject.script.pieces] :=
  ((e.subject.script.shows_self.closed _).closed _ |>.closed _ |>.closed _).parenthesized

theorem Comparison.shows_script (c : Comparison Script) :
    c.script.Shows [c.subject.script.pieces] :=
  (c.subject.script.shows_self.closed _).closed _ |>.closed _ |>.closed _

theorem Term.shows_nullTestScript (negated : Bool) (t : Term Script) :
    (t.nullTestScript negated).Shows [t.script.pieces] :=
  (t.script.shows_self.opened _).closed _

theorem Flag.shows_script (e : Flag Script) : e.script.Shows [e.subject.script.pieces] :=
  (e.subject.script.shows_self.opened _).closed _ |>.closed _ |>.closed _

/-- What a clause is about stands in it, unless it is a constant. -/
theorem Clause.shows_script (c : Clause Script) :
    c.script.Shows (c.writtenTerms.map fun t => t.script.pieces) := by
  obtain ⟨k, e⟩ := c
  cases k with
  | matching => exact TextMatch.shows_script e
  | among => exact InList.shows_script false e
  | notAmong => exact InList.shows_script true e
  | between => exact Range.shows_script false e
  | notBetween => exact Range.shows_script true e
  | tests =>
    cases e with
    | comparison c => exact c.shows_script.parenthesized
    | literal sql => exact Script.shows_nil _
  | isNull => exact Term.shows_nullTestScript false e
  | isNotNull => exact Term.shows_nullTestScript true e
  | flags => exact Flag.shows_script e
  | someRow | noRow => exact Script.shows_nil _

/-! ## Nodes and predicates -/

namespace Conditions

/-- The clauses of a node in the order of writing. -/
def clauseList (o : Conditions q) : List (Clause q) :=
  Kind.all.flatMap fun k => (o.entries k).map (Sigma.mk k)

theorem mem_clauseList {o : Conditions q} {k : Kind} {e : k.Entry q} :
    (⟨k, e⟩ : Clause q) ∈ o.clauseList ↔ e ∈ o.entries k := by
  simp only [clauseList, List.mem_flatMap, List.mem_map]
  constructor
  · rintro ⟨k', -, e', he', h⟩
    cases h
    exact he'
  · exact fun h => ⟨k, k.mem_all, e, h, rfl⟩

theorem sublist_clauseList (o : Conditions q) (k : Kind) :
    ((o.entries k).map (Sigma.mk k)).Sublist o.clauseList :=
  List.sublist_flatten_of_mem (List.mem_map.2 ⟨k, k.mem_all, rfl⟩)

theorem entries_map (f : q → r) (o : Conditions q) (k : Kind) :
    (o.map f).entries k = (o.entries k).map (k.mapEntry f) := by
  cases k <;> rfl

theorem clauseList_map (f : q → r) (o : Conditions q) :
    (o.map f).clauseList = o.clauseList.map (Clause.map f) := by
  rw [clauseList, clauseList, List.map_flatMap]
  refine List.flatMap_congr fun k _ => ?_
  rw [entries_map, List.map_map, List.map_map]
  rfl

theorem entries_eq_nil {o : Conditions q} (h : o.isEmpty) (k : Kind) : o.entries k = [] := by
  simp only [isEmpty, Bool.and_eq_true, List.isEmpty_iff] at h
  obtain ⟨⟨⟨⟨⟨⟨⟨⟨⟨⟨_, _⟩, _⟩, _⟩, _⟩, _⟩, _⟩, _⟩, _⟩, _⟩, _⟩ := h
  cases k <;> assumption

theorem clauseList_eq_nil {o : Conditions q} (h : o.isEmpty) : o.clauseList = [] := by
  refine List.flatMap_eq_nil_iff.2 fun k _ => ?_
  rw [entries_eq_nil h, List.map_nil]

theorem clauseScripts_eq (o : Conditions Script) :
    o.clauseScripts = o.clauseList.map Clause.script := by
  rw [clauseList, List.map_flatMap]
  simp only [List.map_map, clauseScripts, Kind.all, List.flatMap_cons, List.flatMap_nil,
    List.append_nil, List.append_assoc]
  rfl

end Conditions

namespace Predicate

mutual

/-- The clauses of all nodes in the order of writing. -/
def clauseList : Predicate q → List (Clause q)
  | node own groups => own.clauseList ++ groupClauseList groups

/-- The clauses of some sub-groups, one after the other. -/
def groupClauseList : List (Predicate q) → List (Clause q)
  | [] => []
  | p :: rest => clauseList p ++ groupClauseList rest

end

theorem groupClauseList_eq (ps : List (Predicate q)) :
    groupClauseList ps = ps.flatMap clauseList := by
  induction ps with
  | nil => rfl
  | cons p ps ih => rw [groupClauseList, ih, List.flatMap_cons]

theorem clauseList_node (own : Conditions q) (groups : List (Predicate q)) :
    (node own groups).clauseList = own.clauseList ++ groups.flatMap clauseList := by
  rw [clauseList, groupClauseList_eq]

theorem clauseList_map (f : q → r) (p : Predicate q) :
    (p.map f).clauseList = p.clauseList.map (Clause.map f) := by
  induction p using Predicate.induction with
  | node own groups ih =>
    rw [map_node, clauseList_node, clauseList_node, Conditions.clauseList_map, List.map_append,
      List.map_flatMap, List.flatMap_map]
    congr 1
    exact List.flatMap_congr ih

/-- The clauses of a node are among those of the tree, in their order. -/
theorem HasNode.sublist_clauseList {p n : Predicate q} (h : p.HasNode n) :
    n.own.clauseList.Sublist p.clauseList := by
  induction p using Predicate.induction with
  | node own groups ih =>
    rw [clauseList_node]
    rcases hasNode_iff.1 h with rfl | ⟨g, hg, hn⟩
    · exact List.sublist_append_left _ _
    · have below : g.clauseList.Sublist (groups.flatMap clauseList) :=
        List.sublist_flatten_of_mem (List.mem_map.2 ⟨g, hg, rfl⟩)
      exact ((ih g hg hn).trans below).trans (List.sublist_append_right _ _)

theorem mem_clauseList {p : Predicate q} {c : Clause q} :
    c ∈ p.clauseList ↔ ∃ n, p.HasNode n ∧ c ∈ n.own.clauseList := by
  refine ⟨fun h => ?_, fun ⟨n, hn, h⟩ => hn.sublist_clauseList.subset h⟩
  induction p using Predicate.induction with
  | node own groups ih =>
    rw [clauseList_node, List.mem_append, List.mem_flatMap] at h
    rcases h with h | ⟨g, hg, h⟩
    · exact ⟨_, hasNode_self _, h⟩
    · obtain ⟨n, hn, h⟩ := ih g hg h
      exact ⟨n, hn.of_mem_groups hg, h⟩

theorem clauseList_eq_nil {p : Predicate q} (h : p.hasClauses = false) : p.clauseList = [] := by
  induction p using Predicate.induction with
  | node own groups ih =>
    obtain ⟨hown, hgroups⟩ := hasClauses_node_eq_false.1 h
    rw [clauseList_node, Conditions.clauseList_eq_nil hown, List.nil_append,
      List.flatMap_eq_nil_iff]
    exact fun g hg => ih g hg (hgroups g hg)

variable {parts : Clause Script → List (List Piece)}

/-- What the clauses show is shown by the tree, for every clause of every node. -/
theorem shows_script (h : ∀ c : Clause Script, c.script.Shows (parts c)) (p : Predicate Script) :
    p.script.Shows (p.clauseList.flatMap parts) := by
  induction p using Predicate.induction with
  | node own groups ih =>
    have ofOwn : List.Forall₂ Script.Shows own.clauseScripts (own.clauseList.map parts) := by
      rw [Conditions.clauseScripts_eq]
      exact forall₂_map_of_mem fun c _ => h c
    have ofGroups : List.Forall₂ Script.Shows (groupScripts groups)
        ((groups.filter hasClauses).map fun g => g.clauseList.flatMap parts) := by
      rw [groupScripts_eq]
      exact forall₂_map_of_mem fun g hg => (ih g (List.mem_filter.1 hg).1).parenthesized
    have shown := Script.shows_separated own.conjunction.separator
      (List.rel_append ofOwn ofGroups)
    rw [List.flatten_append, ← List.flatMap_def, ← List.flatMap_def, ← List.flatMap_assoc,
      flatMap_filter_hasClauses fun _ => clauseList_eq_nil, ← List.flatMap_append,
      ← clauseList_node] at shown
    exact shown

/-- The clauses of a predicate that may be missing. -/
theorem shows_whereScript (h : ∀ c : Clause Script, c.script.Shows (parts c))
    (p : Option (Predicate Script)) (s : Script) :
    (whereScript p s).Shows ((p.elim [] clauseList).flatMap parts) := by
  cases p with
  | none => exact Script.shows_nil _
  | some p =>
    rw [whereScript, Option.filter_some]
    cases hp : p.hasClauses with
    | true => exact (p.shows_script h).opened _
    | false =>
      rw [Option.elim_some, clauseList_eq_nil hp]
      exact Script.shows_nil _

end Predicate

end Clauses

/-! ## Statements -/

/-- The pieces of a term. -/
def Term.pieces (t : Term Select) : List Piece :=
  (t.map Select.script).script.pieces

theorem Term.shows_selectedScript (t : Term Script) : t.selectedScript.Shows [t.script.pieces] :=
  t.script.shows_self.closed _

theorem SortKey.shows_script (k : SortKey Script) : k.script.Shows [k.term.script.pieces] :=
  (k.term.script.shows_self.closed _).closed _

/-- A statement with a WHERE clause is written as what stands before the clause, the clause, and
what stands after it.  Before the clause stand some terms and then the table, and after it stand
some terms. -/
class Parted (σ : Type) [Filtered σ] [Renderable σ] where
  head : σ → Script
  /-- What stands in the place of a clause that is missing. -/
  otherwise : σ → Script
  tail : σ → Script
  listed : σ → List (Term Select)
  ordered : σ → List (Term Select)
  emits_write (s : σ) : Emits (Renderable.write s) (head s ++
    Predicate.whereScript ((Filtered.filter s).map (Predicate.map Select.script)) (otherwise s) ++
    tail s)
  shows_head {s : σ} {t : Table} (h : Filtered.table s = some t) :
    (head s).Shows ((listed s).map Term.pieces ++ [(Script.table t).pieces])
  shows_tail (s : σ) : (tail s).Shows ((ordered s).map Term.pieces)
  listed_setFilter (p : Predicate Select) (s : σ) : listed (Filtered.setFilter p s) = listed s
  ordered_setFilter (p : Predicate Select) (s : σ) : ordered (Filtered.setFilter p s) = ordered s

/-- The list of a SELECT. -/
def Select.listScript (s : Select) : Script :=
  if s.form.columns.isEmpty then .text "*"
  else .separated ", " ((s.form.columns.map (Term.map Select.script)).map Term.selectedScript)

instance : Parted Select where
  head s := .withTable "SELECT" s.form.table fun t =>
    .text "SELECT " ++ s.listScript ++ .text " FROM " ++ .table t
  otherwise _ := ∅
  tail s :=
    (if s.form.orderBy.isEmpty then ∅
      else .text " ORDER BY " ++ .separated ", "
        ((s.form.orderBy.map (SortKey.map Select.script)).map SortKey.script)) ++
      countScript "LIMIT" s.form.limit ++ countScript "OFFSET" s.form.offset
  listed s := s.form.columns
  ordered s := s.form.orderBy.map SortKey.term
  emits_write s := by
    obtain ⟨form⟩ := s
    have script := (Select.of form).emits_write
    rw [Select.script_of, SelectOver.script] at script
    simp only [Script.withTable_append, Script.append_assoc] at script ⊢
    simp only [SelectOver.map, List.isEmpty_map] at script
    exact script
  shows_head {s t} h := by
    refine Script.shows_withTable "SELECT" h ((Script.Shows.closed ?_ _).append
      (Script.shows_self _))
    refine Script.Shows.opened _ ?_
    unfold Select.listScript
    split_ifs with none
    · rw [List.isEmpty_iff.1 none]
      exact Script.shows_nil _
    · rw [List.map_map]
      exact Script.shows_separated_map ", " fun x _ => Term.shows_selectedScript _
  shows_tail s := by
    refine (Script.Shows.closed ?_ _).closed _
    split_ifs with none
    · rw [List.isEmpty_iff.1 none]
      exact Script.shows_nil _
    · rw [List.map_map, List.map_map]
      exact (Script.shows_separated_map ", " fun k _ => SortKey.shows_script _).opened _
  listed_setFilter _ _ := rfl
  ordered_setFilter _ _ := rfl

instance : Parted Update where
  head s := .withTable "UPDATE" s.table fun t =>
    if s.values.isEmpty then .fail (.validation .nothingToSet)
    else .text "UPDATE " ++ .table t ++ .text " SET " ++
      .separated ", " (s.values.map Assignment.script)
  otherwise _ := ∅
  tail _ := ∅
  listed _ := []
  ordered _ := []
  emits_write s := by
    have script := s.emits_write
    rw [Update.script] at script
    simp only [Script.withTable_append, Script.ite_append, Script.fail_append, Script.append_assoc,
      Script.append_empty] at script ⊢
    exact script
  shows_head {s t} h :=
    Script.shows_withTable "UPDATE" h ((Script.shows_fail _ _).ite
      ((((Script.shows_self _).opened _).closed _).closed _))
  shows_tail _ := Script.shows_nil _
  listed_setFilter _ _ := rfl
  ordered_setFilter _ _ := rfl

instance : Parted Delete where
  head s := .withTable "DELETE" s.table fun t => .text "DELETE FROM " ++ .table t
  otherwise s := if s.allowAll then ∅ else .text " WHERE 1=0"
  tail _ := ∅
  listed _ := []
  ordered _ := []
  emits_write s := by
    have script := s.emits_write
    rw [Delete.script] at script
    simp only [Script.withTable_append, Script.append_assoc, Script.append_empty] at script ⊢
    exact script
  shows_head {s t} h := Script.shows_withTable "DELETE" h ((Script.shows_self _).opened _)
  shows_tail _ := Script.shows_nil _
  listed_setFilter _ _ := rfl
  ordered_setFilter _ _ := rfl

namespace Filtered

variable {σ : Type} [Filtered σ]

/-- The clauses of the predicate of a statement. -/
def clauses (s : σ) : List (Clause Select) :=
  (filter s).elim [] Predicate.clauseList

theorem clauseList_map_filter (s : σ) :
    ((filter s).map (Predicate.map Select.script)).elim [] Predicate.clauseList =
      (clauses s).map (Clause.map Select.script) := by
  rw [clauses]
  cases filter s with
  | none => rfl
  | some p => exact p.clauseList_map Select.script

/-- A build is the text and the values of some pieces, among which stands, in order, what the
clauses of all nodes of the predicate show. -/
theorem inOrder_clauses_of_built [Renderable σ] [Parted σ]
    {parts : Clause Script → List (List Piece)} (h : ∀ c : Clause Script, c.script.Shows (parts c))
    {s : σ} {style : Style} {b : Built} (hb : Renderable.buildWith style s = .ok b) :
    ∃ pieces, b = ⟨Piece.print style 0 pieces, Piece.values pieces⟩ ∧
      InOrder ((clauses s).flatMap fun c => parts (c.map Select.script)) pieces := by
  obtain ⟨outcome, rfl⟩ := (Renderable.buildWith_eq_ok_iff (Parted.emits_write s)).1 hb
  have shown := ((Predicate.shows_whereScript h ((filter s).map (Predicate.map Select.script))
    (Parted.otherwise s)).opened (Parted.head s)).closed (Parted.tail s) outcome
  rw [clauseList_map_filter, List.flatMap_map] at shown
  exact ⟨_, rfl, shown⟩

end Filtered

end SqlBuilder
