import SqlBuilder.Proofs.Navigation

/-!
# Cutting and resuming a run

A cursor is no more than a tree, the table of the statement and a path, so a run can be cut after
any call that succeeds: a new cursor on the statement that is left, walked down the path at which
the run was cut (`Call.walk`), is the cursor that was there (`Cursor.run_walk`), and the calls that
are still to be made find no difference (`Cursor.run_append`).  Main statement:
`Filtered.chains_resume`.
-/

namespace SqlBuilder

/-- The calls that enter the groups of a path, one after the other. -/
def Call.walk (path : List Nat) : List Call :=
  path.map .enterGroup

namespace Cursor

/-! ## Runs in two parts -/

theorem run_cons_of_ok {c c' : Cursor} {call : Call} (h : c.apply call = .ok c')
    (rest : List Call) : c.run (call :: rest) = c'.run rest := by
  rw [run, h]

/-- After calls that all succeed, a run goes on from where they lead. -/
theorem run_append {c d : Cursor} {calls : List Call} (h : c.run calls = (d, .ok ()))
    (rest : List Call) : c.run (calls ++ rest) = d.run rest := by
  induction calls generalizing c with
  | nil =>
    cases h
    rfl
  | cons call calls ih =>
    cases hc : c.apply call with
    | error e =>
      rw [run, hc] at h
      cases h
    | ok c' =>
      rw [run_cons_of_ok hc] at h
      rw [List.cons_append, run_cons_of_ok hc, ih h]

/-- No call changes the table of the statement. -/
theorem binding_run (calls : List Call) (c : Cursor) : (c.run calls).1.binding = c.binding := by
  refine run_induction (P := fun d => d.binding = c.binding) ?_ calls rfl
  intro d d' call h step
  cases step <;> exact h

/-! ## Walking down a path -/

theorem apply_enterGroup {c : Cursor} {i : Nat} (h : i < c.node.groups.length) :
    c.apply (.enterGroup i) = .ok { c with path := c.path ++ [i] } := by
  simp only [apply]
  rw [if_pos h]

/-- The groups on a path that leads to a node can be entered in order. -/
theorem run_walk {c : Cursor} {path : List Nat} {n : Predicate Select}
    (h : c.root.at? (c.path ++ path) = some n) :
    c.run (Call.walk path) = ({ c with path := c.path ++ path }, .ok ()) := by
  induction path generalizing c with
  | nil =>
    rw [List.append_nil]
    rfl
  | cons i path ih =>
    obtain ⟨m, hm, below⟩ := Predicate.exists_at?_of_append h
    rw [Predicate.at?_cons] at below
    obtain ⟨g, hg, -⟩ := Option.bind_eq_some_iff.1 below
    have inside : i < c.node.groups.length := by
      rw [node_eq hm]
      exact (List.getElem?_eq_some_iff.1 hg).1
    rw [List.append_cons] at h ⊢
    rw [Call.walk, List.map_cons, run_cons_of_ok (apply_enterGroup inside)]
    exact ih (c := { c with path := c.path ++ [i] }) h

/-! ## Steps that are taken back -/

theorem leaveGroup_of_enterGroup {c c' : Cursor} {i : Nat} (h : c.apply (.enterGroup i) = .ok c') :
    c'.apply .leaveGroup = .ok c := by
  simp only [apply] at h
  split_ifs at h
  cases h
  rw [apply, List.dropLast_concat]

/-- Leaving the group that has just been opened and entering it by its number leads back to it. -/
theorem run_openGroup_leave_enter {c : Cursor} (h : c.IsPlaced) (a : ConjunctionArg) :
    c.run [.openGroup a, .leaveGroup, .enterGroup c.node.groups.length] =
      c.run [.openGroup a] := by
  cases ha : a.resolve with
  | error e => simp only [run, apply, ha, Except.map]
  | ok k =>
    have opened : c.apply (.openGroup a) = .ok (c.openGroup k) := by
      rw [apply, ha]
      rfl
    have left : (c.openGroup k).apply .leaveGroup =
        .ok { c.openGroup k with path := c.path } := by
      rw [apply]
      exact congrArg (fun path => Except.ok { c.openGroup k with path }) List.dropLast_concat
    have count : c.node.groups.length <
        ({ c.openGroup k with path := c.path } : Cursor).node.groups.length := by
      rw [node_eq (c := { c.openGroup k with path := c.path }) (at?_modify h _), Predicate.groups,
        List.length_append]
      exact Nat.lt_succ_self _
    rw [run_cons_of_ok opened, run_cons_of_ok opened, run_cons_of_ok left,
      run_cons_of_ok (apply_enterGroup count)]
    rfl

end Cursor

namespace Filtered

variable {σ : Type} [Filtered σ]

theorem edit_eq (s : σ) (calls : List Call) :
    edit s calls = (setFilter (reach s calls).root s, ((cursor s).run calls).2) :=
  rfl

/-- A new cursor on a statement that some calls have left is the cursor that they led to, at the
root. -/
theorem cursor_edit [LawfulFiltered σ] (s : σ) (calls : List Call) :
    cursor (edit s calls).1 = { reach s calls with path := [] } := by
  have binding : (reach s calls).binding = table s := Cursor.binding_run calls (cursor s)
  rw [edit_eq, cursor, LawfulFiltered.filter_setFilter, LawfulFiltered.table_setFilter,
    Option.getD_some, ← binding]

theorem run_cursor_of_ok {s : σ} {calls : List Call} (ok : (edit s calls).2 = .ok ()) :
    (cursor s).run calls = (reach s calls, .ok ()) :=
  Prod.ext rfl ok

/-- The path of the cursor can be walked down again on the statement that the calls leave. -/
theorem run_walk_reach [LawfulFiltered σ] (s : σ) (calls : List Call) :
    (cursor (edit s calls).1).run (Call.walk (reach s calls).path) = (reach s calls, .ok ()) := by
  obtain ⟨n, hn⟩ := isPlaced_reach s calls
  rw [cursor_edit]
  exact Cursor.run_walk (c := { reach s calls with path := [] }) hn

/-- On the statement that some calls leave, calls from where they lead run as they do when they are
made at once. -/
theorem run_walk_append [LawfulFiltered σ] {s : σ} {calls : List Call}
    (ok : (edit s calls).2 = .ok ()) (rest : List Call) :
    (cursor (edit s calls).1).run (Call.walk (reach s calls).path ++ rest) =
      (cursor s).run (calls ++ rest) := by
  rw [Cursor.run_append (run_walk_reach s calls), Cursor.run_append (run_cursor_of_ok ok)]

theorem edit_walk_append [LawfulFiltered σ] {s : σ} {calls : List Call}
    (ok : (edit s calls).2 = .ok ()) (rest : List Call) :
    edit (edit s calls).1 (Call.walk (reach s calls).path ++ rest) = edit s (calls ++ rest) := by
  rw [edit_eq (edit s calls).1, edit_eq s (calls ++ rest), reach, run_walk_append ok,
    edit_eq s calls, LawfulFiltered.setFilter_setFilter]
  rfl

/-- A run of calls that succeed can be cut at its end and resumed.  On the statement that is left,
the path of the cursor can be walked down from the root and leads to the same cursor, and calls made
from there do what they do when they are made at once: the same cursor, the same statement, the same
success or failure.  Wherever a run leads, entering a group and leaving it leads back; leaving a
group that has just been opened and entering it again by its number is no different from staying;
and at the root there is nothing to leave. -/
theorem chains_resume [LawfulFiltered σ] (s : σ) (calls : List Call) :
    ((edit s calls).2 = .ok () →
      (cursor (edit s calls).1).run (Call.walk (reach s calls).path) = (reach s calls, .ok ()) ∧
      ∀ rest,
        (cursor (edit s calls).1).run (Call.walk (reach s calls).path ++ rest) =
          (cursor s).run (calls ++ rest) ∧
        edit (edit s calls).1 (Call.walk (reach s calls).path ++ rest) = edit s (calls ++ rest)) ∧
    (∀ i c, (reach s calls).apply (.enterGroup i) = .ok c →
      c.apply .leaveGroup = .ok (reach s calls)) ∧
    (∀ a, (reach s calls).run
        [.openGroup a, .leaveGroup, .enterGroup (reach s calls).node.groups.length] =
      (reach s calls).run [.openGroup a]) ∧
    ((reach s calls).depth = 0 → (reach s calls).apply .leaveGroup = .ok (reach s calls)) := by
  refine ⟨fun ok => ?_, fun i c => Cursor.leaveGroup_of_enterGroup,
    Cursor.run_openGroup_leave_enter (isPlaced_reach s calls), fun root => ?_⟩
  · exact ⟨run_walk_reach s calls, fun rest => ⟨run_walk_append ok rest, edit_walk_append ok rest⟩⟩
  · have path : (reach s calls).path = [] := List.length_eq_zero_iff.1 root
    rw [Cursor.apply, path, List.dropLast_nil, ← path]

/-- An UPDATE whose predicate has two groups, the second with a group of its own. -/
def updateNested : Update :=
  { table := some { name := "t" }
    filter := some (.node {} [.empty, .node { conjunction := .or } [.empty]]) }

/-- A run that ends two levels down is cut there; what is done then fails at its second call. -/
theorem chains_resume_updateNested :
    LawfulFiltered Update ∧
    (edit updateNested [.literal "x", .enterGroup 1, .openGroup (.text "or not")]).2 = .ok () ∧
    (reach updateNested [.literal "x", .enterGroup 1, .openGroup (.text "or not")]).path = [1, 1] ∧
    edit (edit updateNested [.literal "x", .enterGroup 1, .openGroup (.text "or not")]).1
        ([.enterGroup 1, .enterGroup 1] ++ [.nullTest false (.name "a"), .enterGroup 0]) =
      edit updateNested ([.literal "x", .enterGroup 1, .openGroup (.text "or not")] ++
        [.nullTest false (.name "a"), .enterGroup 0]) := by
  have ok : (edit updateNested
      [.literal "x", .enterGroup 1, .openGroup (.text "or not")]).2 = .ok () := by decide +kernel
  have path : (reach updateNested
      [.literal "x", .enterGroup 1, .openGroup (.text "or not")]).path = [1, 1] := by decide +kernel
  have resumed := ((chains_resume updateNested _).1 ok).2
    [.nullTest false (.name "a"), .enterGroup 0]
  rw [path] at resumed
  exact ⟨inferInstance, ok, path, resumed.2⟩

end Filtered

end SqlBuilder
