import SqlBuilder.Proofs.Resumption

/-!
# Calls that fail

A call fails for one of two reasons: the text of a conjunction that is none, or the number of a
sub-group that is not there (`Call.Refusal`).  `Filtered.editInPlace` makes the calls on a statement
that is changed as they go, with nothing to go back to: each call is a sequence of reads and writes,
and what was written before a failure stays.  Every call finds out that it fails before it writes
(`Filtered.perform_run`), so calls made in place leave the statement that `Filtered.edit` leaves
(`Filtered.editInPlace_eq`).  Main statement: `Filtered.failure_changes_nothing`.
-/

namespace SqlBuilder

/-! ## Reasons for failure -/

/-- The argument is a text that is no conjunction; the error has the text as it was given. -/
theorem ConjunctionArg.resolve_eq_error_iff {a : ConjunctionArg} {e : BuildError} :
    a.resolve = .error e ↔
      ∃ t, a = .text t ∧ (∀ k, Conjunction.parse t ≠ .ok k) ∧ e = .invalidConjunction t := by
  cases a with
  | value k => exact iff_of_false nofun (by rintro ⟨t, h, -⟩; cases h)
  | text t =>
    rw [resolve]
    constructor
    · intro h
      refine ⟨t, rfl, fun k hk => ?_, Conjunction.eq_of_parse_eq_error h⟩
      rw [h] at hk
      cases hk
    · rintro ⟨u, hu, none, rfl⟩
      cases hu
      cases h : Conjunction.parse t with
      | error e => rw [Conjunction.eq_of_parse_eq_error h]
      | ok k => exact absurd h (none k)

theorem ConjunctionArg.map_resolve_eq_error_iff {α : Type} {f : Conjunction → α}
    {a : ConjunctionArg} {e : BuildError} : a.resolve.map f = .error e ↔
      ∃ t, a = .text t ∧ (∀ k, Conjunction.parse t ≠ .ok k) ∧ e = .invalidConjunction t := by
  rw [← resolve_eq_error_iff]
  cases a.resolve <;> simp [Except.map]

/-- Why a call fails at a node with some number of sub-groups. -/
inductive Call.Refusal (groups : Nat) : Call → BuildError → Prop
  | openGroup {t : String} (h : ∀ k, Conjunction.parse t ≠ .ok k) :
    Refusal groups (.openGroup (.text t)) (.invalidConjunction t)
  | enterGroup {i : Nat} (h : groups ≤ i) :
    Refusal groups (.enterGroup i) (.validation (.noSuchGroup i groups))
  | setConjunction {t : String} (h : ∀ k, Conjunction.parse t ≠ .ok k) :
    Refusal groups (.setConjunction (.text t)) (.invalidConjunction t)

namespace Cursor

theorem apply_openGroup (c : Cursor) (a : ConjunctionArg) :
    c.apply (.openGroup a) = a.resolve.map fun k => c.openGroup k :=
  rfl

theorem apply_setConjunction (c : Cursor) (a : ConjunctionArg) : c.apply (.setConjunction a) =
    a.resolve.map fun k => c.modifyOwn fun o => { o with conjunction := k } := by
  rw [apply]
  cases a.resolve <;> rfl

theorem refusal_of_apply {c : Cursor} {call : Call} {e : BuildError}
    (h : c.apply call = .error e) : call.Refusal c.node.groups.length e := by
  cases call with
  | openGroup a =>
    rw [apply_openGroup, ConjunctionArg.map_resolve_eq_error_iff] at h
    obtain ⟨t, rfl, none, rfl⟩ := h
    exact .openGroup none
  | setConjunction a =>
    rw [apply_setConjunction, ConjunctionArg.map_resolve_eq_error_iff] at h
    obtain ⟨t, rfl, none, rfl⟩ := h
    exact .setConjunction none
  | enterGroup i =>
    simp only [apply] at h
    split_ifs at h with hi
    cases h
    exact .enterGroup (Nat.le_of_not_lt hi)
  | _ => cases h

theorem apply_of_refusal {c : Cursor} {call : Call} {e : BuildError}
    (h : call.Refusal c.node.groups.length e) : c.apply call = .error e := by
  cases h with
  | openGroup none =>
    rw [apply_openGroup]
    exact ConjunctionArg.map_resolve_eq_error_iff.2 ⟨_, rfl, none, rfl⟩
  | setConjunction none =>
    rw [apply_setConjunction]
    exact ConjunctionArg.map_resolve_eq_error_iff.2 ⟨_, rfl, none, rfl⟩
  | enterGroup hi =>
    simp only [apply]
    rw [if_neg (Nat.not_lt.2 hi)]

/-! ## Runs that fail -/

/-- A run fails where the calls before one that fails lead; what follows that one is not made. -/
theorem run_eq_error_iff {c d : Cursor} {calls : List Call} {e : BuildError} :
    c.run calls = (d, .error e) ↔ ∃ before call rest, calls = before ++ call :: rest ∧
      c.run before = (d, .ok ()) ∧ d.apply call = .error e := by
  refine ⟨fun h => ?_, ?_⟩
  · induction calls generalizing c with
    | nil => cases h
    | cons call rest ih =>
      cases hc : c.apply call with
      | error e' =>
        rw [run, hc] at h
        cases h
        exact ⟨[], call, rest, rfl, rfl, hc⟩
      | ok c' =>
        rw [run_cons_of_ok hc] at h
        obtain ⟨before, bad, rest, rfl, first, fails⟩ := ih h
        exact ⟨call :: before, bad, rest, rfl, (run_cons_of_ok hc before).trans first, fails⟩
  · rintro ⟨before, call, rest, rfl, first, fails⟩
    rw [run_append first, run, fails]

/-- A run that has failed goes no further. -/
theorem run_append_of_error {c d : Cursor} {calls : List Call} {e : BuildError}
    (h : c.run calls = (d, .error e)) (rest : List Call) :
    c.run (calls ++ rest) = (d, .error e) := by
  obtain ⟨before, call, after, rfl, first, fails⟩ := run_eq_error_iff.1 h
  refine run_eq_error_iff.2 ⟨before, call, after ++ rest, ?_, first, fails⟩
  rw [List.append_assoc, List.cons_append]

end Cursor

/-! ## Calls in place -/

/-- A statement that is being changed, and the place in its predicate. -/
structure Borrowed (σ : Type) where
  statement : σ
  path : List Nat := []

/-- An action on a statement that is being changed, which keeps what was done before it fails. -/
abbrev InPlace (σ : Type) := ExceptT BuildError (StateM (Borrowed σ))

theorem InPlace.run_get_bind {σ : Type} (k : Borrowed σ → InPlace σ Unit) (b : Borrowed σ) :
    (get >>= k).run.run b = (k b).run.run b :=
  rfl

namespace Borrowed

variable {σ : Type} [Filtered σ]

/-- The cursor at the place. -/
def cursor (b : Borrowed σ) : Cursor :=
  { Filtered.cursor b.statement with path := b.path }

/-- Changes the predicate at the place. -/
def write (f : Predicate Select → Predicate Select) (b : Borrowed σ) : Borrowed σ :=
  { b with statement := Filtered.setFilter (b.cursor.modify f).root b.statement }

/-- Changes the conditions of the node at the place. -/
def writeOwn (f : Conditions Select → Conditions Select) : Borrowed σ → Borrowed σ :=
  write (Predicate.modifyOwn f)

/-- Moves to another place. -/
def move (f : List Nat → List Nat) (b : Borrowed σ) : Borrowed σ :=
  { b with path := f b.path }

/-- A statement with the tree and the place of a cursor. -/
def put (s : σ) (c : Cursor) : Borrowed σ :=
  ⟨Filtered.setFilter c.root s, c.path⟩

end Borrowed

namespace Filtered

variable {σ : Type} [Filtered σ]

/-- Makes a call in place, where the cursor stands that is given. -/
def performAt (c : Cursor) : Call → InPlace σ Unit
  | .openGroup a => do
    let k ← a.resolve
    modify (Borrowed.write fun p =>
      .node p.own (p.groups ++ [.node { conjunction := k, table := c.table } []]))
    modify (Borrowed.move fun path => path ++ [c.node.groups.length])
  | .enterGroup i =>
    let count := c.node.groups.length
    if i < count then modify (Borrowed.move fun path => path ++ [i])
    else throw (.validation (.noSuchGroup i count))
  | .leaveGroup => modify (Borrowed.move List.dropLast)
  | .setConjunction a => do
    let k ← a.resolve
    modify (Borrowed.writeOwn fun o => { o with conjunction := k })
  | .setTable t => modify (Borrowed.writeOwn fun o => { o with table := some t })
  | .inList negated column values =>
    modify (Borrowed.writeOwn
      (Conditions.putList negated (c.resolve column) column.key values))
  | call =>
    match call.addition c with
    | some e => modify (Borrowed.writeOwn (Conditions.add e))
    | none => pure ()

/-- Makes a call in place. -/
def perform (call : Call) : InPlace σ Unit := do
  let b ← get
  performAt b.cursor call

/-- Makes calls in place, from the root of the predicate, up to the first that fails. -/
def editInPlace (s : σ) (calls : List Call) : σ × Except BuildError Unit :=
  let start : Borrowed σ := { statement := setFilter (cursor s).root s }
  let (result, left) := (calls.forM perform).run.run start
  (left.statement, result)

/-! ## No call writes before it fails -/

section InPlace

variable {s : σ} {c : Cursor}

theorem performAt_of_addition {call : Call} {e : Σ k : Kind, k.Entry Select}
    (h : call.addition c = some e) :
    (performAt c call : InPlace σ Unit) = modify (Borrowed.writeOwn (Conditions.add e)) := by
  cases call with
  | openGroup | enterGroup | leaveGroup | setConjunction | setTable | inList => cases h
  | _ => rw [performAt, h] <;> nofun

/-- A call that fails does so in place before anything is written. -/
theorem performAt_of_refusal {call : Call} {e : BuildError}
    (h : call.Refusal c.node.groups.length e) (b : Borrowed σ) :
    (performAt c call).run.run b = (.error e, b) := by
  cases h with
  | @openGroup t none | @setConjunction t none =>
    have resolve : ConjunctionArg.resolve (.text t) = .error (.invalidConjunction t) :=
      ConjunctionArg.resolve_eq_error_iff.2 ⟨t, rfl, none, rfl⟩
    rw [performAt, resolve]
    rfl
  | enterGroup hi =>
    rw [performAt, if_neg (Nat.not_lt.2 hi)]
    rfl

variable [LawfulFiltered σ]

theorem cursor_put (h : c.binding = table s) : (Borrowed.put s c).cursor = c := by
  rw [Borrowed.cursor, Borrowed.put, cursor, LawfulFiltered.filter_setFilter,
    LawfulFiltered.table_setFilter, Option.getD_some, ← h]

theorem write_put (h : c.binding = table s) (f : Predicate Select → Predicate Select) :
    (Borrowed.put s c).write f = Borrowed.put s (c.modify f) := by
  rw [Borrowed.write, cursor_put h, Borrowed.put, Borrowed.put, LawfulFiltered.setFilter_setFilter]
  rfl

/-- A call that succeeds does in place what it does to the cursor. -/
theorem performAt_of_step (h : c.binding = table s) {call : Call} {c' : Cursor}
    (step : c.Step call c') :
    (performAt c call).run.run (Borrowed.put s c) = (.ok (), Borrowed.put s c') := by
  have own : ∀ f, (Borrowed.put s c).writeOwn f = Borrowed.put s (c.modifyOwn f) :=
    fun f => write_put h _
  cases step with
  | add he =>
    rw [performAt_of_addition he, ← own]
    rfl
  | put | setTable =>
    rw [← own]
    rfl
  | setConjunction hk =>
    rw [performAt, hk, ← own]
    rfl
  | @openGroup a k hk =>
    have opened := write_put h fun p =>
      .node p.own (p.groups ++ [.node { conjunction := k, table := c.table } []])
    rw [performAt, hk]
    exact congrArg
      (fun b => (Except.ok (), Borrowed.move (fun path => path ++ [c.node.groups.length]) b)) opened
  | enterGroup hi =>
    rw [performAt, if_pos hi]
    rfl
  | leaveGroup => rfl

theorem perform_run (h : c.binding = table s) (call : Call) :
    (perform call).run.run (Borrowed.put s c) =
      match c.apply call with
      | .ok c' => (.ok (), Borrowed.put s c')
      | .error e => (.error e, Borrowed.put s c) := by
  rw [perform, InPlace.run_get_bind, cursor_put h]
  cases hc : c.apply call with
  | ok c' => exact performAt_of_step h (Cursor.step_of_apply hc)
  | error e => exact performAt_of_refusal (Cursor.refusal_of_apply hc) _

/-- Calls in place leave the tree and the place that the run leaves, and end as the run does. -/
theorem forM_perform_run (h : c.binding = table s) (calls : List Call) :
    (calls.forM perform).run.run (Borrowed.put s c) =
      ((c.run calls).2, Borrowed.put s (c.run calls).1) := by
  induction calls generalizing c with
  | nil => rfl
  | cons call rest ih =>
    have first := perform_run h call
    have seq : ((call :: rest).forM perform).run.run (Borrowed.put s c) =
        match (perform call).run.run (Borrowed.put s c) with
        | (.ok (), b) => (rest.forM perform).run.run b
        | (.error e, b) => (.error e, b) := by
      change (perform call >>= fun _ => rest.forM perform).run.run _ = _
      rw [ExceptT.run_bind, StateT.run_bind]
      rcases (perform call).run.run (Borrowed.put s c) with ⟨_ | _, b⟩ <;> rfl
    rw [seq, first, Cursor.run]
    cases hc : c.apply call with
    | error e => rfl
    | ok c' =>
      have binding : c'.binding = table s := by
        have kept := Cursor.binding_run [call] c
        rw [Cursor.run_cons_of_ok hc] at kept
        exact kept.trans h
      exact ih binding

theorem editInPlace_eq (s : σ) (calls : List Call) : editInPlace s calls = edit s calls := by
  have run := forM_perform_run (s := s) (c := cursor s) rfl calls
  rw [editInPlace]
  exact congrArg (fun x => (x.2.statement, x.1)) run

end InPlace

end Filtered

namespace Predicate

/-- Changes the conjunction at the root in place. -/
def assignConjunction (a : ConjunctionArg) : ExceptT BuildError (StateM (Predicate Select)) Unit :=
  do
    let k ← a.resolve
    modify (modifyOwn fun o => { o with conjunction := k })

theorem assignConjunction_run (a : ConjunctionArg) (p : Predicate Select) :
    (assignConjunction a).run.run p =
      match p.setConjunction a with
      | .ok p' => (.ok (), p')
      | .error e => (.error e, p) := by
  rw [setConjunction, assignConjunction]
  cases a.resolve <;> rfl

theorem setConjunction_eq_error_iff {a : ConjunctionArg} {p : Predicate Select} {e : BuildError} :
    p.setConjunction a = .error e ↔
      ∃ t, a = .text t ∧ (∀ k, Conjunction.parse t ≠ .ok k) ∧ e = .invalidConjunction t :=
  ConjunctionArg.map_resolve_eq_error_iff

end Predicate

/-! ## Failure changes nothing -/

namespace Filtered

variable {σ : Type} [Filtered σ]

theorem edit_eq_error_iff {s : σ} {calls : List Call} {e : BuildError} :
    (edit s calls).2 = .error e ↔ ∃ before call rest, calls = before ++ call :: rest ∧
      (edit s before).2 = .ok () ∧ call.Refusal (reach s before).node.groups.length e := by
  constructor
  · intro h
    have run : (cursor s).run calls = (reach s calls, .error e) := Prod.ext rfl h
    obtain ⟨before, call, rest, rfl, first, fails⟩ := Cursor.run_eq_error_iff.1 run
    have here : reach s before = reach s (before ++ call :: rest) := by
      rw [reach, first]
    rw [← here] at fails
    exact ⟨before, call, rest, rfl, congrArg Prod.snd first, Cursor.refusal_of_apply fails⟩
  · rintro ⟨before, call, rest, rfl, ok, refusal⟩
    exact congrArg Prod.snd (Cursor.run_eq_error_iff.2
      ⟨before, call, rest, rfl, run_cursor_of_ok ok, Cursor.apply_of_refusal refusal⟩)

/-- A run that fails leaves the statement that the calls before the failure leave. -/
theorem edit_of_refusal {s : σ} {before : List Call} {call : Call} {e : BuildError}
    (ok : (edit s before).2 = .ok ())
    (refusal : call.Refusal (reach s before).node.groups.length e) (rest : List Call) :
    edit s (before ++ call :: rest) = ((edit s before).1, .error e) := by
  have run : (cursor s).run (before ++ call :: rest) = (reach s before, .error e) :=
    Cursor.run_eq_error_iff.2
      ⟨before, call, rest, rfl, run_cursor_of_ok ok, Cursor.apply_of_refusal refusal⟩
  rw [edit_eq, reach, run]
  rfl

/-- A call that fails changes nothing, wherever it stands in a chain.  A chain fails if and only if
one of its calls is refused after calls that succeed: a text that is no conjunction, with an error
that has the text as it was given, or the number of a sub-group that is not there.  The statement is
then the one that the calls before the failure leave, also when the calls are made in place; and
from the node where the chain failed it can be continued, whatever the calls, as if the refused one
had never been made. -/
theorem failure_changes_nothing [LawfulFiltered σ] (s : σ) :
    (∀ calls e, (edit s calls).2 = .error e ↔
      ∃ before call rest, calls = before ++ call :: rest ∧ (edit s before).2 = .ok () ∧
        call.Refusal (reach s before).node.groups.length e) ∧
    (∀ before call rest e, (edit s before).2 = .ok () →
      call.Refusal (reach s before).node.groups.length e →
        edit s (before ++ call :: rest) = ((edit s before).1, .error e) ∧
        editInPlace s (before ++ call :: rest) = ((editInPlace s before).1, .error e) ∧
        ∀ retry, edit (edit s (before ++ call :: rest)).1
            (Call.walk (reach s before).path ++ retry) = edit s (before ++ retry)) ∧
    (∀ calls, editInPlace s calls = edit s calls) ∧
    ∀ (a : ConjunctionArg) (p : Predicate Select) (e : BuildError), p.setConjunction a = .error e →
      (Predicate.assignConjunction a).run.run p = (.error e, p) ∧
      ∃ t, a = .text t ∧ (∀ k, Conjunction.parse t ≠ .ok k) ∧ e = .invalidConjunction t := by
  refine ⟨fun calls e => edit_eq_error_iff, ?_, editInPlace_eq s, ?_⟩
  · intro before call rest e ok refusal
    have left := edit_of_refusal ok refusal rest
    refine ⟨left, ?_, fun retry => ?_⟩
    · rw [editInPlace_eq, editInPlace_eq, left]
    · rw [left]
      exact edit_walk_append ok retry
  · intro a p e h
    refine ⟨?_, Predicate.setConjunction_eq_error_iff.1 h⟩
    rw [Predicate.assignConjunction_run, h]

/-- A SELECT whose predicate has a group with a group of its own. -/
def selectGrouped : Select :=
  .of
    { table := some { name := "t" }
      filter := some (.node {} [.node { conjunction := .or } [.empty]]) }

/-- A chain fails two levels down, after a condition was added on the way; it is taken up again with
a text that is a conjunction. -/
theorem failure_changes_nothing_selectGrouped :
    LawfulFiltered Select ∧
    (edit selectGrouped [.literal "x", .enterGroup 0, .enterGroup 0]).2 = .ok () ∧
    edit selectGrouped
        ([.literal "x", .enterGroup 0, .enterGroup 0] ++
          .openGroup (.text "xor") :: [.leaveGroup]) =
      ((edit selectGrouped [.literal "x", .enterGroup 0, .enterGroup 0]).1,
        .error (.invalidConjunction "xor")) ∧
    edit (edit selectGrouped
        ([.literal "x", .enterGroup 0, .enterGroup 0] ++
          .openGroup (.text "xor") :: [.leaveGroup])).1
        (Call.walk [0, 0] ++ [.openGroup (.text " or "), .literal "y"]) =
      edit selectGrouped ([.literal "x", .enterGroup 0, .enterGroup 0] ++
        [.openGroup (.text " or "), .literal "y"]) ∧
    (edit selectGrouped ([.literal "x", .enterGroup 0] ++ .enterGroup 1 :: [])).2 =
      .error (.validation (.noSuchGroup 1 1)) := by
  obtain ⟨fails, refused, -, -⟩ := failure_changes_nothing selectGrouped
  have ok : (edit selectGrouped [.literal "x", .enterGroup 0, .enterGroup 0]).2 = .ok () := rfl
  have none : ∀ k, Conjunction.parse "xor" ≠ .ok k := by
    intro k
    rw [show Conjunction.parse "xor" = .error (.invalidConjunction "xor") by decide +kernel]
    nofun
  have path : (reach selectGrouped [.literal "x", .enterGroup 0, .enterGroup 0]).path = [0, 0] :=
    rfl
  obtain ⟨left, -, resumed⟩ := refused _ _ [.leaveGroup] _ ok (.openGroup none)
  rw [path] at resumed
  refine ⟨inferInstance, ok, left, resumed _, (fails _ _).2 ⟨_, _, [], rfl, rfl, ?_⟩⟩
  exact .enterGroup (Nat.le_refl 1)

end Filtered

end SqlBuilder
