import SqlBuilder.Proofs.Failure
import SqlBuilder.Proofs.Frame

/-!
# Calls in another order

The conditions of a node lie in buckets: one for the conjunction, and one for the entries of each
kind.  A call that stays at its node writes one bucket (`Call.bucket?`); what it makes of that
depends on what is in it and on the table in force, and on nothing else (`Conditions.Writes`).  So
what a bucket holds after some calls is decided by the calls that write it
(`Conditions.content_foldl`), and calls that are reordered without changing the order in any bucket
lead to the same tree.  Main statement: `Filtered.order_counts_in_buckets`.
-/

namespace SqlBuilder

/-! ## Buckets -/

/-- A part of the conditions of a node that calls write. -/
inductive Bucket where
  | conjunction
  | entries (k : Kind)
  deriving DecidableEq

/-- What a bucket holds. -/
def Bucket.Content : Bucket → Type
  | conjunction => Conjunction
  | entries k => List (k.Entry Select)

namespace Conditions

/-- What is in a bucket. -/
def content (o : Conditions Select) : (b : Bucket) → b.Content
  | .conjunction => o.conjunction
  | .entries k => o.entries k

/-- The buckets and the table are all there is to the conditions of a node. -/
theorem eq_of_content {o o' : Conditions Select} (table : o.table = o'.table)
    (h : ∀ b, o.content b = o'.content b) : o = o' := by
  obtain ⟨⟩ := o
  obtain ⟨⟩ := o'
  rw [mk.injEq]
  exact ⟨h .conjunction, table, h (.entries .matching), h (.entries .among),
    h (.entries .notAmong), h (.entries .between), h (.entries .notBetween), h (.entries .tests),
    h (.entries .isNull), h (.entries .isNotNull), h (.entries .flags), h (.entries .someRow),
    h (.entries .noRow)⟩

theorem SameBut.content_eq {k : Kind} {o o' : Conditions Select} (h : o.SameBut k o') {b : Bucket}
    (hb : b ≠ .entries k) : o'.content b = o.content b := by
  cases b with
  | conjunction => exact h.conjunction
  | entries k' => exact h.entries k' fun hk => hb (congrArg Bucket.entries hk)

/-- The change writes one bucket, and what it makes of it depends on that bucket alone. -/
structure Writes (b : Bucket) (f : Conditions Select → Conditions Select) : Prop where
  table (o : Conditions Select) : (f o).table = o.table
  elsewhere (o : Conditions Select) {b' : Bucket} : b' ≠ b → (f o).content b' = o.content b'
  here {o o' : Conditions Select} : o.content b = o'.content b →
    (f o).content b = (f o').content b

theorem writes_add (e : Σ k : Kind, k.Entry Select) : Writes (.entries e.1) (add e) where
  table o := (o.sameBut_setEntries e.1 _).table
  elsewhere o _ hb := (o.sameBut_setEntries e.1 _).content_eq hb
  here {o o'} h := by
    change o.entries e.1 = o'.entries e.1 at h
    change (add e o).entries e.1 = (add e o').entries e.1
    rw [add, add, entries_setEntries, entries_setEntries, h]

theorem writes_putList (negated : Bool) (subject : Term Select) (key : Option String)
    (values : List Value) :
    Writes (.entries (.membership negated)) (putList negated subject key values) where
  table o := (o.sameBut_putList negated subject key values).table
  elsewhere o _ hb := (o.sameBut_putList negated subject key values).content_eq hb
  here h := by
    cases negated <;> exact congrArg (InList.put Select.same subject key values) h

theorem writes_conjunction (k : Conjunction) :
    Writes .conjunction fun o => { o with conjunction := k } where
  table _ := rfl
  elsewhere o b' hb := by
    cases b' with
    | conjunction => exact absurd rfl hb
    | entries k' => cases k' <;> rfl
  here _ := rfl

theorem writes_id (b : Bucket) : Writes b id :=
  ⟨fun _ => rfl, fun _ _ _ => rfl, fun h => h⟩

section Fold

variable {α : Type} {bucket? : α → Option Bucket} {f : α → Conditions Select → Conditions Select}
  {l l' : List α}

theorem table_foldl (h : ∀ a ∈ l, ∃ b, bucket? a = some b ∧ Writes b (f a))
    (o : Conditions Select) : (l.foldl (fun o a => f a o) o).table = o.table := by
  induction l generalizing o with
  | nil => rfl
  | cons a l ih =>
    obtain ⟨⟨b, -, writes⟩, rest⟩ := List.forall_mem_cons.1 h
    rw [List.foldl_cons, ih rest, writes.table]

/-- After some changes a bucket holds what it holds after those of them that write it. -/
theorem content_foldl (h : ∀ a ∈ l, ∃ b, bucket? a = some b ∧ Writes b (f a)) (b : Bucket)
    {o o' : Conditions Select} (same : o.content b = o'.content b) :
    (l.foldl (fun o a => f a o) o).content b =
      ((l.filter fun a => bucket? a = some b).foldl (fun o a => f a o) o').content b := by
  induction l generalizing o o' with
  | nil => exact same
  | cons a l ih =>
    obtain ⟨⟨c, hc, writes⟩, rest⟩ := List.forall_mem_cons.1 h
    rw [List.foldl_cons, List.filter_cons, hc]
    by_cases hb : b = c
    · subst hb
      rw [if_pos (decide_eq_true rfl), List.foldl_cons]
      exact ih rest (writes.here same)
    · rw [if_neg (by simpa using Ne.symm hb)]
      exact ih rest ((writes.elsewhere o hb).trans same)

/-- Changes in two orders that are one in every bucket come to the same. -/
theorem foldl_eq_of_filter_eq (h : ∀ a ∈ l, ∃ b, bucket? a = some b ∧ Writes b (f a))
    (h' : ∀ a ∈ l', ∃ b, bucket? a = some b ∧ Writes b (f a))
    (order : ∀ b : Bucket, (l'.filter fun a => bucket? a = some b) =
      l.filter fun a => bucket? a = some b) (o : Conditions Select) :
    l'.foldl (fun o a => f a o) o = l.foldl (fun o a => f a o) o := by
  refine eq_of_content ?_ fun b => ?_
  · rw [table_foldl h', table_foldl h]
  · rw [content_foldl h' b rfl, content_foldl h b rfl, order b]

end Fold

end Conditions

/-! ## Calls that stay at a node -/

namespace Call

/-- The bucket that a call writes.  Calls that open or enter a group, leave it or set its table have
none. -/
def bucket? : Call → Option Bucket
  | compare .. | literal _ => some (.entries .tests)
  | textMatch .. => some (.entries .matching)
  | inList negated _ _ => some (.entries (.membership negated))
  | range negated .. => some (.entries (if negated then .notBetween else .between))
  | nullTest negated _ => some (.entries (if negated then .isNotNull else .isNull))
  | flag .. => some (.entries .flags)
  | rowTest negated _ => some (.entries (if negated then .noRow else .someRow))
  | setConjunction _ => some .conjunction
  | openGroup _ | enterGroup _ | leaveGroup | setTable _ => none

/-- What a call that writes a bucket does to the conditions of the node at a cursor. -/
def act (c : Cursor) : Call → Conditions Select → Conditions Select
  | inList negated column values => Conditions.putList negated (c.resolve column) column.key values
  | setConjunction a =>
    match a.resolve with
    | .ok k => fun o => { o with conjunction := k }
    | .error _ => id
  | call => (call.addition c).elim id Conditions.add

theorem act_of_addition {c : Cursor} {call : Call} {e : Σ k : Kind, k.Entry Select}
    (h : call.addition c = some e) : call.act c = Conditions.add e := by
  cases call with
  | inList | openGroup | enterGroup | leaveGroup | setConjunction | setTable => cases h
  | _ => simp only [act, h, Option.elim_some]

theorem bucket?_of_addition {c : Cursor} {call : Call} {e : Σ k : Kind, k.Entry Select}
    (h : call.addition c = some e) : call.bucket? = some (.entries e.1) := by
  cases call with
  | compare | literal | textMatch | flag =>
    cases h
    rfl
  | range negated | nullTest negated | rowTest negated => cases negated <;> cases h <;> rfl
  | inList | openGroup | enterGroup | leaveGroup | setConjunction | setTable => cases h

theorem writes_act (c : Cursor) {call : Call} {b : Bucket} (h : call.bucket? = some b) :
    Conditions.Writes b (call.act c) := by
  cases he : call.addition c with
  | some e =>
    rw [bucket?_of_addition he] at h
    cases h
    rw [act_of_addition he]
    exact Conditions.writes_add e
  | none =>
    cases call with
    | inList negated =>
      cases h
      exact Conditions.writes_putList negated _ _ _
    | setConjunction a =>
      cases h
      rw [act]
      cases a.resolve with
      | ok k => exact Conditions.writes_conjunction k
      | error e => exact Conditions.writes_id .conjunction
    | compare | literal | textMatch | flag => cases he
    | range negated | nullTest negated | rowTest negated => cases negated <;> cases he
    | openGroup | enterGroup | leaveGroup | setTable => cases h

/-- What a call does to conditions depends on the table in force alone. -/
theorem act_congr {c d : Cursor} (h : c.table = d.table) (call : Call) :
    call.act c = call.act d := by
  have resolve : c.resolve = d.resolve := funext fun a => congrArg a.resolve h
  cases call with
  | range negated | nullTest negated | rowTest negated =>
    cases negated <;> simp only [act, addition, resolve]
  | _ => simp only [act, addition, resolve]

/-- Whether a call that writes a bucket is refused does not depend on where it is made. -/
theorem Refusal.anywhere {n : Nat} {call : Call} {e : BuildError} (h : call.Refusal n e)
    {b : Bucket} (hb : call.bucket? = some b) (m : Nat) : call.Refusal m e := by
  cases h with
  | setConjunction none => exact .setConjunction none
  | openGroup | enterGroup => cases hb

/-- The same calls in another order, which is the same among the calls that write one bucket. -/
structure Reordered (calls calls' : List Call) : Prop where
  perm : calls'.Perm calls
  order (b : Bucket) : (calls'.filter fun call => call.bucket? = some b) =
    calls.filter fun call => call.bucket? = some b

end Call

/-! ## Runs that stay at a node -/

namespace Cursor

/-- A call that writes a bucket changes the conditions of the node and nothing else. -/
theorem eq_modifyOwn_of_step {c c' : Cursor} {call : Call} {b : Bucket}
    (hb : call.bucket? = some b) (step : c.Step call c') : c' = c.modifyOwn (call.act c) := by
  cases step with
  | add he => rw [Call.act_of_addition he]
  | put => rfl
  | setConjunction hk => simp only [Call.act, hk]
  | setTable | openGroup | enterGroup | leaveGroup => cases hb

theorem modifyOwn_id (c : Cursor) : c.modifyOwn id = c := by
  have own : Predicate.modifyOwn (id : Conditions Select → Conditions Select) = id := by
    funext node
    cases node
    rfl
  have root : ∀ (path : List Nat) (p : Predicate Select), p.modifyAt id path = p := by
    intro path
    induction path with
    | nil => exact fun p => rfl
    | cons i path ih =>
      rintro ⟨own, groups⟩
      rw [Predicate.modifyAt, show Predicate.modifyAt id path = id from funext ih, List.modify_id]
  rw [modifyOwn, own]
  exact congrArg (fun root => { c with root }) (root c.path c.root)

theorem table_modifyOwn {c : Cursor} (h : c.IsPlaced) {f : Conditions Select → Conditions Select}
    (hf : (f c.node.own).table = c.node.own.table) : (c.modifyOwn f).table = c.table := by
  rw [table, table, own_modifyOwn h, hf]
  rfl

/-- Calls that write buckets, none of which is refused, succeed one after the other; together they
change the conditions of the node as they do one by one, with the table in force at the start. -/
theorem run_of_bucket {c : Cursor} (placed : c.IsPlaced) {calls : List Call}
    (stay : ∀ call ∈ calls, ∃ b, call.bucket? = some b)
    (accepted : ∀ call ∈ calls, ∀ n e, ¬ call.Refusal n e) :
    c.run calls = (c.modifyOwn fun o => calls.foldl (fun o call => call.act c o) o, .ok ()) := by
  induction calls generalizing c with
  | nil => exact congrArg (fun d => (d, Except.ok ())) c.modifyOwn_id.symm
  | cons call rest ih =>
    obtain ⟨⟨b, hb⟩, stay⟩ := List.forall_mem_cons.1 stay
    obtain ⟨ok, accepted⟩ := List.forall_mem_cons.1 accepted
    cases hc : c.apply call with
    | error e => exact absurd (refusal_of_apply hc) (ok _ e)
    | ok c' =>
      have here := eq_modifyOwn_of_step hb (step_of_apply hc)
      subst here
      have there : (c.modifyOwn (call.act c)).IsPlaced := placed.modify _
      have table := table_modifyOwn placed ((Call.writes_act c hb).table c.node.own)
      rw [run_cons_of_ok hc, ih there stay accepted, modifyOwn_modifyOwn]
      simp only [Call.act_congr table]
      rfl

theorem not_refusal_of_run {c : Cursor} {calls : List Call}
    (stay : ∀ call ∈ calls, ∃ b, call.bucket? = some b) (ok : (c.run calls).2 = .ok ()) :
    ∀ call ∈ calls, ∀ n e, ¬ call.Refusal n e := by
  induction calls generalizing c with
  | nil => exact List.forall_mem_nil _
  | cons call rest ih =>
    obtain ⟨⟨b, hb⟩, stay⟩ := List.forall_mem_cons.1 stay
    cases hc : c.apply call with
    | error e =>
      rw [run, hc] at ok
      cases ok
    | ok c' =>
      rw [run_cons_of_ok hc] at ok
      refine List.forall_mem_cons.2 ⟨fun n e refusal => ?_, ih stay ok⟩
      rw [apply_of_refusal (refusal.anywhere hb _)] at hc
      cases hc

/-- Calls that write buckets can be reordered if the order in each bucket is kept. -/
theorem run_of_reordered {c : Cursor} (placed : c.IsPlaced) {calls calls' : List Call}
    (stay : ∀ call ∈ calls, ∃ b, call.bucket? = some b) (ok : (c.run calls).2 = .ok ())
    (h : Call.Reordered calls calls') : c.run calls' = c.run calls := by
  have accepted := not_refusal_of_run stay ok
  have stay' : ∀ call ∈ calls', ∃ b, call.bucket? = some b :=
    fun call hm => stay call (h.perm.subset hm)
  have writes : ∀ l : List Call, (∀ call ∈ l, ∃ b, call.bucket? = some b) →
      ∀ call ∈ l, ∃ b, call.bucket? = some b ∧ Conditions.Writes b (call.act c) := by
    intro l hl call hm
    obtain ⟨b, hb⟩ := hl call hm
    exact ⟨b, hb, Call.writes_act c hb⟩
  have same : (fun o => calls'.foldl (fun o call => call.act c o) o) =
      fun o => calls.foldl (fun o call => call.act c o) o :=
    funext (Conditions.foldl_eq_of_filter_eq (writes calls stay) (writes calls' stay') h.order)
  rw [run_of_bucket placed stay accepted,
    run_of_bucket placed stay' fun call hm => accepted call (h.perm.subset hm), same]

/-- What comes of calls in the middle of a run is all that the run knows about them. -/
theorem run_append_append_congr {c : Cursor} {before calls calls' : List Call}
    (h : (c.run before).1.run calls' = (c.run before).1.run calls) (after : List Call) :
    c.run (before ++ calls' ++ after) = c.run (before ++ calls ++ after) := by
  have upTo : c.run (before ++ calls') = c.run (before ++ calls) := by
    rcases hb : c.run before with ⟨d, e | ⟨⟩⟩
    · rw [run_append_of_error hb, run_append_of_error hb]
    · rw [hb] at h
      rw [run_append hb, run_append hb, h]
  rcases hc : c.run (before ++ calls) with ⟨d, e | ⟨⟩⟩
  · rw [run_append_of_error hc, run_append_of_error (upTo.trans hc)]
  · rw [run_append hc, run_append (upTo.trans hc)]

end Cursor

/-! ## Statements -/

namespace Filtered

variable {σ : Type} [Filtered σ]

/-- Only the order inside a bucket matters.  Wherever a cursor has been led to, calls that add
conditions or set the conjunction lead to the same cursor, and to the same statement whatever is
done afterwards, in every order that keeps the order of the calls that write one bucket; so what is
built of the statement is the same in every style. -/
theorem order_counts_in_buckets [Renderable σ] (s : σ) (before : List Call)
    {calls calls' : List Call} (stay : ∀ call ∈ calls, ∃ b, call.bucket? = some b)
    (ok : ((reach s before).run calls).2 = .ok ()) (h : Call.Reordered calls calls') :
    (reach s before).run calls' = (reach s before).run calls ∧
    ∀ after, edit s (before ++ calls' ++ after) = edit s (before ++ calls ++ after) ∧
      ∀ style : Style,
        Renderable.buildWith style (edit s (before ++ calls' ++ after)).1 =
          Renderable.buildWith style (edit s (before ++ calls ++ after)).1 := by
  have run := Cursor.run_of_reordered (isPlaced_reach s before) stay ok h
  refine ⟨run, fun after => ?_⟩
  have same : edit s (before ++ calls' ++ after) = edit s (before ++ calls ++ after) := by
    rw [edit_eq, edit_eq, reach, reach, Cursor.run_append_append_congr run]
  exact ⟨same, fun style => by rw [same]⟩

/-- In a group of a DELETE, two lists of values for one column stay in order; a condition and the
conjunction move before them. -/
theorem order_counts_in_buckets_deleteNested :
    Call.Reordered
      ([.inList false (.name "a") [.int 1]] ++ [.literal "x", .setConjunction (.text "and")] ++
        [.inList false (.name "a") [.int 2]])
      ([.literal "x", .setConjunction (.text "and")] ++ [.inList false (.name "a") [.int 1]] ++
        [.inList false (.name "a") [.int 2]]) ∧
    Renderable.build (edit deleteNested ([.enterGroup 1] ++
        ([.literal "x", .setConjunction (.text "and")] ++ [.inList false (.name "a") [.int 1]] ++
          [.inList false (.name "a") [.int 2]]) ++ [])).1 =
      .ok ⟨"DELETE FROM t WHERE ((t.a IN ($1)) AND (x))", [.int 2]⟩ := by
  have reordered : Call.Reordered
      ([.inList false (.name "a") [.int 1]] ++ [.literal "x", .setConjunction (.text "and")] ++
        [.inList false (.name "a") [.int 2]])
      ([.literal "x", .setConjunction (.text "and")] ++ [.inList false (.name "a") [.int 1]] ++
        [.inList false (.name "a") [.int 2]]) := by
    refine ⟨List.perm_append_comm.append_right _, fun b => ?_⟩
    cases b with
    | conjunction => rfl
    | entries k => cases k <;> rfl
  refine ⟨reordered, ?_⟩
  have same := order_counts_in_buckets deleteNested [.enterGroup 1] ?_ rfl reordered
  · rw [Renderable.build, (same.2 []).2 {}]
    rfl
  · intro call hm
    simp only [List.cons_append, List.nil_append, List.mem_cons, List.not_mem_nil, or_false] at hm
    rcases hm with rfl | rfl | rfl | rfl <;> exact ⟨_, rfl⟩

end Filtered

end SqlBuilder
