import SqlBuilder.Proofs.Navigation

/-!
# What a call leaves alone

A call changes the conditions of one node, and of these one kind at most (`Call.Effect`); a call
that opens a sub-group adds one empty node besides.  `Cursor.Touches` says that this is all.  From
one call to the next no node goes away, the conditions of a kind stay where they are and new ones
come after them, and a list of values may only give way to another with its key
(`Conditions.Extends`).  Main statement: `Filtered.calls_touch_one_kind`.
-/

namespace SqlBuilder

/-! ## Putting a list of values -/

namespace InList

variable {q : Type} {eq : q → q → Bool} {subject : Term q} {key : Option String}
  {values : List Value}

theorem put_of_forall_not {es : List (InList q)} (h : ∀ e ∈ es, e.isAbout eq subject key = false) :
    put eq subject key values es = es ++ [⟨subject, key, values⟩] := by
  induction es with
  | nil => rfl
  | cons e es ih =>
    obtain ⟨he, hes⟩ := List.forall_mem_cons.1 h
    rw [put, he, if_neg Bool.false_ne_true, ih hes, List.cons_append]

theorem put_append_cons {before : List (InList q)} {e : InList q} (after : List (InList q))
    (h : ∀ b ∈ before, b.isAbout eq subject key = false) (he : e.isAbout eq subject key = true) :
    put eq subject key values (before ++ e :: after) =
      before ++ { e with subject, values } :: after := by
  induction before with
  | nil => rw [List.nil_append, put, he, if_pos rfl, List.nil_append]
  | cons b before ih =>
    obtain ⟨hb, hbefore⟩ := List.forall_mem_cons.1 h
    rw [List.cons_append, put, hb, if_neg Bool.false_ne_true, ih hbefore, List.cons_append]

/-- Either no entry is about the subject, or there is a first one that is. -/
theorem exists_first_isAbout (eq : q → q → Bool) (subject : Term q) (key : Option String)
    (es : List (InList q)) :
    (∀ e ∈ es, e.isAbout eq subject key = false) ∨
      ∃ before e after, es = before ++ e :: after ∧
        (∀ b ∈ before, b.isAbout eq subject key = false) ∧ e.isAbout eq subject key = true := by
  induction es with
  | nil => exact .inl (List.forall_mem_nil _)
  | cons e es ih =>
    cases he : e.isAbout eq subject key with
    | true => exact .inr ⟨[], e, es, rfl, List.forall_mem_nil _, he⟩
    | false =>
      rcases ih with h | ⟨before, e', after, rfl, h, he'⟩
      · exact .inl (List.forall_mem_cons.2 ⟨he, h⟩)
      · exact .inr ⟨e :: before, e', after, rfl, List.forall_mem_cons.2 ⟨he, h⟩, he'⟩

/-- Entries about one subject have one key. -/
theorem key_eq_of_isAbout {e : InList q} (h : e.isAbout eq subject key = true) : e.key = key := by
  obtain ⟨s, k, vs⟩ := e
  cases k <;> cases key <;> simp_all [isAbout]

/-- The list with an entry at its end, or with one entry of the same key changed in its place. -/
theorem put_eq_append_or_replace (eq : q → q → Bool) (subject : Term q) (key : Option String)
    (values : List Value) (es : List (InList q)) :
    put eq subject key values es = es ++ [⟨subject, key, values⟩] ∨
      ∃ before e after, es = before ++ e :: after ∧ e.key = key ∧
        put eq subject key values es = before ++ { e with subject, values } :: after := by
  rcases exists_first_isAbout eq subject key es with h | ⟨before, e, after, rfl, h, he⟩
  · exact .inl (put_of_forall_not h)
  · exact .inr ⟨before, e, after, rfl, key_eq_of_isAbout he, put_append_cons after h he⟩

end InList

/-! ## Changes of one node -/

namespace Conditions

variable {q : Type}

/-- Whether or not the lists are negated ones. -/
def lists (negated : Bool) (o : Conditions q) : List (InList q) :=
  if negated then o.notAmong else o.among

/-- Nothing differs but the entries of one kind. -/
structure SameBut (k : Kind) (o o' : Conditions q) : Prop where
  conjunction : o'.conjunction = o.conjunction
  table : o'.table = o.table
  entries : ∀ k' ≠ k, o'.entries k' = o.entries k'

theorem sameBut_setEntries (o : Conditions q) (k : Kind) (es : List (k.Entry q)) :
    o.SameBut k (o.setEntries k es) where
  conjunction := o.conjunction_setEntries k es
  table := o.table_setEntries k es
  entries _ h := o.entries_setEntries_of_ne h es

theorem sameBut_putList (negated : Bool) (subject : Term Select) (key : Option String)
    (values : List Value) (o : Conditions Select) :
    o.SameBut (.membership negated) (o.putList negated subject key values) := by
  cases negated with
  | false => exact o.sameBut_setEntries .among _
  | true => exact o.sameBut_setEntries .notAmong _

theorem lists_putList (negated : Bool) (subject : Term Select) (key : Option String)
    (values : List Value) (o : Conditions Select) :
    (o.putList negated subject key values).lists negated =
      InList.put Select.same subject key values (o.lists negated) := by
  cases negated <;> rfl

/-- The other conditions have all entries of these at the same places, and more after them; a list
of values may be another one with the same key. -/
structure Extends (o o' : Conditions q) : Prop where
  entries : ∀ k, k ≠ .among → k ≠ .notAmong → o.entries k <+: o'.entries k
  keys : ∀ negated, (o.lists negated).map InList.key <+: (o'.lists negated).map InList.key

theorem Extends.refl (o : Conditions q) : o.Extends o :=
  ⟨fun _ _ _ => List.prefix_rfl, fun _ => List.prefix_rfl⟩

theorem Extends.trans {o o' o'' : Conditions q} (h : o.Extends o') (h' : o'.Extends o'') :
    o.Extends o'' where
  entries k ha hn := (h.entries k ha hn).trans (h'.entries k ha hn)
  keys negated := (h.keys negated).trans (h'.keys negated)

theorem SameBut.lists_eq {k : Kind} {o o' : Conditions q} (h : o.SameBut k o') {negated : Bool}
    (hk : k ≠ .membership negated) : o'.lists negated = o.lists negated := by
  cases negated with
  | false => exact h.entries .among hk.symm
  | true => exact h.entries .notAmong hk.symm

end Conditions

/-- What a call does to the conditions of the node at a cursor: it adds one entry at the end of its
kind, puts a list of values at the end or in the place of one with its key, overwrites the
conjunction or the table, or does nothing. -/
inductive Call.Effect (c : Cursor) (o o' : Conditions Select) : Call → Prop
  | adds {call : Call} {e : Σ k : Kind, k.Entry Select} (h : call.addition c = some e)
    (only : o.SameBut e.1 o') (entries : o'.entries e.1 = o.entries e.1 ++ [e.2]) :
    Effect c o o' call
  | appends {negated : Bool} {column : ColumnArg} {values : List Value}
    (only : o.SameBut (.membership negated) o')
    (lists : o'.lists negated = o.lists negated ++ [⟨c.resolve column, column.key, values⟩]) :
    Effect c o o' (.inList negated column values)
  | replaces {negated : Bool} {column : ColumnArg} {values : List Value}
    {before after : List (InList Select)} {e : InList Select}
    (only : o.SameBut (.membership negated) o') (key : e.key = column.key)
    (lists : o.lists negated = before ++ e :: after)
    (lists' : o'.lists negated =
      before ++ { e with subject := c.resolve column, values } :: after) :
    Effect c o o' (.inList negated column values)
  | setConjunction {a : ConjunctionArg} {k : Conjunction} (h : a.resolve = .ok k)
    (eq : o' = { o with conjunction := k }) : Effect c o o' (.setConjunction a)
  | setTable {t : Table} (eq : o' = { o with table := some t }) : Effect c o o' (.setTable t)
  | openGroup {a : ConjunctionArg} (eq : o' = o) : Effect c o o' (.openGroup a)
  | enterGroup {i : Nat} (eq : o' = o) : Effect c o o' (.enterGroup i)
  | leaveGroup (eq : o' = o) : Effect c o o' .leaveGroup

namespace Kind

theorem ne_membership {k : Kind} (ha : k ≠ .among) (hn : k ≠ .notAmong) (negated : Bool) :
    k ≠ .membership negated := by
  cases negated with
  | false => exact ha
  | true => exact hn

theorem membership_ne {b b' : Bool} (h : b' ≠ b) : membership b ≠ membership b' := by
  cases b <;> cases b' <;> first | exact absurd rfl h | exact Kind.noConfusion

theorem ne_membership_of_addition {c : Cursor} {call : Call} {e : Σ k : Kind, k.Entry Select}
    (h : call.addition c = some e) (negated : Bool) : e.1 ≠ membership negated := by
  cases call with
  | compare | literal | textMatch | flag =>
    cases h
    exact ne_membership Kind.noConfusion Kind.noConfusion negated
  | range b | nullTest b | rowTest b =>
    cases b <;> cases h <;> exact ne_membership Kind.noConfusion Kind.noConfusion negated
  | inList | openGroup | enterGroup | leaveGroup | setConjunction | setTable => cases h

end Kind

namespace Conditions

variable {q : Type} {o o' : Conditions q}

theorem SameBut.extends_of_entries {k : Kind} (h : o.SameBut k o')
    (hk : ∀ negated, k ≠ .membership negated) (he : o.entries k <+: o'.entries k) :
    o.Extends o' where
  entries k' _ _ := by
    by_cases hkk : k' = k
    · exact hkk ▸ he
    · exact h.entries k' hkk ▸ List.prefix_rfl
  keys negated := by
    exact h.lists_eq (hk negated) ▸ List.prefix_rfl

theorem SameBut.extends_of_keys {negated : Bool} (h : o.SameBut (.membership negated) o')
    (hl : (o.lists negated).map InList.key <+: (o'.lists negated).map InList.key) :
    o.Extends o' where
  entries k ha hn := by
    exact h.entries k (Kind.ne_membership ha hn negated) ▸ List.prefix_rfl
  keys negated' := by
    by_cases hb : negated' = negated
    · exact hb ▸ hl
    · exact h.lists_eq (Kind.membership_ne hb) ▸ List.prefix_rfl

end Conditions

theorem Call.Effect.extends {c : Cursor} {o o' : Conditions Select} {call : Call}
    (h : call.Effect c o o') : o.Extends o' := by
  cases h with
  | adds h only entries =>
    exact only.extends_of_entries (Kind.ne_membership_of_addition h)
      (entries ▸ List.prefix_append _ _)
  | appends only lists =>
    refine only.extends_of_keys ?_
    rw [lists, List.map_append]
    exact List.prefix_append _ _
  | replaces only key lists lists' =>
    refine only.extends_of_keys ?_
    simp [lists, lists']
  | setConjunction h eq =>
    subst eq
    exact ⟨fun k _ _ => by cases k <;> exact List.prefix_rfl, fun _ => List.prefix_rfl⟩
  | setTable eq =>
    subst eq
    exact ⟨fun k _ _ => by cases k <;> exact List.prefix_rfl, fun _ => List.prefix_rfl⟩
  | openGroup eq | enterGroup eq | leaveGroup eq => exact eq ▸ .refl o

/-! ## Changes of a tree -/

namespace Predicate

variable {q : Type}

/-- Below the changed node the tree is that below the node put in its place. -/
theorem at?_modifyAt_append (f : Predicate q → Predicate q) (path rest : List Nat)
    (p : Predicate q) :
    (p.modifyAt f path).at? (path ++ rest) = (p.at? path).bind fun n => (f n).at? rest := by
  rw [at?_append, at?_modifyAt, Option.bind_map]
  rfl

/-- Changing a node twice is changing it once by both changes. -/
theorem modifyAt_modifyAt (f g : Predicate q → Predicate q)
    (path : List Nat) (p : Predicate q) :
    (p.modifyAt f path).modifyAt g path = p.modifyAt (g ∘ f) path := by
  induction path generalizing p with
  | nil => rfl
  | cons i path ih =>
    have same : modifyAt g path ∘ modifyAt f path = modifyAt (g ∘ f) path := funext ih
    rw [modifyAt_cons, modifyAt_cons, modifyAt_cons, groups, List.modify_modify_eq, same]
    rfl

/-- Changing the conditions of a node changes nothing at any other place. -/
theorem map_own_at?_modifyOwn (f : Conditions q → Conditions q) {path other : List Nat}
    (h : other ≠ path) (p : Predicate q) :
    ((p.modifyAt (modifyOwn f) path).at? other).map own = (p.at? other).map own := by
  by_cases hp : path <+: other
  · obtain ⟨rest, rfl⟩ := hp
    cases rest with
    | nil => exact absurd (List.append_nil path) h
    | cons i rest =>
      rw [at?_modifyAt_append, at?_append]
      congr 2
      funext child
      cases child
      rfl
  · exact map_own_at?_modifyAt _ hp p

/-- Appending an empty group changes nothing but the place of that group. -/
theorem map_own_at?_appendGroup (child : Conditions q) {path other : List Nat} {p n : Predicate q}
    (hn : p.at? path = some n) (h : other ≠ path ++ [n.groups.length]) :
    ((p.modifyAt (fun m => .node m.own (m.groups ++ [.node child []])) path).at? other).map own =
      (p.at? other).map own := by
  by_cases hp : path <+: other
  · obtain ⟨rest, rfl⟩ := hp
    rw [at?_modifyAt_append, at?_append, hn, Option.bind_some, Option.bind_some]
    cases rest with
    | nil => rfl
    | cons i rest =>
      rw [at?_cons, at?_cons, groups]
      rcases Nat.lt_trichotomy i n.groups.length with hi | rfl | hi
      · rw [List.getElem?_append_left hi]
      · cases rest with
        | nil => exact absurd rfl h
        | cons j rest =>
          -- the new group has no groups of its own, so no path leads on from it
          rw [List.getElem?_concat_length, List.getElem?_eq_none (Nat.le_refl _)]
          rfl
      · have beyond : (n.groups ++ [node child []]).length ≤ i := by
          rw [List.length_append, List.length_singleton]
          omega
        rw [List.getElem?_eq_none beyond, List.getElem?_eq_none (Nat.le_of_lt hi)]
  · exact map_own_at?_modifyAt _ hp p

end Predicate

/-- The place of the sub-group that a call opens at a cursor. -/
def Call.opens (c : Cursor) : Call → Option (List Nat)
  | openGroup _ => some (c.path ++ [c.node.groups.length])
  | _ => none

namespace Cursor

theorem modifyOwn_modifyOwn (f g : Conditions Select → Conditions Select) (c : Cursor) :
    (c.modifyOwn f).modifyOwn g = c.modifyOwn (g ∘ f) := by
  have own : Predicate.modifyOwn g ∘ Predicate.modifyOwn f = Predicate.modifyOwn (g ∘ f) := by
    funext node
    cases node
    rfl
  have root := Predicate.modifyAt_modifyAt (Predicate.modifyOwn f) (Predicate.modifyOwn g) c.path
    c.root
  rw [own] at root
  exact congrArg (fun root => { c with root }) root

theorem own_modifyOwn {c : Cursor} (h : c.IsPlaced) (f : Conditions Select → Conditions Select) :
    (c.modifyOwn f).node.own = f c.node.own := by
  rw [node_eq (c := c.modifyOwn f) (at?_modify h _)]
  cases c.node
  rfl

/-- A call changes the conditions of the node at the cursor as it is meant to, and the conditions of
no other node; the only node that comes into being is an empty one, at the place of the group that
the call opens, with the conjunction given and the table that is in force at the cursor. -/
structure Touches (c : Cursor) (call : Call) (c' : Cursor) : Prop where
  binding : c'.binding = c.binding
  elsewhere : ∀ path, path ≠ c.path → path ∉ call.opens c →
    (c'.root.at? path).map Predicate.own = (c.root.at? path).map Predicate.own
  here : ∃ n n', c.root.at? c.path = some n ∧ c'.root.at? c.path = some n' ∧
    call.Effect c n.own n'.own
  opened : ∀ path ∈ call.opens c, c.root.at? path = none ∧
    ∃ a k, call = .openGroup a ∧ a.resolve = .ok k ∧
      c'.root.at? path = some (.node { conjunction := k, table := c.table } [])

theorem touches_modifyOwn {c : Cursor} (h : c.IsPlaced) {f : Conditions Select → Conditions Select}
    {call : Call} (hf : call.Effect c c.node.own (f c.node.own)) (hc : call.opens c = none) :
    c.Touches call (c.modifyOwn f) where
  binding := rfl
  elsewhere path hp _ := Predicate.map_own_at?_modifyOwn f hp c.root
  here := by
    refine ⟨c.node, c.node.modifyOwn f, h.at?_node, at?_modify h _, ?_⟩
    cases hn : c.node with
    | node own groups =>
      rw [hn] at hf
      exact hf
  opened path hp := by
    rw [hc] at hp
    cases hp

theorem touches_of_root_eq {c c' : Cursor} (h : c.IsPlaced) {call : Call}
    (binding : c'.binding = c.binding) (root : c'.root = c.root)
    (effect : ∀ o, call.Effect c o o) (hc : call.opens c = none) : c.Touches call c' where
  binding := binding
  elsewhere path _ _ := by rw [root]
  here := ⟨c.node, c.node, h.at?_node, root ▸ h.at?_node, effect _⟩
  opened path hp := by
    rw [hc] at hp
    cases hp

theorem touches_openGroup {c : Cursor} (h : c.IsPlaced) {a : ConjunctionArg} {k : Conjunction}
    (hk : a.resolve = .ok k) : c.Touches (.openGroup a) (c.openGroup k) where
  binding := rfl
  elsewhere path hp hopen := by
    refine Predicate.map_own_at?_appendGroup _ h.at?_node fun hpath => hopen ?_
    rw [hpath]
    rfl
  here := ⟨c.node, _, h.at?_node, at?_modify h _, .openGroup rfl⟩
  opened path hp := by
    cases hp
    refine ⟨?_, a, k, rfl, hk, at?_openGroup h k⟩
    rw [Predicate.at?_concat, h.at?_node, Option.bind_some]
    exact List.getElem?_eq_none (Nat.le_refl _)

theorem opens_of_addition {c : Cursor} {call : Call} {e : Σ k : Kind, k.Entry Select}
    (h : call.addition c = some e) : call.opens c = none := by
  cases call with
  | openGroup => cases h
  | _ => rfl

theorem touches_of_step {c c' : Cursor} {call : Call} (h : c.IsPlaced) (step : c.Step call c') :
    c.Touches call c' := by
  cases step with
  | @add _ e he =>
    refine touches_modifyOwn h (.adds he (Conditions.sameBut_setEntries _ _ _) ?_)
      (opens_of_addition he)
    exact Conditions.entries_setEntries _ _ _
  | put negated column values =>
    refine touches_modifyOwn h ?_ rfl
    have only := c.node.own.sameBut_putList negated (c.resolve column) column.key values
    have lists := c.node.own.lists_putList negated (c.resolve column) column.key values
    rcases InList.put_eq_append_or_replace Select.same (c.resolve column) column.key values
      (c.node.own.lists negated) with hput | ⟨before, e, after, hes, hkey, hput⟩
    · exact .appends only (lists.trans hput)
    · exact .replaces only hkey hes (lists.trans hput)
  | setConjunction hk => exact touches_modifyOwn h (.setConjunction hk rfl) rfl
  | setTable t => exact touches_modifyOwn h (.setTable rfl) rfl
  | openGroup hk => exact touches_openGroup h hk
  | enterGroup hi => exact touches_of_root_eq h rfl rfl (fun _ => .enterGroup rfl) rfl
  | leaveGroup => exact touches_of_root_eq h rfl rfl (fun _ => .leaveGroup rfl) rfl

/-- A node stays where it is, and its conditions are kept. -/
theorem Touches.exists_at? {c c' : Cursor} {call : Call} (h : c.Touches call c') {path : List Nat}
    {n : Predicate Select} (hn : c.root.at? path = some n) :
    ∃ n', c'.root.at? path = some n' ∧ n.own.Extends n'.own := by
  by_cases hp : path = c.path
  · obtain ⟨m, n', hm, hn', effect⟩ := h.here
    rw [hp, hm] at hn
    cases hn
    exact ⟨n', hp ▸ hn', effect.extends⟩
  · have old : path ∉ call.opens c := fun hopen => by
      rw [(h.opened path hopen).1] at hn
      cases hn
    have own := h.elsewhere path hp old
    rw [hn, Option.map_some] at own
    obtain ⟨n', hn', hown⟩ := Option.map_eq_some_iff.1 own
    exact ⟨n', hn', hown ▸ .refl _⟩

/-- Where a run stops, every node stands where it stood, with the conditions it had. -/
theorem exists_at?_run (calls : List Call) {c : Cursor} (h : c.IsPlaced) {path : List Nat}
    {n : Predicate Select} (hn : c.root.at? path = some n) :
    ∃ n', (c.run calls).1.root.at? path = some n' ∧ n.own.Extends n'.own := by
  have kept : (c.run calls).1.IsPlaced ∧
      ∃ n', (c.run calls).1.root.at? path = some n' ∧ n.own.Extends n'.own := by
    refine run_induction (P := fun d => d.IsPlaced ∧
      ∃ n', d.root.at? path = some n' ∧ n.own.Extends n'.own) ?_ calls ⟨h, n, hn, .refl _⟩
    rintro d d' call ⟨hd, m, hm, extends'⟩ step
    obtain ⟨m', hm', further⟩ := (touches_of_step hd step).exists_at? hm
    exact ⟨isPlaced_step hd step, m', hm', extends'.trans further⟩
  exact kept.2

end Cursor

/-! ## Statements -/

namespace Filtered

variable {σ : Type} [Filtered σ]

/-- Calls on the predicate of a statement change nothing else of it.  Each call that succeeds, in
whatever state the calls before have left the cursor, touches the node of the cursor only, and a
call that fails changes nothing.  So whatever the calls, every node that was there at the beginning
is where it was, and has the conditions that it had. -/
theorem calls_touch_one_kind [LawfulFiltered σ] (s : σ) (calls : List Call) :
    (∀ p, setFilter p (edit s calls).1 = setFilter p s) ∧
    (∀ call c, (reach s calls).apply call = .ok c → (reach s calls).Touches call c) ∧
    (∀ call e, (reach s calls).apply call = .error e →
      ((reach s calls).run [call]).1 = reach s calls) ∧
    ∀ path n, (cursor s).root.at? path = some n →
      ∃ n', (reach s calls).root.at? path = some n' ∧ n.own.Extends n'.own := by
  refine ⟨fun p => LawfulFiltered.setFilter_setFilter p _ s, fun call c h => ?_,
    fun call e h => ?_, fun path n hn => Cursor.exists_at?_run calls ⟨_, rfl⟩ hn⟩
  · exact Cursor.touches_of_step (isPlaced_reach s calls) (Cursor.step_of_apply h)
  · rw [Cursor.run, h]

/-- An UPDATE whose predicate has a group with a list of values. -/
def updateListed : Update :=
  { table := some { name := "t" }
    filter := some (.node {} [.node
      { among := [⟨.column { name := "a" }, some "a", [.int 1]⟩], tests := [.literal "x"] } []]) }

theorem calls_touch_one_kind_updateListed :
    LawfulFiltered Update ∧
    (∃ c, (reach updateListed [.enterGroup 0]).apply (.inList false (.name "a") [.int 2]) = .ok c ∧
      (reach updateListed [.enterGroup 0]).Touches (.inList false (.name "a") [.int 2]) c) ∧
    (cursor updateListed).root.at? [0] = some (.node
      { among := [⟨.column { name := "a" }, some "a", [.int 1]⟩], tests := [.literal "x"] } []) ∧
    ∃ n', (reach updateListed [.enterGroup 0, .literal "y", .leaveGroup]).root.at? [0] = some n' ∧
      n'.own.tests.length = 2 ∧ [Test.literal "x"] <+: n'.own.tests := by
  refine ⟨inferInstance, ⟨_, rfl, ?_⟩, rfl, ?_⟩
  · exact (calls_touch_one_kind updateListed [.enterGroup 0]).2.1 _ _ rfl
  · obtain ⟨n', found, extends'⟩ := (calls_touch_one_kind updateListed
      [.enterGroup 0, .literal "y", .leaveGroup]).2.2.2 [0] _ rfl
    refine ⟨n', found, ?_, extends'.entries .tests Kind.noConfusion Kind.noConfusion⟩
    cases found
    rfl

end Filtered

end SqlBuilder
