import SqlBuilder.Proofs.Equality
import SqlBuilder.Proofs.Frame

/-!
# Lists of values by key

The lists of values of a node are a map in the order of insertion, in which the last write wins.
Two entries are rivals if they have one key, or if neither has a key and their subjects are equal;
the invariant is that no node has two rivals in one bucket (`Predicate.OneEach`).  Putting an entry
replaces its rival in place, or comes last if it has none (`InList.Put`).  Rivalry is symmetric and
transitive, so the new entry of a replaced one has no rival that the old one did not have, and the
invariant is kept.  Main statement: `Filtered.lists_are_last_write_wins`.
-/

namespace SqlBuilder

/-! ## Rivals -/

namespace InList

/-- Two entries have one key, or they have none and their subjects are equal. -/
def Rivals (a b : InList Select) : Prop :=
  (∃ k, a.key = some k ∧ b.key = some k) ∨
    (a.key = none ∧ b.key = none ∧ a.subject.same Select.same b.subject)

theorem isAbout_iff_rivals {a b : InList Select} :
    a.isAbout Select.same b.subject b.key = true ↔ a.Rivals b := by
  unfold Rivals isAbout
  cases a.key with
  | none =>
    cases b.key with
    | none => simp
    | some l => simp
  | some k =>
    cases b.key with
    | none => simp
    | some l => simpa using Iff.intro Eq.symm Eq.symm

theorem Rivals.symm {a b : InList Select} (h : a.Rivals b) : b.Rivals a := by
  rcases h with ⟨k, ha, hb⟩ | ⟨ha, hb, h⟩
  · exact .inl ⟨k, hb, ha⟩
  · refine .inr ⟨hb, ha, ?_⟩
    rwa [Term.same_comm fun s _ t => s.same_comm t]

theorem Rivals.trans {a b c : InList Select} (h : a.Rivals b) (h' : b.Rivals c) : a.Rivals c := by
  rcases h with ⟨k, ha, hb⟩ | ⟨ha, hb, h⟩
  · rcases h' with ⟨l, hb', hc⟩ | ⟨hb', -, -⟩
    · rw [hb] at hb'
      exact .inl ⟨k, ha, hc.trans hb'.symm⟩
    · rw [hb] at hb'
      cases hb'
  · rcases h' with ⟨l, hb', -⟩ | ⟨-, hc, h'⟩
    · rw [hb] at hb'
      cases hb'
    · refine .inr ⟨ha, hc, Term.same_trans ?_ h h'⟩
      exact fun _ _ _ _ => Select.same_trans

theorem Rivals.key_eq {a b : InList Select} (h : a.Rivals b) : a.key = b.key := by
  rcases h with ⟨k, ha, hb⟩ | ⟨ha, hb, -⟩
  · rw [ha, hb]
  · rw [ha, hb]

/-- No two entries are rivals. -/
def NoRivals (es : List (InList Select)) : Prop :=
  ∀ (i j : Nat) (a b : InList Select), es[i]? = some a → es[j]? = some b → i ≠ j → ¬ a.Rivals b

theorem noRivals_iff_pairwise (es : List (InList Select)) :
    NoRivals es ↔ es.Pairwise fun a b => ¬ a.Rivals b := by
  rw [List.pairwise_iff_getElem]
  constructor
  · intro h i j hi hj hij
    exact h i j _ _ (List.getElem?_eq_getElem hi) (List.getElem?_eq_getElem hj) (Nat.ne_of_lt hij)
  · intro h i j a b ha hb hij
    obtain ⟨hi, rfl⟩ := List.getElem?_eq_some_iff.1 ha
    obtain ⟨hj, rfl⟩ := List.getElem?_eq_some_iff.1 hb
    rcases Nat.lt_or_gt_of_ne hij with hlt | hgt
    · exact h i j hi hj hlt
    · exact fun rivals => h j i hj hi hgt rivals.symm

/-! ## Putting an entry -/

/-- Putting the entry `new` into some entries gives others: it comes last where it has no rival, and
otherwise a rival is replaced in its place, and nothing else changes.  The values for its key are
its values then, and the values for another key that has an entry of its own are what they were. -/
structure Put (new : InList Select) (es es' : List (InList Select)) : Prop where
  grows_iff : es' = es ++ [new] ↔ ∀ e ∈ es, ¬ e.Rivals new
  replaces : (∃ e ∈ es, e.Rivals new) →
    ∃ before e after, es = before ++ e :: after ∧ e.Rivals new ∧ es' = before ++ new :: after
  found : ∀ k, new.key = some k → valuesFor k es' = some new.values
  others : ∀ k, new.key ≠ some k → (∃ e ∈ es, e.key = some k) → valuesFor k es' = valuesFor k es

/-- The values for a key that has an entry are those of the first entry with that key. -/
theorem valuesFor_of_find {k : String} {es : List (InList Select)} {e : InList Select}
    (h : es.find? (fun e => e.key == some k) = some e) : valuesFor k es = some e.values := by
  rw [valuesFor, h, Option.some_or, Option.map_some]

theorem find_key_append_cons {k : String} {before after : List (InList Select)}
    {e : InList Select} (h : ∀ b ∈ before, b.key ≠ some k) (he : e.key = some k) :
    (before ++ e :: after).find? (fun e => e.key == some k) = some e := by
  have none : before.find? (fun e => e.key == some k) = none :=
    List.find?_eq_none.2 fun b hb => by simpa using h b hb
  rw [List.find?_append, none, Option.none_or, List.find?_cons_of_pos (by simpa using he)]

theorem find_key_append_cons_of_ne {k : String} (before after : List (InList Select))
    {e : InList Select} (he : e.key ≠ some k) :
    (before ++ e :: after).find? (fun e => e.key == some k) =
      (before ++ after).find? (fun e => e.key == some k) := by
  rw [List.find?_append, List.find?_append, List.find?_cons_of_neg (by simpa using he)]

theorem valuesFor_eq_of_find_eq {k : String} {es es' : List (InList Select)}
    (h : es'.find? (fun e => e.key == some k) = es.find? (fun e => e.key == some k))
    (hk : ∃ e ∈ es, e.key = some k) : valuesFor k es' = valuesFor k es := by
  obtain ⟨e, he, hek⟩ := hk
  have some' : (es.find? (fun e => e.key == some k)).isSome :=
    List.find?_isSome.2 ⟨e, he, by simpa using hek⟩
  obtain ⟨d, hd⟩ := Option.isSome_iff_exists.1 some'
  rw [valuesFor_of_find hd, valuesFor_of_find (h.trans hd)]

theorem not_rivals_iff {a b : InList Select} :
    ¬ a.Rivals b ↔ a.isAbout Select.same b.subject b.key = false := by
  rw [← isAbout_iff_rivals, Bool.not_eq_true]

/-- The two ways in which an entry is put. -/
theorem put_cases (new : InList Select) (es : List (InList Select)) :
    ((∀ e ∈ es, ¬ e.Rivals new) ∧
      put Select.same new.subject new.key new.values es = es ++ [new]) ∨
    ∃ before e after, es = before ++ e :: after ∧ (∀ b ∈ before, ¬ b.Rivals new) ∧ e.Rivals new ∧
      put Select.same new.subject new.key new.values es = before ++ new :: after := by
  rcases exists_first_isAbout Select.same new.subject new.key es with
    h | ⟨before, e, after, rfl, h, he⟩
  · exact .inl ⟨fun e he => not_rivals_iff.2 (h e he), put_of_forall_not h⟩
  · have rivals := isAbout_iff_rivals.1 he
    refine .inr ⟨before, e, after, rfl, fun b hb => not_rivals_iff.2 (h b hb), rivals, ?_⟩
    rw [put_append_cons after h he, rivals.key_eq]

theorem put_put (new : InList Select) (es : List (InList Select)) :
    Put new es (put Select.same new.subject new.key new.values es) := by
  rcases put_cases new es with ⟨none, h⟩ | ⟨before, e, after, rfl, first, rivals, h⟩
  · rw [h]
    refine ⟨iff_of_true rfl none, fun ⟨e, he, hr⟩ => absurd hr (none e he), fun k hk => ?_,
      fun k hk hkey => ?_⟩
    · refine valuesFor_of_find (find_key_append_cons (fun b hb hbk => ?_) hk)
      exact none b hb (.inl ⟨k, hbk, hk⟩)
    · refine valuesFor_eq_of_find_eq ?_ hkey
      rw [find_key_append_cons_of_ne es [] hk, List.append_nil]
  · rw [h]
    refine ⟨iff_of_false (fun grows => ?_) (fun none => none e ?_ rivals),
      fun _ => ⟨before, e, after, rfl, rivals, rfl⟩, fun k hk => ?_, fun k hk hkey => ?_⟩
    · have := congrArg List.length grows
      simp at this
    · exact List.mem_append_right _ List.mem_cons_self
    · refine valuesFor_of_find (find_key_append_cons (fun b hb hbk => ?_) hk)
      exact first b hb (.inl ⟨k, hbk, hk⟩)
    · refine valuesFor_eq_of_find_eq ?_ hkey
      rw [find_key_append_cons_of_ne before after hk,
        find_key_append_cons_of_ne before after (rivals.key_eq ▸ hk)]

/-- Putting an entry makes no rivals. -/
theorem noRivals_put (new : InList Select) {es : List (InList Select)} (h : NoRivals es) :
    NoRivals (put Select.same new.subject new.key new.values es) := by
  rw [noRivals_iff_pairwise] at h ⊢
  rcases put_cases new es with ⟨none, eq⟩ | ⟨before, e, after, rfl, first, rivals, eq⟩
  · rw [eq, List.pairwise_append]
    refine ⟨h, List.pairwise_singleton _ _, fun a ha b hb => ?_⟩
    rw [List.mem_singleton.1 hb]
    exact none a ha
  · rw [eq]
    rw [List.pairwise_append, List.pairwise_cons] at h ⊢
    obtain ⟨hbefore, ⟨he, hafter⟩, across⟩ := h
    refine ⟨hbefore, ⟨fun a ha hr => he a ha (rivals.trans hr), hafter⟩, fun b hb a ha => ?_⟩
    rcases List.mem_cons.1 ha with rfl | ha
    · exact first b hb
    · exact across b hb a (List.mem_cons_of_mem _ ha)

end InList

/-! ## The invariant -/

/-- No two lists of values of the node, of the same sign, are rivals. -/
def Conditions.OneEach (o : Conditions Select) : Prop :=
  ∀ negated, InList.NoRivals (o.lists negated)

/-- No node has two rivals. -/
def Predicate.OneEach (p : Predicate Select) : Prop :=
  ∀ n, p.HasNode n → n.own.OneEach

theorem Conditions.oneEach_of_lists_eq {o o' : Conditions Select}
    (h : ∀ negated, o'.lists negated = o.lists negated) (ho : o.OneEach) : o'.OneEach :=
  fun negated => h negated ▸ ho negated

theorem Conditions.oneEach_putList (negated : Bool) (new : InList Select) {o : Conditions Select}
    (h : o.OneEach) : (o.putList negated new.subject new.key new.values).OneEach := by
  intro negated'
  by_cases hb : negated' = negated
  · subst hb
    rw [lists_putList]
    exact InList.noRivals_put new (h _)
  · rw [(o.sameBut_putList negated new.subject new.key new.values).lists_eq
      (Kind.membership_ne hb)]
    exact h _

namespace Predicate

/-- What the nodes of a tree have in common is kept if the conditions of one node change to such as
have it too. -/
theorem forall_own_modifyOwn {q : Type} {P : Conditions q → Prop} {f : Conditions q → Conditions q}
    (hf : ∀ o, P o → P (f o)) (path : List Nat) {p : Predicate q} (h : ∀ n, p.HasNode n → P n.own) :
    ∀ n, (p.modifyAt (modifyOwn f) path).HasNode n → P n.own := by
  rintro n ⟨other, hn⟩
  by_cases hp : other = path
  · subst hp
    rw [at?_modifyAt] at hn
    obtain ⟨m, hm, rfl⟩ := Option.map_eq_some_iff.1 hn
    have kept := hf m.own (h m ⟨_, hm⟩)
    cases m
    exact kept
  · have own := map_own_at?_modifyOwn f hp p
    rw [hn, Option.map_some] at own
    obtain ⟨m, hm, hown⟩ := Option.map_eq_some_iff.1 own.symm
    exact hown ▸ h m ⟨_, hm⟩

end Predicate

namespace Cursor

theorem oneEach_step {c c' : Cursor} {call : Call} (placed : c.IsPlaced) (h : c.root.OneEach)
    (step : c.Step call c') : c'.root.OneEach := by
  cases step with
  | add he =>
    refine Predicate.forall_own_modifyOwn (fun o ho => ?_) c.path h
    refine Conditions.oneEach_of_lists_eq (fun negated => ?_) ho
    exact (o.sameBut_setEntries _ _).lists_eq (Kind.ne_membership_of_addition he negated)
  | put negated column values =>
    refine Predicate.forall_own_modifyOwn (fun o ho => ?_) c.path h
    exact Conditions.oneEach_putList negated ⟨c.resolve column, column.key, values⟩ ho
  | setConjunction | setTable =>
    refine Predicate.forall_own_modifyOwn (fun o ho => ?_) c.path h
    exact Conditions.oneEach_of_lists_eq (fun _ => rfl) ho
  | enterGroup | leaveGroup => exact h
  | @openGroup a k hk =>
    have touches := touches_openGroup placed hk
    rintro n ⟨path, hn⟩
    by_cases hp : path ∈ (Call.openGroup a).opens c
    · -- the group that has been opened has no entries at all
      obtain ⟨-, a', k', -, -, opened⟩ := touches.opened path hp
      rw [opened] at hn
      cases hn
      intro negated i j a b ha
      cases negated <;> cases ha
    · have own : ((c.openGroup k).root.at? path).map Predicate.own =
          (c.root.at? path).map Predicate.own :=
        Predicate.map_own_at?_appendGroup _ placed.at?_node fun eq => hp (eq ▸ rfl)
      rw [hn, Option.map_some] at own
      obtain ⟨m, hm, hown⟩ := Option.map_eq_some_iff.1 own.symm
      exact hown ▸ h m ⟨path, hm⟩

theorem oneEach_run (calls : List Call) {c : Cursor} (placed : c.IsPlaced) (h : c.root.OneEach) :
    (c.run calls).1.root.OneEach := by
  have kept : (c.run calls).1.IsPlaced ∧ (c.run calls).1.root.OneEach :=
    run_induction (P := fun d => d.IsPlaced ∧ d.root.OneEach)
      (fun hd step => ⟨isPlaced_step hd.1 step, oneEach_step hd.1 hd.2 step⟩) calls ⟨placed, h⟩
  exact kept.2

/-- A call for a list of values puts it into the bucket of its sign, and nothing else changes. -/
theorem put_inList {c : Cursor} (placed : c.IsPlaced) (negated : Bool) (column : ColumnArg)
    (values : List Value) :
    ∃ c', c.apply (.inList negated column values) = .ok c' ∧
      c.node.own.SameBut (.membership negated) c'.node.own ∧
      InList.Put ⟨c.resolve column, column.key, values⟩ (c.node.own.lists negated)
        (c'.node.own.lists negated) := by
  refine ⟨_, rfl, ?_⟩
  have node : (c.modifyOwn (Conditions.putList negated (c.resolve column) column.key values)).node =
      c.node.modifyOwn (Conditions.putList negated (c.resolve column) column.key values) :=
    node_eq (at?_modify placed _)
  have own : (c.modifyOwn (Conditions.putList negated (c.resolve column) column.key
      values)).node.own = c.node.own.putList negated (c.resolve column) column.key values := by
    rw [node]
    cases c.node
    rfl
  refine ⟨?_, ?_⟩
  · refine own ▸ c.node.own.sameBut_putList negated _ _ values
  · refine own ▸ ?_
    rw [Conditions.lists_putList]
    exact InList.put_put ⟨c.resolve column, column.key, values⟩ _

end Cursor

namespace Filtered

variable {σ : Type} [Filtered σ]

/-- The lists of values of every node are a map in the order of insertion whose last write wins.  No
calls make two rivals where there were none.  After any calls, a call for a list of values puts it
among those of its sign and changes nothing else of the node: it comes last if and only if it has no
rival there, and otherwise takes the place of its rival; its key then has its values, and other keys
with an entry keep theirs. -/
theorem lists_are_last_write_wins (s : σ) (calls : List Call) :
    ((cursor s).root.OneEach → (reach s calls).root.OneEach) ∧
    ∀ negated column values, ∃ c, (reach s calls).apply (.inList negated column values) = .ok c ∧
      (reach s calls).node.own.SameBut (.membership negated) c.node.own ∧
      InList.Put ⟨(reach s calls).resolve column, column.key, values⟩
        ((reach s calls).node.own.lists negated) (c.node.own.lists negated) :=
  ⟨Cursor.oneEach_run calls ⟨_, rfl⟩, Cursor.put_inList (isPlaced_reach s calls)⟩

/-- A DELETE with two lists of values, one for a column and one for a nested SELECT. -/
def deleteListed : Delete :=
  { table := some { name := "t" }
    filter := some (.node
      { among := [⟨.column { name := "a" }, some "a", [.int 1]⟩,
          ⟨.subquery (.ofTable { name := "u" }), none, [.int 2]⟩] } []) }

theorem oneEach_deleteListed : (cursor deleteListed).root.OneEach := by
  refine (Predicate.forall_hasNode_node _ _).2 ⟨fun negated => ?_, List.forall_mem_nil _⟩
  rw [InList.noRivals_iff_pairwise]
  cases negated with
  | true => exact List.Pairwise.nil
  | false =>
    refine List.pairwise_pair.2 fun rivals => ?_
    cases rivals.key_eq

theorem lists_are_last_write_wins_deleteListed :
    (cursor deleteListed).root.OneEach ∧
    (reach deleteListed [.inList false (.name "a") [.int 3], .openGroup (.value .or),
      .inList true (.name "a") []]).root.OneEach ∧
    ∃ c, (cursor deleteListed).apply (.inList false (.name "a") [.int 3]) = .ok c ∧
      c.node.own.among.length = 2 ∧ InList.valuesFor "a" c.node.own.among = some [.int 3] := by
  refine ⟨oneEach_deleteListed, (lists_are_last_write_wins deleteListed _).1 oneEach_deleteListed,
    ?_⟩
  obtain ⟨c, hc, -, put⟩ :=
    (lists_are_last_write_wins deleteListed []).2 false (.name "a") [.int 3]
  refine ⟨c, hc, ?_, put.found "a" rfl⟩
  cases hc
  rfl

end Filtered

end SqlBuilder
