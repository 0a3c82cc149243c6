import SqlBuilder.Proofs.Rendering

/-!
# Values never influence SQL text

`Alike R` relates two statements that are equal except for their bind values, where `R` holds
between the values that stand at the same place.  Their scripts are then equal except for the bind
values, and these are related again by `R`, in order.  As `R` is arbitrary (take the pairs of values
that stand at the same place), the k-th parameters of two builds are the values of one place.
-/

namespace SqlBuilder

variable {q r : Type}

/-! ## Statements that differ in bind values -/

section Alike

variable (R : Value → Value → Prop) (Q : q → r → Prop)

/-- Equal terms, but for nested SELECTs, which are related. -/
inductive Term.Alike : Term q → Term r → Prop
  | column (c) : Alike (.column c) (.column c)
  | subquery {s t} : Q s t → Alike (.subquery s) (.subquery t)

/-- Operands of one kind: related values, equal columns, or related SELECTs. -/
inductive Operand.Alike : Operand q → Operand r → Prop
  | value {v w} : R v w → Alike (.value v) (.value w)
  | column (c) : Alike (.column c) (.column c)
  | subquery {s t} : Q s t → Alike (.subquery s) (.subquery t)

/-- Comparisons by one operator of terms and operands that are alike, or equal literals. -/
inductive Test.Alike : Test q → Test r → Prop
  | comparison {s s' o t t'} : Term.Alike Q s s' → Operand.Alike R Q t t' →
    Alike (.comparison ⟨s, o, t⟩) (.comparison ⟨s', o, t'⟩)
  | literal (sql) : Alike (.literal sql) (.literal sql)

/-- Ranges whose subjects are alike and whose bounds are related. -/
inductive Range.Alike : Range q → Range r → Prop
  | mk {s s' v v' w w'} : Term.Alike Q s s' → R v v' → R w w' → Alike ⟨s, v, w⟩ ⟨s', v', w'⟩

/-- Flags whose subjects are alike and whose values are related. -/
inductive Flag.Alike : Flag q → Flag r → Prop
  | mk {s s' v v'} : Term.Alike Q s s' → R v v' → Alike ⟨s, v⟩ ⟨s', v'⟩

/-- Searches in one mode with as many columns, which are alike, and as many terms, which are
related. -/
inductive TextMatch.Alike : TextMatch q → TextMatch r → Prop
  | mk {cs cs' vs vs' m} : List.Forall₂ (Term.Alike Q) cs cs' → List.Forall₂ R vs vs' →
    Alike ⟨cs, vs, m⟩ ⟨cs', vs', m⟩

/-- Lists with one key and as many values, which are related, and with subjects that are alike. -/
inductive InList.Alike : InList q → InList r → Prop
  | mk {s s' k vs vs'} : Term.Alike Q s s' → List.Forall₂ R vs vs' →
    Alike ⟨s, k, vs⟩ ⟨s', k, vs'⟩

/-- Nodes with one conjunction and one table, whose entries are alike kind by kind. -/
inductive Conditions.Alike : Conditions q → Conditions r → Prop
  | mk {conjunction table matching matching' among among' notAmong notAmong' between between'
      notBetween notBetween' tests tests' isNull isNull' isNotNull isNotNull' flags flags' someRow
      someRow' noRow noRow'} :
    List.Forall₂ (TextMatch.Alike R Q) matching matching' →
    List.Forall₂ (InList.Alike R Q) among among' →
    List.Forall₂ (InList.Alike R Q) notAmong notAmong' →
    List.Forall₂ (Range.Alike R Q) between between' →
    List.Forall₂ (Range.Alike R Q) notBetween notBetween' →
    List.Forall₂ (Test.Alike R Q) tests tests' →
    List.Forall₂ (Term.Alike Q) isNull isNull' →
    List.Forall₂ (Term.Alike Q) isNotNull isNotNull' →
    List.Forall₂ (Flag.Alike R Q) flags flags' →
    List.Forall₂ Q someRow someRow' →
    List.Forall₂ Q noRow noRow' →
    Alike
      ⟨conjunction, table, matching, among, notAmong, between, notBetween, tests, isNull,
        isNotNull, flags, someRow, noRow⟩
      ⟨conjunction, table, matching', among', notAmong', between', notBetween', tests', isNull',
        isNotNull', flags', someRow', noRow'⟩

/-- Predicates of one shape whose nodes are alike. -/
inductive Predicate.Alike : Predicate q → Predicate r → Prop
  | node {own own' groups groups'} : Conditions.Alike R Q own own' →
    List.Forall₂ Alike groups groups' → Alike (.node own groups) (.node own' groups')

/-- Sort keys of one direction whose terms are alike. -/
inductive SortKey.Alike : SortKey q → SortKey r → Prop
  | mk {t t' d} : Term.Alike Q t t' → Alike ⟨t, d⟩ ⟨t', d⟩

/-- SELECTs from one table with equal limits, whose lists, predicates and sort keys are alike. -/
inductive SelectOver.Alike : SelectOver q → SelectOver r → Prop
  | mk {t cs cs' f f' ks ks' l o} : List.Forall₂ (Term.Alike Q) cs cs' →
    Option.Rel (Predicate.Alike R Q) f f' → List.Forall₂ (SortKey.Alike Q) ks ks' →
    Alike ⟨t, cs, f, ks, l, o⟩ ⟨t, cs', f', ks', l, o⟩

/-- Equal SELECTs, but for bind values at any depth, which are related by `R`. -/
inductive Select.Alike : Select → Select → Prop
  | of {a b} : SelectOver.Alike R Alike a b → Alike (.of a) (.of b)

/-- Assignments of related values to one column. -/
inductive Assignment.Alike : Assignment → Assignment → Prop
  | mk {c v w} : R v w → Alike ⟨c, v⟩ ⟨c, w⟩

/-- Equal statements, but for bind values at any depth, which are related by `R`. -/
inductive Statement.Alike : Statement → Statement → Prop
  | select {a b} : Select.Alike R a b → Alike (.select a) (.select b)
  | insert {t vs vs' i} : List.Forall₂ (Assignment.Alike R) vs vs' →
    Alike (.insert ⟨t, vs, i⟩) (.insert ⟨t, vs', i⟩)
  | update {t vs vs' f f'} : List.Forall₂ (Assignment.Alike R) vs vs' →
    Option.Rel (Predicate.Alike R (Select.Alike R)) f f' →
    Alike (.update ⟨t, vs, f⟩) (.update ⟨t, vs', f'⟩)
  | delete {t f f' a} : Option.Rel (Predicate.Alike R (Select.Alike R)) f f' →
    Alike (.delete ⟨t, f, a⟩) (.delete ⟨t, f', a⟩)
  | setOperation {o ms ms'} : List.Forall₂ (Select.Alike R) ms ms' →
    Alike (.setOperation ⟨o, ms⟩) (.setOperation ⟨o, ms'⟩)

/-- Two builds with the same error, or with the same text and related parameters. -/
inductive Built.Alike : Except BuildError Built → Except BuildError Built → Prop
  | error (e) : Alike (.error e) (.error e)
  | ok {sql ps qs} : List.Forall₂ R ps qs → Alike (.ok ⟨sql, ps⟩) (.ok ⟨sql, qs⟩)

/-- Equal pieces, but for bind values, which are related. -/
inductive Piece.Alike : Piece → Piece → Prop
  | param {v w} : R v w → Alike (.param v) (.param w)
  | same {p} : p.value? = none → Alike p p

/-- Scripts with the same outcome whose pieces differ in bind values only. -/
structure Script.Alike (s t : Script) : Prop where
  pieces : List.Forall₂ (Piece.Alike R) s.pieces t.pieces
  outcome : s.outcome = t.outcome

end Alike

variable {R : Value → Value → Prop} {Q : q → r → Prop}

theorem isEmpty_eq_of_forall₂ {α β : Type} {rel : α → β → Prop} {l : List α} {l' : List β}
    (h : List.Forall₂ rel l l') : l.isEmpty = l'.isEmpty := by
  cases h <;> rfl

/-! ## Scripts that differ in bind values -/

namespace Piece

theorem Alike.write_eq {p p' : Piece} (h : p.Alike R p') (style : Style) (n : Nat) :
    p.write style n = p'.write style n := by
  cases h with
  | param h => rfl
  | same h => rfl

theorem Alike.values {p p' : Piece} (h : p.Alike R p') :
    List.Forall₂ R (values [p]) (values [p']) := by
  cases h with
  | param h => exact .cons h .nil
  | same h =>
    rw [Piece.values, List.filterMap_cons_none h]
    exact .nil

theorem forall₂_values {ps ps' : List Piece} (h : List.Forall₂ (Alike R) ps ps') :
    List.Forall₂ R (values ps) (values ps') := by
  induction h with
  | nil => exact .nil
  | @cons p p' ps ps' hp _ ih =>
    rw [values_cons p, values_cons p']
    exact List.rel_append hp.values ih

theorem printed_eq_of_alike {ps ps' : List Piece} (h : List.Forall₂ (Alike R) ps ps')
    (style : Style) (n : Nat) : printed style n ps = printed style n ps' := by
  induction h generalizing n with
  | nil => rfl
  | cons hp _ ih => rw [printed, printed, hp.write_eq, hp.values.length_eq, ih]

end Piece

namespace Script

theorem alike_self {s : Script} (h : Piece.values s.pieces = []) : s.Alike R s :=
  ⟨List.forall₂_same.2 fun p hp => .same (List.filterMap_eq_nil_iff.1 h p hp), rfl⟩

theorem Alike.append {a a' b b' : Script} (ha : a.Alike R a') (hb : b.Alike R b') :
    (a ++ b).Alike R (a' ++ b') := by
  rcases h : a.outcome with e | ⟨⟩
  · rw [append_of_error h, append_of_error (ha.outcome ▸ h)]
    exact ha
  · rw [append_of_ok h, append_of_ok (ha.outcome ▸ h)]
    exact ⟨List.rel_append ha.pieces hb.pieces, hb.outcome⟩

theorem alike_text (t : String) : (text t).Alike R (text t) :=
  alike_self rfl

theorem alike_empty : (∅ : Script).Alike R ∅ :=
  alike_self rfl

theorem alike_fail (e : BuildError) : (fail e).Alike R (fail e) :=
  alike_self rfl

theorem Alike.opened {a a' : Script} (t : String) (h : a.Alike R a') :
    (text t ++ a).Alike R (text t ++ a') :=
  (alike_text t).append h

theorem Alike.closed {a a' : Script} (h : a.Alike R a') (t : String) :
    (a ++ text t).Alike R (a' ++ text t) :=
  h.append (alike_text t)

theorem Alike.link {a a' b b' : Script} (ha : a.Alike R a') (t : String) (hb : b.Alike R b') :
    (a ++ text t ++ b).Alike R (a' ++ text t ++ b') :=
  (ha.closed t).append hb

theorem Alike.ite {c : Prop} [Decidable c] {a a' b b' : Script} (ha : a.Alike R a')
    (hb : b.Alike R b') : (if c then a else b).Alike R (if c then a' else b') := by
  split_ifs
  · exact ha
  · exact hb

theorem Alike.parenthesized {a a' : Script} (h : a.Alike R a') :
    a.parenthesized.Alike R a'.parenthesized :=
  (h.opened "(").closed ")"

theorem alike_param {v w : Value} (h : R v w) : (param v).Alike R (param w) :=
  ⟨.cons (.param h) .nil, rfl⟩

theorem alike_separated (separator : String) {ss ss' : List Script}
    (h : List.Forall₂ (Script.Alike R) ss ss') :
    (separated separator ss).Alike R (separated separator ss') := by
  induction h with
  | nil => exact alike_empty
  | cons ha hr ih =>
    cases hr with
    | nil => exact ha
    | cons hb hr =>
      rw [separated_cons_cons, separated_cons_cons]
      exact ha.link separator ih

theorem alike_params {vs ws : List Value} (h : List.Forall₂ R vs ws) :
    (params vs).Alike R (params ws) := by
  refine alike_separated ", " ?_
  rw [List.forall₂_map_left_iff, List.forall₂_map_right_iff]
  exact h.imp fun _ _ => alike_param

end Script

/-! ## Entries that differ in bind values -/

section Entries

variable {f : q → Script} {g : r → Script}

theorem Term.Alike.script {t : Term q} {t' : Term r} (h : t.Alike Q t')
    (hq : ∀ s ∈ t.nested, ∀ s', Q s s' → (f s).Alike R (g s')) :
    (t.map f).script.Alike R (t'.map g).script := by
  cases h with
  | column c => exact Script.alike_self (Script.values_column c)
  | subquery h => exact (hq _ (List.mem_singleton_self _) _ h).parenthesized

theorem Operand.Alike.script {o : Operand q} {o' : Operand r} (h : o.Alike R Q o')
    (hq : ∀ s ∈ o.nested, ∀ s', Q s s' → (f s).Alike R (g s')) :
    (o.map f).script.Alike R (o'.map g).script := by
  cases h with
  | value h => exact Script.alike_param h
  | column c => exact Script.alike_self (Script.values_column c)
  | subquery h => exact (hq _ (List.mem_singleton_self _) _ h).parenthesized

theorem Test.Alike.script {t : Test q} {t' : Test r} (h : t.Alike R Q t')
    (hq : ∀ s ∈ t.nested, ∀ s', Q s s' → (f s).Alike R (g s')) :
    (t.map f).script.Alike R (t'.map g).script := by
  cases h with
  | comparison hs ht =>
    have subject := hs.script (R := R) fun s m => hq s (List.mem_append_left _ m)
    have target := ht.script fun s m => hq s (List.mem_append_right _ m)
    exact ((subject.link " " (Script.alike_text _)).link " " target).parenthesized
  | literal sql => exact Script.alike_self rfl

theorem Range.Alike.script (negated : Bool) {e : Range q} {e' : Range r} (h : e.Alike R Q e')
    (hq : ∀ s ∈ e.nested, ∀ s', Q s s' → (f s).Alike R (g s')) :
    ((e.map f).script negated).Alike R ((e'.map g).script negated) := by
  obtain ⟨hs, hv, hw⟩ := h
  exact (((hs.script hq).link _ (Script.alike_param hv)).link " AND "
    (Script.alike_param hw)).parenthesized

theorem Flag.Alike.script {e : Flag q} {e' : Flag r} (h : e.Alike R Q e')
    (hq : ∀ s ∈ e.nested, ∀ s', Q s s' → (f s).Alike R (g s')) :
    (e.map f).script.Alike R (e'.map g).script := by
  obtain ⟨hs, hv⟩ := h
  exact (((hs.script hq).opened "(COALESCE(").link ", 0) = " (Script.alike_param hv)).closed ")"

theorem Term.Alike.nullTestScript (negated : Bool) {t : Term q} {t' : Term r} (h : t.Alike Q t')
    (hq : ∀ s ∈ t.nested, ∀ s', Q s s' → (f s).Alike R (g s')) :
    ((t.map f).nullTestScript negated).Alike R ((t'.map g).nullTestScript negated) :=
  ((h.script hq).opened "(").closed _

theorem InList.Alike.script (negated : Bool) {e : InList q} {e' : InList r} (h : e.Alike R Q e')
    (hq : ∀ s ∈ e.nested, ∀ s', Q s s' → (f s).Alike R (g s')) :
    ((e.map f).script negated).Alike R ((e'.map g).script negated) := by
  obtain ⟨hs, hvs⟩ := h
  cases hvs with
  | nil => exact Script.alike_text _
  | cons hv hvs =>
    exact (((hs.script hq).opened "(").link _ (Script.alike_params (.cons hv hvs))).closed "))"

theorem forall₂_map_map_of_mem {α β γ δ : Type} {rel : α → β → Prop} {S : γ → δ → Prop}
    {u : α → γ} {v : β → δ} {l : List α} {l' : List β} (h : List.Forall₂ rel l l')
    (hs : ∀ x ∈ l, ∀ y, rel x y → S (u x) (v y)) : List.Forall₂ S (l.map u) (l'.map v) := by
  rw [List.forall₂_map_left_iff, List.forall₂_map_right_iff]
  exact ((List.forall₂_and_left _ _).2 ⟨hs, h⟩).imp fun x y hxy => hxy.1 y hxy.2

theorem TextMatch.Alike.script {e : TextMatch q} {e' : TextMatch r} (h : e.Alike R Q e')
    (hq : ∀ s ∈ e.nested, ∀ s', Q s s' → (f s).Alike R (g s')) :
    (e.map f).script.Alike R (e'.map g).script := by
  obtain ⟨hcs, hvs⟩ := h
  have columns := Script.alike_separated (R := R) ", " (forall₂_map_map_of_mem hcs fun t ht t' h =>
    h.script (f := f) (g := g) fun s hs => hq s (List.mem_flatMap.2 ⟨t, ht, hs⟩))
  unfold TextMatch.script TextMatch.map
  simp only [List.isEmpty_map, List.length_map, List.map_map, isEmpty_eq_of_forall₂ hcs,
    hcs.length_eq, hvs.length_eq]
  exact (Script.alike_fail _).ite ((((columns.opened "(MATCH(").link ") AGAINST("
    (Script.alike_params hvs)).closed _).closed "))")

theorem Conditions.Alike.clauseScripts {c : Conditions q} {c' : Conditions r} (h : c.Alike R Q c')
    (hq : ∀ s ∈ c.nested, ∀ s', Q s s' → (f s).Alike R (g s')) :
    List.Forall₂ (Script.Alike R) (c.map f).clauseScripts (c'.map g).clauseScripts := by
  obtain ⟨matching, among, notAmong, between, notBetween, tests, isNull, isNotNull, flags, someRow,
    noRow⟩ := c.forall_mem_nested.1 hq
  obtain ⟨hm, ha, hna, hb, hnb, ht, hn, hnn, hf, hs, hns⟩ := h
  unfold Conditions.clauseScripts Conditions.map
  simp only [List.map_map]
  refine List.rel_append (List.rel_append (List.rel_append (List.rel_append (List.rel_append
    (List.rel_append (List.rel_append (List.rel_append (List.rel_append (List.rel_append
      ?_ ?_) ?_) ?_) ?_) ?_) ?_) ?_) ?_) ?_) ?_
  · exact forall₂_map_map_of_mem hm fun e he e' h => h.script (matching e he)
  · exact forall₂_map_map_of_mem ha fun e he e' h => h.script false (among e he)
  · exact forall₂_map_map_of_mem hna fun e he e' h => h.script true (notAmong e he)
  · exact forall₂_map_map_of_mem hb fun e he e' h => h.script false (between e he)
  · exact forall₂_map_map_of_mem hnb fun e he e' h => h.script true (notBetween e he)
  · exact forall₂_map_map_of_mem ht fun t ht t' h => h.script (tests t ht)
  · exact forall₂_map_map_of_mem hn fun t ht t' h => h.nullTestScript false (isNull t ht)
  · exact forall₂_map_map_of_mem hnn fun t ht t' h => h.nullTestScript true (isNotNull t ht)
  · exact forall₂_map_map_of_mem hf fun e he e' h => h.script (flags e he)
  · exact forall₂_map_map_of_mem hs fun s hs s' h => (someRow s hs s' h).parenthesized.opened _
  · exact forall₂_map_map_of_mem hns fun s hs s' h => (noRow s hs s' h).parenthesized.opened _

theorem Conditions.Alike.isEmpty_eq {c : Conditions q} {c' : Conditions r} (h : c.Alike R Q c') :
    c.isEmpty = c'.isEmpty := by
  obtain ⟨hm, ha, hna, hb, hnb, ht, hn, hnn, hf, hs, hns⟩ := h
  simp only [Conditions.isEmpty, isEmpty_eq_of_forall₂ hm, isEmpty_eq_of_forall₂ ha,
    isEmpty_eq_of_forall₂ hna, isEmpty_eq_of_forall₂ hb, isEmpty_eq_of_forall₂ hnb,
    isEmpty_eq_of_forall₂ ht, isEmpty_eq_of_forall₂ hn, isEmpty_eq_of_forall₂ hnn,
    isEmpty_eq_of_forall₂ hf, isEmpty_eq_of_forall₂ hs, isEmpty_eq_of_forall₂ hns]

namespace Predicate

theorem any_hasClauses_eq {ps : List (Predicate q)} {ps' : List (Predicate r)}
    (h : List.Forall₂ (fun p p' => p.hasClauses = p'.hasClauses) ps ps') :
    ps.any hasClauses = ps'.any hasClauses := by
  induction h with
  | nil => rfl
  | cons hp _ ih => rw [List.any_cons, List.any_cons, hp, ih]

theorem Alike.hasClauses_eq {p : Predicate q} {p' : Predicate r} (h : p.Alike R Q p') :
    p.hasClauses = p'.hasClauses := by
  induction p using Predicate.induction generalizing p' with
  | node own groups ih =>
    obtain ⟨hown, hgroups⟩ := h
    rw [hasClauses_node, hasClauses_node, hown.isEmpty_eq]
    congr 1
    exact any_hasClauses_eq (((List.forall₂_and_left _ _).2 ⟨ih, hgroups⟩).imp
      fun g g' h => h.1 h.2)

theorem Alike.script {p : Predicate q} {p' : Predicate r} (h : p.Alike R Q p')
    (hq : ∀ s ∈ p.nested, ∀ s', Q s s' → (f s).Alike R (g s')) :
    (p.map f).script.Alike R (p'.map g).script := by
  induction p using Predicate.induction generalizing p' with
  | node own groups ih =>
    obtain ⟨inOwn, inGroups⟩ := (forall_mem_nested own groups).1 hq
    obtain @⟨own, own', groups, groups', hown, hgroups⟩ := h
    have conjunction : (own.map f).conjunction = (own'.map g).conjunction := by
      cases hown
      rfl
    have ofGroups : ∀ ps ps', (∀ p ∈ ps, p ∈ groups) → List.Forall₂ (Alike R Q) ps ps' →
        List.Forall₂ (Script.Alike R) (groupScripts (ps.map (map f)))
          (groupScripts (ps'.map (map g))) := by
      intro ps ps' hps h
      induction h with
      | nil => exact .nil
      | @cons p p' ps ps' hp _ ihps =>
        obtain ⟨hmem, hps⟩ := List.forall_mem_cons.1 hps
        rw [List.map_cons, List.map_cons, groupScripts, groupScripts, hasClauses_map,
          hasClauses_map, hp.hasClauses_eq]
        split_ifs
        · exact .cons (ih p hmem hp (inGroups p hmem)).parenthesized (ihps hps)
        · exact ihps hps
    rw [map_node, map_node, Predicate.script, Predicate.script, conjunction]
    exact Script.alike_separated _ (List.rel_append (hown.clauseScripts inOwn)
      (ofGroups groups groups' (fun _ h => h) hgroups))

theorem whereScript_alike {p : Option (Predicate q)} {p' : Option (Predicate r)} {s s' : Script}
    (h : Option.Rel (Alike R Q) p p')
    (hq : ∀ x ∈ p, ∀ s ∈ x.nested, ∀ s', Q s s' → (f s).Alike R (g s')) (hs : s.Alike R s') :
    (whereScript (p.map (map f)) s).Alike R (whereScript (p'.map (map g)) s') := by
  cases h with
  | none => exact hs
  | @some p p' hp =>
    unfold whereScript
    rw [Option.map_some, Option.map_some, Option.filter_some, Option.filter_some, hasClauses_map,
      hasClauses_map, hp.hasClauses_eq]
    by_cases hc : p'.hasClauses
    · rw [if_pos hc, if_pos hc]
      exact (hp.script (hq p rfl)).opened " WHERE "
    · rw [if_neg hc, if_neg hc]
      exact hs

end Predicate

theorem Term.Alike.selectedScript {t : Term q} {t' : Term r} (h : t.Alike Q t')
    (hq : ∀ s ∈ t.nested, ∀ s', Q s s' → (f s).Alike R (g s')) :
    (t.map f).selectedScript.Alike R (t'.map g).selectedScript := by
  refine (h.script hq).append ?_
  cases h with
  | column c =>
    refine Script.alike_self ?_
    obtain ⟨name, _ | aliasName, table⟩ := c <;> rfl
  | subquery h => exact Script.alike_empty

theorem SortKey.Alike.script {k : SortKey q} {k' : SortKey r} (h : k.Alike Q k')
    (hq : ∀ s ∈ k.nested, ∀ s', Q s s' → (f s).Alike R (g s')) :
    (k.map f).script.Alike R (k'.map g).script := by
  obtain ⟨ht⟩ := h
  exact (ht.script hq).link " " (Script.alike_text _)

end Entries

/-! ## Statements that differ in bind values -/

namespace Script

theorem alike_withTable (kind : String) (t : Option Table) {k k' : Table → Script}
    (h : ∀ t, (k t).Alike R (k' t)) : (withTable kind t k).Alike R (withTable kind t k') := by
  cases t with
  | some t => exact h t
  | none => exact alike_fail _

theorem alike_table (t : Table) : (table t).Alike R (table t) :=
  alike_self (values_table t)

theorem alike_countScript (keyword : String) (n : Option UInt64) :
    (countScript keyword n).Alike R (countScript keyword n) := by
  cases n <;> exact alike_self rfl

end Script

theorem SelectOver.Alike.script {f : q → Script} {g : r → Script} {a : SelectOver q}
    {b : SelectOver r} (h : a.Alike R Q b)
    (hq : ∀ s ∈ a.nested, ∀ s', Q s s' → (f s).Alike R (g s')) :
    (a.map f).script.Alike R (b.map g).script := by
  obtain ⟨inColumns, inFilter, inOrder⟩ := a.forall_mem_nested.1 hq
  obtain @⟨t, cs, cs', p, p', ks, ks', limit, offset, hcs, hp, hks⟩ := h
  have columns := Script.alike_separated (R := R) ", " (forall₂_map_map_of_mem hcs fun t ht t' h =>
    h.selectedScript (f := f) (g := g) (inColumns t ht))
  have order := Script.alike_separated (R := R) ", " (forall₂_map_map_of_mem hks fun k hk k' h =>
    h.script (f := f) (g := g) (inOrder k hk))
  have filter := Predicate.whereScript_alike hp inFilter Script.alike_empty
  unfold SelectOver.script SelectOver.map
  simp only [List.isEmpty_map, List.map_map, isEmpty_eq_of_forall₂ hcs, isEmpty_eq_of_forall₂ hks]
  refine Script.alike_withTable "SELECT" t fun t => ?_
  refine (((Script.Alike.link ?_ " FROM " (Script.alike_table t)).append filter).append ?_).append
    (Script.alike_countScript _ _) |>.append (Script.alike_countScript _ _)
  · exact ((Script.alike_text "*").ite columns).opened "SELECT "
  · exact Script.alike_empty.ite (order.opened " ORDER BY ")

theorem Select.Alike.script {a b : Select} (h : a.Alike R b) : a.script.Alike R b.script := by
  induction a using Select.induction generalizing b with
  | of form ih =>
    obtain @⟨form, form', h⟩ := h
    rw [script_of, script_of]
    exact h.script fun s hs s' => ih s hs

theorem Assignment.Alike.script {a b : Assignment} (h : a.Alike R b) :
    a.script.Alike R b.script := by
  obtain ⟨h⟩ := h
  exact (Script.alike_self (s := .ident _) rfl).link " = " (Script.alike_param h)

theorem whereScript_select_alike {p p' : Option (Predicate Select)} {s s' : Script}
    (h : Option.Rel (Predicate.Alike R (Select.Alike R)) p p') (hs : s.Alike R s') :
    (Predicate.whereScript (p.map (Predicate.map Select.script)) s).Alike R
      (Predicate.whereScript (p'.map (Predicate.map Select.script)) s') :=
  Predicate.whereScript_alike h (fun _ _ _ _ _ h => h.script) hs

theorem Statement.Alike.script {a b : Statement} (h : a.Alike R b) :
    a.script.Alike R b.script := by
  cases h with
  | select h => exact h.script
  | @insert t vs vs' ignore hvs =>
    have values : List.Forall₂ R (vs.map Assignment.value) (vs'.map Assignment.value) :=
      forall₂_map_map_of_mem hvs fun _ _ _ ⟨h⟩ => h
    have columns : (Script.separated ", " (vs.map fun a => .ident a.column)).Alike R
        (Script.separated ", " (vs'.map fun a => .ident a.column)) :=
      Script.alike_separated _ (forall₂_map_map_of_mem hvs fun _ _ _ ⟨_⟩ => Script.alike_self rfl)
    change (Insert.script ⟨t, vs, ignore⟩).Alike R (Insert.script ⟨t, vs', ignore⟩)
    unfold Insert.script
    simp only [isEmpty_eq_of_forall₂ hvs]
    have table := (Script.alike_self (R := R) (s := .ident t.name) rfl).opened "INSERT INTO "
    have row := (table.link " (" columns).link ") VALUES (" (Script.alike_params values)
    exact (Script.alike_fail _).ite ((row.closed ")").append
      ((Script.alike_text _).ite Script.alike_empty))
  | @update t vs vs' p p' hvs hp =>
    have values := Script.alike_separated (R := R) ", "
      (forall₂_map_map_of_mem hvs fun _ _ _ h => h.script)
    change (Update.script ⟨t, vs, p⟩).Alike R (Update.script ⟨t, vs', p'⟩)
    unfold Update.script
    simp only [isEmpty_eq_of_forall₂ hvs]
    refine Script.alike_withTable "UPDATE" t fun t => ?_
    exact (Script.alike_fail _).ite ((((Script.alike_table t).opened "UPDATE ").link " SET "
      values).append (whereScript_select_alike hp Script.alike_empty))
  | @delete t p p' all hp =>
    refine Script.alike_withTable "DELETE" t fun t => ?_
    exact ((Script.alike_table t).opened "DELETE FROM ").append
      (whereScript_select_alike hp (Script.alike_empty.ite (Script.alike_text _)))
  | @setOperation o ms ms' hms =>
    change (SetOperation.script ⟨o, ms⟩).Alike R (SetOperation.script ⟨o, ms'⟩)
    unfold SetOperation.script
    simp only [hms.length_eq]
    exact (Script.alike_fail _).ite (Script.alike_separated _
      (forall₂_map_map_of_mem hms fun _ _ _ h => h.script.parenthesized))

/-- Two statements that are equal except for bind values fail to build with the same error, or both
build to the same text, with parameters that are related as the bind values are. -/
theorem buildWith_alike {a b : Statement} (h : a.Alike R b) (style : Style) :
    Built.Alike R (Renderable.buildWith style a) (Renderable.buildWith style b) := by
  obtain ⟨pieces, outcome⟩ := h.script
  rw [Renderable.buildWith_of_emits a.emits_write, Renderable.buildWith_of_emits b.emits_write,
    outcome]
  rcases b.script.outcome with e | ⟨⟩
  · exact .error e
  · rw [Piece.print, Piece.print, Piece.printed_eq_of_alike pieces]
    exact .ok (Piece.forall₂_values pieces)

/-- A SELECT that compares a column with `w`. -/
def selectBinding (w : Value) : Select :=
  .of
    { table := some { name := "u" }
      filter := some (.node
        { tests := [.comparison ⟨.column { name := "x" }, .equal, .value w⟩] } []) }

/-- An UPDATE that binds `v` in its assignment and `w` in a SELECT nested in its predicate. -/
def updateBinding (v w : Value) : Statement :=
  .update
    { table := some { name := "t" }
      values := [⟨"a", v⟩]
      filter := some (.node { someRow := [selectBinding w] } []) }

theorem selectBinding_alike {w w' : Value} (h : R w w') :
    Select.Alike R (selectBinding w) (selectBinding w') := by
  refine .of (.mk .nil (.some (.node (.mk ?_ ?_ ?_ ?_ ?_ ?_ ?_ ?_ ?_ ?_ ?_) .nil)) .nil)
  on_goal 6 => exact .cons (.comparison (.column _) (.value h)) .nil
  all_goals exact .nil

theorem updateBinding_alike {v v' w w' : Value} (hv : R v v') (hw : R w w') :
    Statement.Alike R (updateBinding v w) (updateBinding v' w') := by
  refine .update (.cons (.mk hv) .nil) (.some (.node (.mk ?_ ?_ ?_ ?_ ?_ ?_ ?_ ?_ ?_ ?_ ?_) .nil))
  on_goal 10 => exact .cons (selectBinding_alike hw) .nil
  all_goals exact .nil

/-- The pairs of values that stand at the two places of the statements below. -/
inductive SamePlace : Value → Value → Prop
  | assigned : SamePlace (.int 1) (.text "'; --")
  | compared : SamePlace .null (.bool true)

theorem buildWith_alike_update :
    Statement.Alike SamePlace (updateBinding (.int 1) .null)
        (updateBinding (.text "'; --") (.bool true)) ∧
      Built.Alike SamePlace (Renderable.buildWith {} (updateBinding (.int 1) .null))
        (Renderable.buildWith {} (updateBinding (.text "'; --") (.bool true))) ∧
      (Renderable.buildWith {} (updateBinding (.int 1) .null)).map Built.sql =
        .ok "UPDATE t SET a = $1 WHERE EXISTS (SELECT * FROM u WHERE (x = $2))" :=
  ⟨updateBinding_alike .assigned .compared,
    buildWith_alike (updateBinding_alike .assigned .compared) {}, by decide⟩

end SqlBuilder
