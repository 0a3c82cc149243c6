import SqlBuilder.Proofs.Nested

/-!
# Equality is symmetric and transitive

Equality of SELECTs compares doubles as numbers, so it is not reflexive: a SELECT with a value that
is no number in it differs from itself.  It is symmetric (`Select.same_comm`) and transitive
(`Select.same_trans`), and so no chain of replacements can make two entries equal that were not.
Each entry is dealt with under the hypothesis that the SELECTs nested in it are.
-/

namespace SqlBuilder

variable {q r u : Type}

/-! ## Lists and optional values -/

section Lists

variable {α β γ : Type} {eq : α → β → Bool} {eq' : β → α → Bool}

theorem sameList_comm {as : List α} (h : ∀ a ∈ as, ∀ b, eq a b = eq' b a) (bs : List β) :
    sameList eq as bs = sameList eq' bs as := by
  induction as generalizing bs with
  | nil => cases bs <;> rfl
  | cons a as ih =>
    obtain ⟨ha, has⟩ := List.forall_mem_cons.1 h
    cases bs with
    | nil => rfl
    | cons b bs => rw [sameList, sameList, ha, ih has]

theorem sameList_trans {eq : α → β → Bool} {eq' : β → γ → Bool} {eq'' : α → γ → Bool}
    {as : List α} {bs : List β} {cs : List γ} (hab : sameList eq as bs)
    (hbc : sameList eq' bs cs) (h : ∀ a ∈ as, ∀ b c, eq a b → eq' b c → eq'' a c) :
    sameList eq'' as cs := by
  induction as generalizing bs cs with
  | nil =>
    cases bs with
    | nil => cases cs <;> exact hbc
    | cons b bs => cases hab
  | cons a as ih =>
    obtain ⟨ha, has⟩ := List.forall_mem_cons.1 h
    cases bs with
    | nil => cases hab
    | cons b bs =>
      cases cs with
      | nil => cases hbc
      | cons c cs =>
        rw [sameList, Bool.and_eq_true] at hab hbc ⊢
        exact ⟨ha b c hab.1 hbc.1, ih hab.2 hbc.2 has⟩

theorem sameList_congr {eq eq' : α → β → Bool} {as : List α}
    (h : ∀ a ∈ as, ∀ b, eq a b = eq' a b) (bs : List β) :
    sameList eq as bs = sameList eq' as bs := by
  have swapped : sameList eq as bs = sameList (fun b a => eq' a b) bs as := sameList_comm h bs
  exact swapped.trans (sameList_comm (fun _ _ _ => rfl) as)

theorem sameOption_eq_sameList (eq : α → β → Bool) (a : Option α) (b : Option β) :
    sameOption eq a b = sameList eq a.toList b.toList := by
  cases a <;> cases b <;> simp [sameOption, sameList]

theorem sameOption_comm {a : Option α} (h : ∀ x ∈ a, ∀ y, eq x y = eq' y x) (b : Option β) :
    sameOption eq a b = sameOption eq' b a := by
  rw [sameOption_eq_sameList, sameOption_eq_sameList]
  exact sameList_comm (fun x hx => h x (Option.mem_toList.1 hx)) _

theorem sameOption_trans {eq : α → β → Bool} {eq' : β → γ → Bool} {eq'' : α → γ → Bool}
    {a : Option α} {b : Option β} {c : Option γ} (hab : sameOption eq a b)
    (hbc : sameOption eq' b c) (h : ∀ x ∈ a, ∀ y z, eq x y → eq' y z → eq'' x z) :
    sameOption eq'' a c := by
  rw [sameOption_eq_sameList] at hab hbc ⊢
  exact sameList_trans hab hbc fun x hx => h x (Option.mem_toList.1 hx)

end Lists

/-! ## Values -/

theorem Double.ieeeEq_comm (x y : Double) : x.ieeeEq y = y.ieeeEq x := by
  unfold ieeeEq
  rw [Bool.and_comm (!x.isNaN), Bool.and_comm x.isZero, BEq.comm (a := x.bits)]

theorem Double.isZero_of_bits_eq {x y : Double} (h : x.bits = y.bits) : x.isZero = y.isZero := by
  obtain ⟨x⟩ := x
  cases h
  rfl

theorem Double.ieeeEq_trans {x y z : Double} (hxy : x.ieeeEq y) (hyz : y.ieeeEq z) :
    x.ieeeEq z := by
  simp only [ieeeEq, Bool.and_eq_true, Bool.or_eq_true, beq_iff_eq] at hxy hyz ⊢
  obtain ⟨⟨hx, -⟩, hxy⟩ := hxy
  obtain ⟨⟨-, hz⟩, hyz⟩ := hyz
  refine ⟨⟨hx, hz⟩, ?_⟩
  rcases hxy with ⟨zx, zy⟩ | hxy
  · rcases hyz with ⟨-, zz⟩ | hyz
    · exact .inl ⟨zx, zz⟩
    · exact .inl ⟨zx, isZero_of_bits_eq hyz ▸ zy⟩
  · rcases hyz with ⟨zy, zz⟩ | hyz
    · exact .inl ⟨isZero_of_bits_eq hxy ▸ zy, zz⟩
    · exact .inr (hxy.trans hyz)

namespace Json

theorem Number.same_comm (m n : Number) : m.same n = n.same m := by
  cases m <;> cases n
  · exact BEq.comm
  · rfl
  · rfl
  · exact Double.ieeeEq_comm _ _

theorem Number.same_trans {m n k : Number} (hmn : m.same n) (hnk : n.same k) : m.same k := by
  cases m <;> cases n <;> cases k
  case integer.integer.integer => exact BEq.trans hmn hnk
  case double.double.double => exact Double.ieeeEq_trans hmn hnk
  all_goals first | cases hmn | cases hnk

mutual

theorem same_comm : ∀ a b : Json, a.same b = b.same a
  | .null, b => by cases b <;> rfl
  | .bool x, b => by
    cases b
    case bool y => exact BEq.comm
    all_goals rfl
  | .number m, b => by
    cases b
    case number n => exact m.same_comm n
    all_goals rfl
  | .string s, b => by
    cases b
    case string t => exact BEq.comm
    all_goals rfl
  | .array as, b => by
    cases b
    case array bs => exact sameItems_comm as bs
    all_goals rfl
  | .object as, b => by
    cases b
    case object bs => exact sameMembers_comm as bs
    all_goals rfl

theorem sameItems_comm : ∀ as bs : List Json, sameItems as bs = sameItems bs as
  | [], bs => by cases bs <;> rfl
  | a :: as, bs => by
    cases bs with
    | nil => rfl
    | cons b bs => rw [sameItems, sameItems, same_comm a, sameItems_comm as]

theorem sameMembers_comm : ∀ as bs : List (String × Json), sameMembers as bs = sameMembers bs as
  | [], bs => by cases bs <;> rfl
  | (k, a) :: as, bs => by
    cases bs with
    | nil => rfl
    | cons b bs =>
      rw [sameMembers, sameMembers, same_comm a, sameMembers_comm as, BEq.comm (a := k)]

end

mutual

theorem same_trans : ∀ {a b c : Json}, a.same b → b.same c → a.same c
  | .null, b, c, hab, hbc => by
    cases b <;> first | exact hbc | cases hab
  | .bool x, b, c, hab, hbc => by
    cases b
    case bool y => cases c <;> first | exact BEq.trans hab hbc | cases hbc
    all_goals cases hab
  | .number m, b, c, hab, hbc => by
    cases b
    case number n => cases c <;> first | exact Number.same_trans hab hbc | cases hbc
    all_goals cases hab
  | .string s, b, c, hab, hbc => by
    cases b
    case string t => cases c <;> first | exact BEq.trans hab hbc | cases hbc
    all_goals cases hab
  | .array as, b, c, hab, hbc => by
    cases b
    case array bs => cases c <;> first | exact sameItems_trans hab hbc | cases hbc
    all_goals cases hab
  | .object as, b, c, hab, hbc => by
    cases b
    case object bs => cases c <;> first | exact sameMembers_trans hab hbc | cases hbc
    all_goals cases hab

theorem sameItems_trans : ∀ {as bs cs : List Json},
    sameItems as bs → sameItems bs cs → sameItems as cs
  | [], bs, cs, hab, hbc => by
    cases bs <;> first | exact hbc | cases hab
  | a :: as, bs, cs, hab, hbc => by
    cases bs with
    | nil => cases hab
    | cons b bs =>
      cases cs with
      | nil => cases hbc
      | cons c cs =>
        rw [sameItems, Bool.and_eq_true] at hab hbc ⊢
        exact ⟨same_trans hab.1 hbc.1, sameItems_trans hab.2 hbc.2⟩

theorem sameMembers_trans : ∀ {as bs cs : List (String × Json)},
    sameMembers as bs → sameMembers bs cs → sameMembers as cs
  | [], bs, cs, hab, hbc => by
    cases bs <;> first | exact hbc | cases hab
  | (k, a) :: as, bs, cs, hab, hbc => by
    cases bs with
    | nil => cases hab
    | cons b bs =>
      cases cs with
      | nil => cases hbc
      | cons c cs =>
        simp only [sameMembers, Bool.and_eq_true] at hab hbc ⊢
        exact ⟨⟨BEq.trans hab.1.1 hbc.1.1, same_trans hab.1.2 hbc.1.2⟩,
          sameMembers_trans hab.2 hbc.2⟩

end

end Json

namespace Value

theorem same_comm (v w : Value) : v.same w = w.same v := by
  cases v <;> cases w
  case float.float => exact Double.ieeeEq_comm _ _
  case json.json => exact Json.same_comm _ _
  all_goals first | rfl | exact BEq.comm

theorem same_trans {v w x : Value} (hvw : v.same w) (hwx : w.same x) : v.same x := by
  cases v <;> cases w
  case float.float => cases x <;> first | exact Double.ieeeEq_trans hvw hwx | cases hwx
  case json.json => cases x <;> first | exact Json.same_trans hvw hwx | cases hwx
  case null.null => exact hwx
  all_goals first | cases hvw | (cases x <;> first | exact BEq.trans hvw hwx | cases hwx)

end Value

theorem sameList_value_comm (vs ws : List Value) :
    sameList Value.same vs ws = sameList Value.same ws vs :=
  sameList_comm (fun v _ w => v.same_comm w) ws

theorem sameList_value_trans {vs ws xs : List Value} (h : sameList Value.same vs ws)
    (h' : sameList Value.same ws xs) : sameList Value.same vs xs :=
  sameList_trans h h' fun _ _ _ _ => Value.same_trans

/-! ## Symmetry -/

section Comm

variable {eq : q → r → Bool} {eq' : r → q → Bool}

theorem Term.same_comm {t : Term q} (h : ∀ s ∈ t.nested, ∀ s', eq s s' = eq' s' s) (t' : Term r) :
    t.same eq t' = t'.same eq' t := by
  cases t <;> cases t'
  · exact BEq.comm
  · rfl
  · rfl
  · exact h _ (List.mem_singleton_self _) _

theorem Operand.same_comm {o : Operand q} (h : ∀ s ∈ o.nested, ∀ s', eq s s' = eq' s' s)
    (o' : Operand r) : o.same eq o' = o'.same eq' o := by
  cases o <;> cases o'
  case value.value v w => exact v.same_comm w
  case column.column => exact BEq.comm
  case subquery.subquery => exact h _ (List.mem_singleton_self _) _
  all_goals rfl

theorem Comparison.same_comm {c : Comparison q} (h : ∀ s ∈ c.nested, ∀ s', eq s s' = eq' s' s)
    (c' : Comparison r) : c.same eq c' = c'.same eq' c := by
  obtain ⟨subject, target⟩ := List.forall_mem_append.1 h
  rw [same, same, Term.same_comm subject, Operand.same_comm target, BEq.comm (a := c.operator)]

theorem Test.same_comm {t : Test q} (h : ∀ s ∈ t.nested, ∀ s', eq s s' = eq' s' s) (t' : Test r) :
    t.same eq t' = t'.same eq' t := by
  cases t <;> cases t'
  · exact Comparison.same_comm h _
  · rfl
  · rfl
  · exact BEq.comm

theorem Range.same_comm {e : Range q} (h : ∀ s ∈ e.nested, ∀ s', eq s s' = eq' s' s)
    (e' : Range r) : e.same eq e' = e'.same eq' e := by
  rw [same, same, Term.same_comm h, Value.same_comm e.lower, Value.same_comm e.upper]

theorem Flag.same_comm {e : Flag q} (h : ∀ s ∈ e.nested, ∀ s', eq s s' = eq' s' s)
    (e' : Flag r) : e.same eq e' = e'.same eq' e := by
  rw [same, same, Term.same_comm h, Value.same_comm e.value]

theorem TextMatch.same_comm {e : TextMatch q} (h : ∀ s ∈ e.nested, ∀ s', eq s s' = eq' s' s)
    (e' : TextMatch r) : e.same eq e' = e'.same eq' e := by
  have columns :=
    sameList_comm (fun t ht => Term.same_comm (forall_mem_flatMap.1 h t ht)) e'.columns
  rw [same, same, columns, sameList_value_comm e.values, BEq.comm (a := e.mode)]

theorem InList.same_comm {e : InList q} (h : ∀ s ∈ e.nested, ∀ s', eq s s' = eq' s' s)
    (e' : InList r) : e.same eq e' = e'.same eq' e := by
  rw [same, same, Term.same_comm h, sameList_value_comm e.values, BEq.comm (a := e.key)]

theorem Conditions.same_comm {c : Conditions q} (h : ∀ s ∈ c.nested, ∀ s', eq s s' = eq' s' s)
    (c' : Conditions r) : c.same eq c' = c'.same eq' c := by
  obtain ⟨matching, among, notAmong, between, notBetween, tests, isNull, isNotNull, flags, someRow,
    noRow⟩ := c.forall_mem_nested.1 h
  rw [same, same, BEq.comm (a := c.conjunction), BEq.comm (a := c.table),
    sameList_comm fun e he => TextMatch.same_comm (matching e he),
    sameList_comm fun e he => InList.same_comm (among e he),
    sameList_comm fun e he => InList.same_comm (notAmong e he),
    sameList_comm fun e he => Range.same_comm (between e he),
    sameList_comm fun e he => Range.same_comm (notBetween e he),
    sameList_comm fun t ht => Test.same_comm (tests t ht),
    sameList_comm fun t ht => Term.same_comm (isNull t ht),
    sameList_comm fun t ht => Term.same_comm (isNotNull t ht),
    sameList_comm fun e he => Flag.same_comm (flags e he),
    sameList_comm someRow, sameList_comm noRow]

theorem Predicate.sameGroups_eq (eq : q → r → Bool) (ps : List (Predicate q))
    (ps' : List (Predicate r)) : sameGroups eq ps ps' = sameList (same eq) ps ps' := by
  induction ps generalizing ps' with
  | nil => cases ps' <;> rfl
  | cons p ps ih =>
    cases ps' with
    | nil => rfl
    | cons p' ps' => rw [sameGroups, sameList, ih]

theorem Predicate.same_comm {p : Predicate q} (h : ∀ s ∈ p.nested, ∀ s', eq s s' = eq' s' s)
    (p' : Predicate r) : p.same eq p' = p'.same eq' p := by
  induction p using Predicate.induction generalizing p' with
  | node own groups ih =>
    obtain ⟨inOwn, inGroups⟩ := (forall_mem_nested own groups).1 h
    obtain ⟨own', groups'⟩ := p'
    rw [same, same, sameGroups_eq, sameGroups_eq, Conditions.same_comm inOwn,
      sameList_comm fun g hg g' => ih g hg (inGroups g hg) g']

theorem SortKey.same_comm {k : SortKey q} (h : ∀ s ∈ k.nested, ∀ s', eq s s' = eq' s' s)
    (k' : SortKey r) : k.same eq k' = k'.same eq' k := by
  rw [same, same, Term.same_comm h, BEq.comm (a := k.direction)]

theorem SelectOver.same_comm {f : SelectOver q} (h : ∀ s ∈ f.nested, ∀ s', eq s s' = eq' s' s)
    (f' : SelectOver r) : f.same eq f' = f'.same eq' f := by
  obtain ⟨columns, filter, orderBy⟩ := f.forall_mem_nested.1 h
  rw [same, same, BEq.comm (a := f.table), BEq.comm (a := f.limit), BEq.comm (a := f.offset),
    sameList_comm fun t ht => Term.same_comm (columns t ht),
    sameOption_comm fun p hp => Predicate.same_comm (filter p hp),
    sameList_comm fun k hk => SortKey.same_comm (orderBy k hk)]

end Comm

/-! ## Transitivity -/

section Trans

variable {eq : q → r → Bool} {eq' : r → u → Bool} {eq'' : q → u → Bool}

theorem Term.same_trans {t : Term q}
    (h : ∀ s ∈ t.nested, ∀ s' s'', eq s s' → eq' s' s'' → eq'' s s'')
    {t' : Term r} {t'' : Term u} (ht : t.same eq t') (ht' : t'.same eq' t'') : t.same eq'' t'' := by
  cases t <;> cases t' <;> cases t''
  case column.column.column => exact BEq.trans ht ht'
  case subquery.subquery.subquery => exact h _ (List.mem_singleton_self _) _ _ ht ht'
  all_goals first | cases ht | cases ht'

theorem Operand.same_trans {o : Operand q}
    (h : ∀ s ∈ o.nested, ∀ s' s'', eq s s' → eq' s' s'' → eq'' s s'') {o' : Operand r}
    {o'' : Operand u} (ho : o.same eq o') (ho' : o'.same eq' o'') : o.same eq'' o'' := by
  cases o <;> cases o' <;> cases o''
  case value.value.value => exact Value.same_trans ho ho'
  case column.column.column => exact BEq.trans ho ho'
  case subquery.subquery.subquery => exact h _ (List.mem_singleton_self _) _ _ ho ho'
  all_goals first | cases ho | cases ho'

theorem Comparison.same_trans {c : Comparison q}
    (h : ∀ s ∈ c.nested, ∀ s' s'', eq s s' → eq' s' s'' → eq'' s s'') {c' : Comparison r}
    {c'' : Comparison u} (hc : c.same eq c') (hc' : c'.same eq' c'') : c.same eq'' c'' := by
  obtain ⟨subject, target⟩ := List.forall_mem_append.1 h
  simp only [same, Bool.and_eq_true] at hc hc' ⊢
  obtain ⟨⟨hs, ho⟩, ht⟩ := hc
  obtain ⟨⟨hs', ho'⟩, ht'⟩ := hc'
  exact ⟨⟨Term.same_trans subject hs hs', BEq.trans ho ho'⟩, Operand.same_trans target ht ht'⟩

theorem Test.same_trans {t : Test q}
    (h : ∀ s ∈ t.nested, ∀ s' s'', eq s s' → eq' s' s'' → eq'' s s'') {t' : Test r} {t'' : Test u}
    (ht : t.same eq t') (ht' : t'.same eq' t'') : t.same eq'' t'' := by
  cases t <;> cases t' <;> cases t''
  case comparison.comparison.comparison => exact Comparison.same_trans h ht ht'
  case literal.literal.literal => exact BEq.trans ht ht'
  all_goals first | cases ht | cases ht'

theorem Range.same_trans {e : Range q}
    (h : ∀ s ∈ e.nested, ∀ s' s'', eq s s' → eq' s' s'' → eq'' s s'') {e' : Range r}
    {e'' : Range u} (he : e.same eq e') (he' : e'.same eq' e'') : e.same eq'' e'' := by
  simp only [same, Bool.and_eq_true] at he he' ⊢
  obtain ⟨⟨hs, hl⟩, hu⟩ := he
  obtain ⟨⟨hs', hl'⟩, hu'⟩ := he'
  exact ⟨⟨Term.same_trans h hs hs', Value.same_trans hl hl'⟩, Value.same_trans hu hu'⟩

theorem Flag.same_trans {e : Flag q}
    (h : ∀ s ∈ e.nested, ∀ s' s'', eq s s' → eq' s' s'' → eq'' s s'') {e' : Flag r} {e'' : Flag u}
    (he : e.same eq e') (he' : e'.same eq' e'') : e.same eq'' e'' := by
  simp only [same, Bool.and_eq_true] at he he' ⊢
  exact ⟨Term.same_trans h he.1 he'.1, Value.same_trans he.2 he'.2⟩

theorem TextMatch.same_trans {e : TextMatch q}
    (h : ∀ s ∈ e.nested, ∀ s' s'', eq s s' → eq' s' s'' → eq'' s s'') {e' : TextMatch r}
    {e'' : TextMatch u} (he : e.same eq e') (he' : e'.same eq' e'') : e.same eq'' e'' := by
  simp only [same, Bool.and_eq_true] at he he' ⊢
  obtain ⟨⟨hc, hv⟩, hm⟩ := he
  obtain ⟨⟨hc', hv'⟩, hm'⟩ := he'
  refine ⟨⟨?_, sameList_value_trans hv hv'⟩, BEq.trans hm hm'⟩
  exact sameList_trans hc hc' fun t ht _ _ => Term.same_trans (forall_mem_flatMap.1 h t ht)

theorem InList.same_trans {e : InList q}
    (h : ∀ s ∈ e.nested, ∀ s' s'', eq s s' → eq' s' s'' → eq'' s s'') {e' : InList r}
    {e'' : InList u} (he : e.same eq e') (he' : e'.same eq' e'') : e.same eq'' e'' := by
  simp only [same, Bool.and_eq_true] at he he' ⊢
  obtain ⟨⟨hs, hk⟩, hv⟩ := he
  obtain ⟨⟨hs', hk'⟩, hv'⟩ := he'
  exact ⟨⟨Term.same_trans h hs hs', BEq.trans hk hk'⟩, sameList_value_trans hv hv'⟩

theorem Conditions.same_trans {c : Conditions q}
    (h : ∀ s ∈ c.nested, ∀ s' s'', eq s s' → eq' s' s'' → eq'' s s'') {c' : Conditions r}
    {c'' : Conditions u} (hc : c.same eq c') (hc' : c'.same eq' c'') : c.same eq'' c'' := by
  obtain ⟨matching, among, notAmong, between, notBetween, tests, isNull, isNotNull, flags, someRow,
    noRow⟩ := c.forall_mem_nested.1 h
  simp only [same, Bool.and_eq_true, and_assoc] at hc hc' ⊢
  obtain ⟨k, t, m, a, na, b, nb, ts, n, nn, f, s, ns⟩ := hc
  obtain ⟨k', t', m', a', na', b', nb', ts', n', nn', f', s', ns'⟩ := hc'
  exact ⟨BEq.trans k k', BEq.trans t t',
    sameList_trans m m' (fun e he _ _ => TextMatch.same_trans (matching e he)),
    sameList_trans a a' (fun e he _ _ => InList.same_trans (among e he)),
    sameList_trans na na' (fun e he _ _ => InList.same_trans (notAmong e he)),
    sameList_trans b b' (fun e he _ _ => Range.same_trans (between e he)),
    sameList_trans nb nb' (fun e he _ _ => Range.same_trans (notBetween e he)),
    sameList_trans ts ts' (fun t ht _ _ => Test.same_trans (tests t ht)),
    sameList_trans n n' (fun t ht _ _ => Term.same_trans (isNull t ht)),
    sameList_trans nn nn' (fun t ht _ _ => Term.same_trans (isNotNull t ht)),
    sameList_trans f f' (fun e he _ _ => Flag.same_trans (flags e he)),
    sameList_trans s s' someRow, sameList_trans ns ns' noRow⟩

theorem Predicate.same_trans {p : Predicate q}
    (h : ∀ s ∈ p.nested, ∀ s' s'', eq s s' → eq' s' s'' → eq'' s s'') {p' : Predicate r}
    {p'' : Predicate u} (hp : p.same eq p') (hp' : p'.same eq' p'') : p.same eq'' p'' := by
  induction p using Predicate.induction generalizing p' p'' with
  | node own groups ih =>
    obtain ⟨inOwn, inGroups⟩ := (forall_mem_nested own groups).1 h
    obtain ⟨own', groups'⟩ := p'
    obtain ⟨own'', groups''⟩ := p''
    simp only [same, Bool.and_eq_true, sameGroups_eq] at hp hp' ⊢
    refine ⟨Conditions.same_trans inOwn hp.1 hp'.1, ?_⟩
    exact sameList_trans hp.2 hp'.2 fun g hg _ _ => ih g hg (inGroups g hg)

theorem SortKey.same_trans {k : SortKey q}
    (h : ∀ s ∈ k.nested, ∀ s' s'', eq s s' → eq' s' s'' → eq'' s s'') {k' : SortKey r}
    {k'' : SortKey u} (hk : k.same eq k') (hk' : k'.same eq' k'') : k.same eq'' k'' := by
  simp only [same, Bool.and_eq_true] at hk hk' ⊢
  exact ⟨Term.same_trans h hk.1 hk'.1, BEq.trans hk.2 hk'.2⟩

theorem SelectOver.same_trans {f : SelectOver q}
    (h : ∀ s ∈ f.nested, ∀ s' s'', eq s s' → eq' s' s'' → eq'' s s'') {f' : SelectOver r}
    {f'' : SelectOver u} (hf : f.same eq f') (hf' : f'.same eq' f'') : f.same eq'' f'' := by
  obtain ⟨columns, filter, orderBy⟩ := f.forall_mem_nested.1 h
  simp only [same, Bool.and_eq_true, and_assoc] at hf hf' ⊢
  obtain ⟨t, c, p, k, l, o⟩ := hf
  obtain ⟨t', c', p', k', l', o'⟩ := hf'
  exact ⟨BEq.trans t t',
    sameList_trans c c' (fun t ht _ _ => Term.same_trans (columns t ht)),
    sameOption_trans p p' (fun p hp _ _ => Predicate.same_trans (filter p hp)),
    sameList_trans k k' (fun k hk _ _ => SortKey.same_trans (orderBy k hk)),
    BEq.trans l l', BEq.trans o o'⟩

end Trans

/-! ## Equality after a map -/

section Map

variable (f : q → r) (eq : r → u → Bool)

theorem sameList_map {α β γ : Type} (g : α → β) (same : β → γ → Bool) (as : List α)
    (cs : List γ) : sameList same (as.map g) cs = sameList (fun a c => same (g a) c) as cs := by
  induction as generalizing cs with
  | nil => cases cs <;> rfl
  | cons a as ih =>
    cases cs with
    | nil => rfl
    | cons c cs => rw [List.map_cons, sameList, sameList, ih]

theorem Term.same_map (t : Term q) (t' : Term u) :
    (t.map f).same eq t' = t.same (fun s s' => eq (f s) s') t' := by
  cases t <;> cases t' <;> rfl

theorem Operand.same_map (o : Operand q) (o' : Operand u) :
    (o.map f).same eq o' = o.same (fun s s' => eq (f s) s') o' := by
  cases o <;> cases o' <;> rfl

theorem Test.same_map (t : Test q) (t' : Test u) :
    (t.map f).same eq t' = t.same (fun s s' => eq (f s) s') t' := by
  cases t <;> cases t'
  · simp only [Test.map, Test.same, Comparison.map, Comparison.same, Term.same_map,
      Operand.same_map]
  all_goals rfl

theorem Range.same_map (e : Range q) (e' : Range u) :
    (e.map f).same eq e' = e.same (fun s s' => eq (f s) s') e' := by
  simp only [map, same, Term.same_map]

theorem Flag.same_map (e : Flag q) (e' : Flag u) :
    (e.map f).same eq e' = e.same (fun s s' => eq (f s) s') e' := by
  simp only [map, same, Term.same_map]

theorem TextMatch.same_map (e : TextMatch q) (e' : TextMatch u) :
    (e.map f).same eq e' = e.same (fun s s' => eq (f s) s') e' := by
  simp only [map, same, sameList_map, Term.same_map]

theorem InList.same_map (e : InList q) (e' : InList u) :
    (e.map f).same eq e' = e.same (fun s s' => eq (f s) s') e' := by
  simp only [map, same, Term.same_map]

theorem Conditions.same_map (c : Conditions q) (c' : Conditions u) :
    (c.map f).same eq c' = c.same (fun s s' => eq (f s) s') c' := by
  simp only [map, same, sameList_map, TextMatch.same_map, InList.same_map, Range.same_map,
    Test.same_map, Term.same_map, Flag.same_map]

theorem Predicate.same_map (p : Predicate q) (p' : Predicate u) :
    (p.map f).same eq p' = p.same (fun s s' => eq (f s) s') p' := by
  induction p using Predicate.induction generalizing p' with
  | node own groups ih =>
    obtain ⟨own', groups'⟩ := p'
    rw [map_node, same, same, Conditions.same_map, sameGroups_eq, sameGroups_eq, sameList_map,
      sameList_congr ih]

theorem SortKey.same_map (k : SortKey q) (k' : SortKey u) :
    (k.map f).same eq k' = k.same (fun s s' => eq (f s) s') k' := by
  simp only [map, same, Term.same_map]

theorem SelectOver.same_map (g : SelectOver q) (g' : SelectOver u) :
    (g.map f).same eq g' = g.same (fun s s' => eq (f s) s') g' := by
  have filter : sameOption (Predicate.same eq) (g.filter.map (Predicate.map f)) g'.filter =
      sameOption (Predicate.same fun s s' => eq (f s) s') g.filter g'.filter := by
    cases g.filter <;> cases g'.filter
    case some.some p p' => exact Predicate.same_map f eq p p'
    all_goals rfl
  simp only [map, same, sameList_map, Term.same_map, SortKey.same_map, filter]

end Map

/-! ## SELECTs -/

namespace Select

theorem same_of (f : SelectOver Select) (s : Select) :
    (of f).same s = f.same Select.same s.form := by
  unfold same
  rw [fold_of, SelectOver.same_map]

/-- Equality of SELECTs is symmetric. -/
theorem same_comm (s t : Select) : s.same t = t.same s := by
  induction s using Select.induction generalizing t with
  | of f ih =>
    obtain ⟨g⟩ := t
    rw [same_of, same_of]
    exact SelectOver.same_comm ih g

/-- Equality of SELECTs is transitive. -/
theorem same_trans {s t v : Select} (hst : s.same t) (htv : t.same v) : s.same v := by
  induction s using Select.induction generalizing t v with
  | of f ih =>
    obtain ⟨g⟩ := t
    obtain ⟨h⟩ := v
    rw [same_of] at hst htv ⊢
    refine SelectOver.same_trans ?_ hst htv
    exact fun s hs t v => ih s hs

end Select

end SqlBuilder
