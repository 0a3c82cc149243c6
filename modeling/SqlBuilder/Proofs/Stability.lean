import SqlBuilder.Proofs.MemberOrder

/-!
# Readers that do not notice changes

A reader is stable at a shape if every change there leaves the value that is read as it is, and if
what is legible there fails by mismatches only.  There is one rule for each way to make a form, as
for the laws of reading back: the rules for records and bind values rest on what their members are
read as.
-/

namespace SqlBuilder

open Outline Codec

/-! ## Agreement -/

/-- The same values come out. -/
def Agree {α : Type} (x y : Except Fault α) : Prop :=
  ∀ a, x = .ok a ↔ y = .ok a

section

variable {α β : Type} {x y : Except Fault α}

theorem Agree.refl : Agree x x := fun _ => Iff.rfl

theorem Agree.symm (h : Agree x y) : Agree y x := fun a => (h a).symm

theorem Agree.trans {z : Except Fault α} (h : Agree x y) (h' : Agree y z) : Agree x z :=
  fun a => (h a).trans (h' a)

theorem Agree.bind {f g : α → Except Fault β} (h : Agree x y) (next : ∀ a, Agree (f a) (g a)) :
    Agree (x >>= f) (y >>= g) := fun b => by
  simp only [bind_eq_ok_iff, h _, next _ b]

theorem Agree.map (f : α → β) (h : Agree x y) : Agree (f <$> x) (f <$> y) := fun b => by
  simp only [map_eq_ok_iff, h _]

theorem agree_mapM_middle {r : Outline → Except Fault α} {pre post : List Outline} {o o' : Outline}
    (h : Agree (r o) (r o')) : Agree ((pre ++ o :: post).mapM r) ((pre ++ o' :: post).mapM r) := by
  simp only [List.mapM_append, List.mapM_cons]
  exact .bind .refl fun _ => .bind (.bind h fun _ => .refl) fun _ => .refl

end

/-! ## Stable readers -/

/-- A reader that does not notice changes at a shape, where fewer than some number of levels are
left, and that fails by mismatches on what is legible there. -/
structure Stable {α : Type} (r : Reader α) (s : Shape) (levels : Nat) : Prop where
  edit : ∀ {d}, d < levels → ∀ {o o'}, Edit s o o' → Agree (r d o) (r d o')
  fails : ∀ {d}, d < levels → ∀ {o}, Legible d s o → FailsByMismatch (r d o)

section

variable {α β : Type} {r : Reader α} {c : Codec α} {s : Shape} {n : Nat}

theorem Stable.mono (h : Stable r s n) {m : Nat} (le : m ≤ n) : Stable r s m :=
  ⟨fun hd => h.edit (Nat.lt_of_lt_of_le hd le), fun hd => h.fails (Nat.lt_of_lt_of_le hd le)⟩

/-- Every reader is stable up to no level at all. -/
theorem stable_zero : Stable r s 0 :=
  ⟨fun hd => absurd hd (Nat.not_lt_zero _), fun hd => absurd hd (Nat.not_lt_zero _)⟩

theorem Stable.map (h : Stable r s n) (f : α → β) : Stable (fun d o => f <$> r d o) s n :=
  ⟨fun hd _ _ edit => (h.edit hd edit).map f, fun hd _ legible => (h.fails hd legible).map f⟩

theorem Stable.type {t : SerialType} (h : Stable r t.shape n) : Stable r (.type t) n := by
  refine ⟨fun hd o o' edit => ?_, fun hd o legible => h.fails hd (legible_type.1 legible)⟩
  cases edit with
  | type inner => exact h.edit hd inner

theorem Codec.IsScalar.stable (h : c.IsScalar) : Stable c.decode .scalar n :=
  ⟨fun _ _ _ edit => (nomatch edit), fun _ _ legible => h.fails legible.unexpected⟩

theorem Stable.option (h : Stable c.decode s n) : Stable c.option.decode (.option s) n := by
  have present : ∀ d o, o.IsCompound → c.option.decode d o = some <$> c.decode d o := by
    intro d o compound
    cases o <;> first | rfl | exact absurd compound id
  constructor
  · intro d hd o o' edit
    cases edit with
    | option inner =>
      rw [present d o inner.isCompound.1, present d o' inner.isCompound.2]
      exact (h.edit hd inner).map some
  · intro d hd o legible
    cases legible with
    | misplaced opens => exact absurd opens id
    | null => exact failsByMismatch_ok
    | option legible =>
      cases o with
      | null => exact failsByMismatch_ok
      | broken r _ _ =>
        have whole : r = .mismatch := legible.unexpected
        exact whole ▸ failsByMismatch_mismatch
      | _ => exact (h.fails hd legible).map some

theorem Stable.list (h : Stable c.decode s n) : Stable c.list.decode (.list s) n := by
  constructor
  · intro d hd o o' edit
    cases edit with
    | item inner =>
      cases d with
      | zero => exact .refl
      | succ d =>
        refine .bind (agree_mapM_middle ?_) fun _ => .refl
        exact h.edit (Nat.lt_of_succ_lt hd) inner
  · intro d hd o legible
    cases legible with
    | misplaced _ flat whole =>
      have read : c.list.decode d o = .error o.unexpected := by
        cases o <;> first | rfl | exact absurd trivial flat
      exact read ▸ failsByMismatch_unexpected whole
    | items items =>
      exact (failsByMismatch_mapM fun o mem =>
        h.fails (Nat.lt_of_succ_lt hd) (items o mem)).bind fun _ _ => failsByMismatch_ok
    | listObject => exact failsByMismatch_mismatch

end

/-! ### Named cases -/

section

variable {α : Type} {n : Nat} {plain : List (String × α)} {carrying : List (String × Reader α)}
  {cs : List (String × Shape)}

theorem readCase_object (d : Nat) (k : String) (o : Outline) :
    readCase plain carrying (d + 1) (.object [(some k, o)] .closed) =
      (match carrying.lookup k, plain.lookup k with
        | some r, _ => r d o
        | none, some a => (fun _ => a) <$> nothing.decode d o
        | none, none => .error .mismatch) := by
  cases carries : carrying.lookup k with
  | some r => exact readCase_member carries d o
  | none =>
    simp only [readCase, nested, wholeString, carries, bind, Except.bind]
    cases named : plain.lookup k with
    | none => rfl
    | some a => cases o <;> rfl

/-- A case by name is stable if what it carries is. -/
theorem stable_readCase
    (plainly : ∀ k, carrying.lookup k = none → ∀ a, plain.lookup k = some a →
      cs.lookup k = some .scalar)
    (carried : ∀ k r, carrying.lookup k = some r → ∃ s, cs.lookup k = some s ∧ Stable r s n) :
    Stable (readCase plain carrying) (.cases cs) n := by
  constructor
  · intro d hd o o' edit
    cases edit with
    | @case _ k s o o' found inner =>
      cases d with
      | zero => exact .refl
      | succ d =>
        rw [readCase_object, readCase_object]
        cases carries : carrying.lookup k with
        | some r =>
          obtain ⟨s', found', stable⟩ := carried k r carries
          obtain rfl : s' = s := Option.some.inj (found'.symm.trans found)
          exact stable.edit (Nat.lt_of_succ_lt hd) inner
        | none =>
          cases named : plain.lookup k with
          | none => exact .refl
          | some a =>
            obtain rfl : Shape.scalar = s :=
              Option.some.inj ((plainly k carries a named).symm.trans found)
            cases inner
  · intro d hd o legible
    cases legible with
    | misplaced opens => exact absurd opens id
    | @name _ _ k =>
      cases named : plain.lookup k with
      | none =>
        have read : readCase plain carrying d (.string (some k)) = .error .mismatch := by
          simp only [readCase, named]
        exact read ▸ failsByMismatch_mismatch
      | some a =>
        have read : readCase plain carrying d (.string (some k)) = .ok a := by
          simp only [readCase, named]
        exact read ▸ failsByMismatch_ok
    | @case d _ k o legible =>
      rw [readCase_object]
      cases carries : carrying.lookup k with
      | some r =>
        obtain ⟨s, found, stable⟩ := carried k r carries
        exact stable.fails (Nat.lt_of_succ_lt hd) (legible s found)
      | none =>
        cases named : plain.lookup k with
        | none => exact failsByMismatch_mismatch
        | some a =>
          have whole := (legible _ (plainly k carries a named)).unexpected
          exact (isScalar_nothing.fails whole).map _

theorem lookup_eq_scalar {name : α → String} {cases : List α} {k : String} {a : α}
    (h : (cases.map fun a => (name a, a)).lookup k = some a) :
    ((cases.map name).map fun n => (n, Shape.scalar)).lookup k = some .scalar := by
  induction cases with
  | nil => cases h
  | cons b cases ih =>
    simp only [List.map_cons, List.lookup_cons] at h ⊢
    split
    · rfl
    · next differs => exact ih (by rwa [differs] at h)

/-- A case that carries nothing is stable. -/
theorem stable_plainCase {name : α → String} {cases : List α} :
    Stable (plainCase name cases).decode (.names (cases.map name)) n :=
  stable_readCase (fun _ _ _ => lookup_eq_scalar) fun _ _ found => nomatch found

/-- Cases that carry something are stable, each at its own shape. -/
theorem Stable.cases (h : List.Forall₂ (fun c s => c.1 = s.1 ∧ Stable c.2 s.2 n) carrying cs) :
    Stable (readCase [] carrying) (.cases cs) n := by
  refine stable_readCase (fun _ _ _ found => nomatch found) fun k r found => ?_
  induction h with
  | nil => cases found
  | @cons c s carrying cs first _ ih =>
    obtain ⟨name, r'⟩ := c
    obtain ⟨name', s'⟩ := s
    obtain ⟨rfl, stable⟩ := first
    simp only [List.lookup_cons] at found ⊢
    split at found
    · obtain rfl := Option.some.inj found
      exact ⟨s', rfl, stable⟩
    · exact ih found

end

/-! ### Records -/

/-- A field that is found among some is found with another one before them. -/
theorem lookup_behind {fields : List (String × Shape)} {name k : String} {s s' : Shape}
    (fresh : name ∉ fields.map Prod.fst) (field : fields.lookup k = some s) :
    ((name, s') :: fields).lookup k = some s := by
  have differs : k ≠ name := fun same => fresh (same ▸ mem_names_of_lookup field)
  simpa [List.lookup_cons, beq_eq_false_iff_ne.2 differs] using field

namespace Layout

section

variable {α : Type} {decode : Outline → Except Fault α} {absent : Option α} {os os' : List Outline}
  {a : α}

theorem readsField_iff : ReadsField decode absent os a ↔
    os = [] ∧ absent = some a ∨ ∃ o, os = [o] ∧ decode o = .ok a := by
  match os with
  | [] => simp [ReadsField]
  | [o] => simp [ReadsField]
  | _ :: _ :: _ => simp [ReadsField]

/-- The order of the values under a name does not count. -/
theorem readsField_perm (h : os.Perm os') :
    ReadsField decode absent os a ↔ ReadsField decode absent os' a := by
  have empty : os = [] ↔ os' = [] := by
    rw [← List.length_eq_zero_iff, h.length_eq, List.length_eq_zero_iff]
  have single : ∀ o, os = [o] ↔ os' = [o] := fun o => by
    rw [← List.perm_singleton, ← List.perm_singleton, h.congr_left]
  simp only [readsField_iff, empty, single]

end

/-- Fields of stable forms, and their shapes.  A field with a shape that may be null is read as null
where it is missing. -/
inductive Stable (n : Nat) : {σ γ : Type} → Layout σ γ → List (String × Shape) → Prop where
  | nil : Stable n nil []
  | cons {α σ γ : Type} {name : String} {c : Codec α} {absent : Option α} {rest : Layout σ γ}
    {s : Shape} {fields : List (String × Shape)} (field : SqlBuilder.Stable c.decode s n)
    (missing : ∀ s', s = .option s' → ∃ a, absent = some a ∧ ∀ d, c.decode d .null = .ok a)
    (others : Stable n rest fields) : Stable n (cons name c absent rest) ((name, s) :: fields)

section

variable {α σ γ : Type} {n : Nat} {name : String} {c : Codec α} {rest : Layout σ γ} {s : Shape}
  {fields : List (String × Shape)}

theorem Stable.required (present : ∀ s', s ≠ .option s') (field : SqlBuilder.Stable c.decode s n)
    (others : rest.Stable n fields) : (required name c rest).Stable n ((name, s) :: fields) :=
  .cons field (fun s' h => absurd h (present s')) others

theorem Stable.optional (field : SqlBuilder.Stable c.decode s n) (others : rest.Stable n fields) :
    (optional name c rest).Stable n ((name, .option s) :: fields) :=
  .cons field.option (fun _ _ => ⟨none, rfl, fun _ => rfl⟩) others

end

variable {n d : Nat}

theorem Stable.names_eq {σ γ : Type} {l : Layout σ γ} {fields : List (String × Shape)}
    (h : l.Stable n fields) : l.names = fields.map Prod.fst := by
  induction h with
  | nil => rfl
  | cons _ _ _ ih => rw [names, ih, List.map_cons]

/-- A field does not notice a change of the values under its name. -/
theorem readsField_edit {α : Type} {c : Codec α} {absent : Option α} {s : Shape}
    (field : SqlBuilder.Stable c.decode s n)
    (missing : ∀ s', s = .option s' → ∃ a, absent = some a ∧ ∀ d, c.decode d .null = .ok a)
    (hd : d < n) {os os' : List Outline} (edit : FieldEdit Edit s os os') {a : α} :
    ReadsField (c.decode d) absent os a ↔ ReadsField (c.decode d) absent os' a := by
  cases edit with
  | places h => exact readsField_perm h
  | @inside pre post o o' h =>
    cases pre with
    | nil => simp only [List.nil_append, readsField_cons, field.edit hd h a]
    | cons p pre => simp [readsField_cons]
  | null h =>
    obtain ⟨b, present, null⟩ := missing _ h
    simp [ReadsField, present, null]

/-- A record does not notice changes of the values under the names of its fields. -/
theorem Stable.reads_edit {σ γ : Type} {l : Layout σ γ} {fields : List (String × Shape)}
    (h : l.Stable n fields) (distinct : l.names.Nodup) (hd : d < n) {ms ms' : Members}
    (edit : ∀ k s, fields.lookup k = some s → FieldEdit Edit s (under k ms) (under k ms')) {b : γ} :
    l.Reads d l.vacant ms b ↔ l.Reads d l.vacant ms' b := by
  induction h with
  | nil => exact Iff.rfl
  | @cons _ _ _ name _ _ _ s fields field missing others ih =>
    obtain ⟨fresh, distinct⟩ := List.nodup_cons.1 distinct
    exact and_congr (readsField_edit field missing hd (edit name s (by simp)))
      (ih distinct fun k s' found => edit k s' (lookup_behind (others.names_eq ▸ fresh) found))

/-- A record in the form of an array does not notice changes of its items. -/
theorem Stable.readItems_edit {σ γ : Type} {l : Layout σ γ} {fields : List (String × Shape)}
    (h : l.Stable n fields) (hd : d < n) {pre post : List Outline} {o o' : Outline} {k : String}
    {s : Shape} (field : fields[pre.length]? = some (k, s)) (edit : Edit s o o') :
    Agree (l.readItems d (pre ++ o :: post) .closed)
      (l.readItems d (pre ++ o' :: post) .closed) := by
  induction h generalizing pre with
  | nil => cases field
  | cons stable _ _ ih =>
    cases pre with
    | nil =>
      obtain ⟨rfl, rfl⟩ := Prod.mk.inj (Option.some.inj field)
      exact .bind (stable.edit hd edit) fun _ => .refl
    | cons p pre => exact .bind .refl fun _ => .bind (ih field) fun _ => .refl

theorem Stable.failsByMismatch_store {σ γ : Type} {l : Layout σ γ} {fields : List (String × Shape)}
    (h : l.Stable n fields) (distinct : l.names.Nodup) (hd : d < n) {k : String} {o : Outline}
    (legible : ∀ s, fields.lookup k = some s → Legible d s o) {slots : σ} {r : Except Fault σ}
    (stored : l.store d k o slots = some r) : FailsByMismatch r := by
  induction h with
  | nil => cases stored
  | @cons _ _ _ name c _ _ s fields field _ others ih =>
    obtain ⟨slot, slots⟩ := slots
    obtain ⟨fresh, distinct⟩ := List.nodup_cons.1 distinct
    by_cases same : k = name
    · subst same
      cases slot with
      | some a =>
        obtain rfl := Option.some.inj (store_again.symm.trans stored)
        exact failsByMismatch_mismatch
      | none =>
        obtain rfl := Option.some.inj (store_first.symm.trans stored)
        exact (field.fails hd (legible s (by simp))).map _
    · rw [store_others same] at stored
      obtain ⟨r', behind, rfl⟩ := Option.map_eq_some_iff.1 stored
      exact (ih distinct (fun s' found =>
        legible s' (lookup_behind (others.names_eq ▸ fresh) found)) behind).map _

theorem Stable.failsByMismatch_readItems {σ γ : Type} {l : Layout σ γ}
    {fields : List (String × Shape)} (h : l.Stable n fields) (hd : d < n) {os : List Outline}
    (short : os.length ≤ fields.length)
    (legible : ∀ (i : Nat) o k s, os[i]? = some o → fields[i]? = some (k, s) → Legible d s o) :
    FailsByMismatch (l.readItems d os .closed) := by
  induction h generalizing os with
  | nil =>
    cases os with
    | nil => exact failsByMismatch_ok
    | cons o os => simp at short
  | @cons _ _ _ name _ _ _ s fields field _ _ ih =>
    cases os with
    | nil => exact failsByMismatch_mismatch
    | cons o os =>
      have first := field.fails hd (legible 0 o name s rfl rfl)
      have more := ih (by simpa using short) fun i o k s => legible (i + 1) o k s
      exact first.bind fun _ _ => more.bind fun _ _ => failsByMismatch_ok

/-- A record is read the same from members that can be passed over and fields that change as those
of a field can. -/
theorem Stable.object_edit {σ γ α : Type} {l : Layout σ γ} {fields : List (String × Shape)}
    {toFields : α → γ} {ofFields : γ → α} (h : l.Stable n fields) (distinct : l.names.Nodup)
    (hd : d < n + 1) {ms ms' : Members}
    (passable : Passable (fields.map Prod.fst) ms ↔ Passable (fields.map Prod.fst) ms')
    (edit : ∀ k s, fields.lookup k = some s → FieldEdit Edit s (under k ms) (under k ms')) :
    Agree ((l.record toFields ofFields).decode d (.object ms .closed))
      ((l.record toFields ofFields).decode d (.object ms' .closed)) := by
  cases d with
  | zero => exact .refl
  | succ d =>
    intro a
    simp only [l.decode_object_eq_ok_iff distinct, h.names_eq, passable,
      h.reads_edit distinct (Nat.lt_of_succ_lt_succ hd) edit]

end Layout

/-- A record with stable fields of different names is stable at one level more. -/
theorem Stable.record_succ {n : Nat} {σ γ α : Type} {l : Layout σ γ}
    {fields : List (String × Shape)} {toFields : α → γ} {ofFields : γ → α}
    (h : l.Stable n fields) (distinct : l.names.Nodup) :
    Stable (l.record toFields ofFields).decode (.record fields) (n + 1) := by
  constructor
  · intro d hd o o' edit
    cases edit with
    | members shuffle =>
      exact h.object_edit distinct hd shuffle.passable fun k s found =>
        fieldEdit_members shuffle found
    | null field missing =>
      exact h.object_edit distinct hd (by simp [passable_cons, mem_names_of_lookup field])
        fun k s found => fieldEdit_null field missing found
    | member field inner =>
      exact h.object_edit distinct hd
        (by simp [passable_append, passable_cons, mem_names_of_lookup field])
        fun k s found => fieldEdit_member field inner found
    | element field inner =>
      cases d with
      | zero => exact .refl
      | succ d => exact (h.readItems_edit (Nat.lt_of_succ_lt_succ hd) field inner).map _
  · intro d hd o legible
    cases legible with
    | misplaced _ flat whole =>
      have read : (l.record toFields ofFields).decode d o = .error o.unexpected := by
        cases o <;> first | rfl | exact absurd trivial flat
      exact read ▸ failsByMismatch_unexpected whole
    | members passable legible =>
      have read := l.failsByMismatch_readMembers (h.names_eq ▸ passable)
        (fun k o mem slots r stored => h.failsByMismatch_store distinct (Nat.lt_of_succ_lt_succ hd)
          (fun s found => legible k s found o mem) stored) l.vacant
      exact read.bind fun slots _ =>
        .bind failsByMismatch_ok fun _ _ => (l.failsByMismatch_complete slots).map _
    | elements short legible =>
      exact (h.failsByMismatch_readItems (Nat.lt_of_succ_lt_succ hd) short legible).map _

theorem Stable.record {n : Nat} {σ γ α : Type} {l : Layout σ γ}
    {fields : List (String × Shape)} {toFields : α → γ} {ofFields : γ → α}
    (h : l.Stable n fields) (distinct : l.names.Nodup) :
    Stable (l.record toFields ofFields).decode (.record fields) n :=
  (Stable.record_succ h distinct).mono (Nat.le_succ n)

/-! ### Bind values -/

/-- Bind values are stable: neither the order of kind and content nor other members count. -/
theorem Value.stable (n : Nat) : Stable Value.codec.decode .value n := by
  constructor
  · intro d hd o o' edit
    cases edit with
    | @tagged ms ms' shuffle =>
      cases d with
      | zero => exact .refl
      | succ d =>
        intro v
        have kind := shuffle.under (List.mem_cons_self : "type" ∈ ["type", "value"])
        have content := shuffle.under (by simp : "value" ∈ ["type", "value"])
        show readTagged d .closed ms = .ok v ↔ readTagged d .closed ms' = .ok v
        simp only [readTagged_eq_ok_iff, shuffle.passable, Layout.readsField_perm kind,
          Layout.readsField_perm content]
  · intro d hd o legible
    cases legible with
    | misplaced _ flat whole =>
      have read : Value.codec.decode d o = .error o.unexpected := by
        cases o <;> first | rfl | exact absurd trivial flat
      exact read ▸ failsByMismatch_unexpected whole
    | @tagged d ms passable kind content =>
      have kinds : ∀ o ∈ under "type" ms, FailsByMismatch (Kind.decode d o) := fun o mem =>
        (stable_plainCase (n := d + 1)).fails (Nat.lt_succ_self d) (kind o mem)
      exact failsByMismatch_readTagged passable kinds content
    | pair short kind content => exact failsByMismatch_readPair short kind content

end SqlBuilder
