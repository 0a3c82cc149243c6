import SqlBuilder.Proofs.Faults
import SqlBuilder.Proofs.Shapes

/-!
# What is read from the members of an object

The members of a record, or of a bind value, are read one after another, and every one changes what
may follow.  Here it is said of the whole list what it is read as: of each field only the values
under its name count, and of the other members only that they can be passed over
(`Layout.readMembers_eq_ok_iff`, `Value.readTagged_eq_ok_iff`).  For a bind value this joins the two
ways of reading its content, with and without its kind known.
-/

namespace SqlBuilder

open Outline

/-! ## Records -/

namespace Layout

/-- What the values under the name of a field are read as: a single one as it is, none as the field
is taken to be where it is missing, and several as nothing. -/
def ReadsField {α : Type} (decode : Outline → Except Fault α) (absent : Option α) :
    List Outline → α → Prop
  | [], a => absent = some a
  | [o], a => decode o = .ok a
  | _, _ => False

/-- What the values under the name of a field are read as, if it may have been read before. -/
def ReadsSlot {α : Type} (decode : Outline → Except Fault α) (absent : Option α) :
    Option α → List Outline → α → Prop
  | none, os, a => ReadsField decode absent os a
  | some earlier, os, a => os = [] ∧ earlier = a

/-- The record that some members are read as, after the fields that have been read before. -/
def Reads : {σ γ : Type} → Layout σ γ → Nat → σ → Members → γ → Prop
  | _, _, nil, _, (), _, () => True
  | _, _, cons name c absent rest, d, (slot, slots), ms, (a, b) =>
    ReadsSlot (c.decode d) absent slot (under name ms) a ∧ rest.Reads d slots ms b

theorem readsField_cons {α : Type} {decode : Outline → Except Fault α} {absent : Option α}
    {o : Outline} {os : List Outline} {a : α} :
    ReadsField decode absent (o :: os) a ↔ decode o = .ok a ∧ os = [] := by
  cases os with
  | nil => simp [ReadsField]
  | cons o' os => simp [ReadsField]

section

variable {α σ γ : Type} {name k : String} {c : Codec α} {absent : Option α} {rest : Layout σ γ}
  {d : Nat} {o : Outline} {slots : σ}

theorem store_first : (cons name c absent rest).store d name o (none, slots) =
    some ((fun a => (some a, slots)) <$> c.decode d o) := by
  rw [store, if_pos rfl]
  rfl

theorem store_again {a : α} :
    (cons name c absent rest).store d name o (some a, slots) = some (.error .mismatch) := by
  rw [store, if_pos rfl]
  rfl

theorem store_others {slot : Option α} (h : k ≠ name) :
    (cons name c absent rest).store d k o (slot, slots) =
      (rest.store d k o slots).map fun r => (fun slots => (slot, slots)) <$> r := by
  rw [store, if_neg h]

end

/-- Exactly the members under the names of the fields are stored. -/
theorem store_eq_none_iff {σ γ : Type} (l : Layout σ γ) {d : Nat} {k : String} {o : Outline}
    {slots : σ} : l.store d k o slots = none ↔ k ∉ l.names := by
  induction l with
  | nil => simp [store, names]
  | cons name c absent rest ih =>
    obtain ⟨slot, slots⟩ := slots
    by_cases same : k = name
    · subst same
      cases slot with
      | none => simp [store_first, names]
      | some a => simp [store_again, names]
    · simp [store_others same, names, same, ih]

/-- A member under another name does not count. -/
theorem reads_passed {σ γ : Type} (l : Layout σ γ) {d : Nat} {k : String} {o : Outline}
    {slots : σ} {ms : Members} {b : γ} (other : k ∉ l.names) :
    l.Reads d slots ((some k, o) :: ms) b ↔ l.Reads d slots ms b := by
  induction l with
  | nil => rfl
  | cons name c absent rest ih =>
    obtain ⟨slot, slots⟩ := slots
    obtain ⟨a, b⟩ := b
    simp only [names, List.mem_cons, not_or] at other
    simp only [Reads, under_cons_of_ne other.1, ih other.2]

/-- A member under the name of a field is read into the slot of the field. -/
theorem reads_stored {σ γ : Type} (l : Layout σ γ) (distinct : l.names.Nodup) {d : Nat} {k : String}
    {o : Outline} {slots : σ} {ms : Members} {b : γ} (field : k ∈ l.names) :
    l.Reads d slots ((some k, o) :: ms) b ↔
      ∃ slots', l.store d k o slots = some (.ok slots') ∧ l.Reads d slots' ms b := by
  induction l with
  | nil => cases field
  | cons name c absent rest ih =>
    obtain ⟨slot, slots⟩ := slots
    obtain ⟨a, b⟩ := b
    obtain ⟨fresh, distinct⟩ := List.nodup_cons.1 distinct
    by_cases same : k = name
    · subst same
      simp only [Reads, under_cons_self, reads_passed rest fresh]
      cases slot with
      | some earlier => simp [ReadsSlot, store_again]
      | none =>
        simp only [ReadsSlot, readsField_cons, store_first, Option.some.injEq, map_eq_ok_iff]
        constructor
        · rintro ⟨⟨read, empty⟩, others⟩
          exact ⟨(some a, slots), ⟨a, read, rfl⟩, ⟨empty, rfl⟩, others⟩
        · rintro ⟨_, ⟨a', read, rfl⟩, ⟨empty, rfl⟩, others⟩
          exact ⟨⟨read, empty⟩, others⟩
    · have field' : k ∈ rest.names := (List.mem_cons.1 field).resolve_left same
      simp only [Reads, under_cons_of_ne same, ih distinct field', store_others same,
        Option.map_eq_some_iff]
      constructor
      · rintro ⟨first, slots', stored, others⟩
        exact ⟨(slot, slots'), ⟨_, stored, rfl⟩, first, others⟩
      · rintro ⟨_, ⟨r, stored, put⟩, others⟩
        obtain ⟨slots', rfl, rfl⟩ := map_eq_ok_iff.1 put
        exact ⟨others.1, slots', stored, others.2⟩

/-- After the last member the record is complete, or not. -/
theorem reads_nil {σ γ : Type} (l : Layout σ γ) {d : Nat} {slots : σ} {b : γ} :
    l.Reads d slots [] b ↔ l.complete slots = .ok b := by
  induction l with
  | nil => exact ⟨fun _ => rfl, fun _ => trivial⟩
  | cons name c absent rest ih =>
    obtain ⟨slot, slots⟩ := slots
    obtain ⟨a, b⟩ := b
    have present : ReadsSlot (c.decode d) absent slot [] a ↔ slot.or absent = some a := by
      cases slot <;> simp [ReadsSlot, ReadsField]
    simp only [Reads, under_nil, present, ih, complete]
    cases slot.or absent with
    | none => simp
    | some a' => simp [map_eq_ok_iff, and_assoc, and_comm]

/-- What the members of a record are read as. -/
theorem readMembers_eq_ok_iff {σ γ : Type} (l : Layout σ γ) (distinct : l.names.Nodup) {d : Nat}
    {ms : Members} {slots : σ} {b : γ} :
    (∃ slots', l.readMembers d ms slots = .ok slots' ∧ l.complete slots' = .ok b) ↔
      Passable l.names ms ∧ l.Reads d slots ms b := by
  induction ms generalizing slots with
  | nil => simp [readMembers, reads_nil]
  | cons m ms ih =>
    obtain ⟨_ | k, o⟩ := m
    · simp [readMembers, wholeString, bind, Except.bind]
    · rw [passable_cons]
      by_cases field : k ∈ l.names
      · obtain ⟨r, stored⟩ : ∃ r, l.store d k o slots = some r :=
          Option.ne_none_iff_exists'.1 fun missing => l.store_eq_none_iff.1 missing field
        have read : l.readMembers d ((some k, o) :: ms) slots =
            r >>= fun slots => l.readMembers d ms slots := by
          simp [readMembers, wholeString, stored, bind, Except.bind]
        simp only [read, bind_eq_ok_iff, reads_stored l distinct field, stored, Option.some.injEq,
          field, not_true_eq_false, false_imp_iff, true_and]
        constructor
        · rintro ⟨slots'', ⟨slots', rfl, more⟩, done⟩
          obtain ⟨passable, reads⟩ := ih.1 ⟨slots'', more, done⟩
          exact ⟨passable, slots', rfl, reads⟩
        · rintro ⟨passable, slots', rfl, reads⟩
          obtain ⟨slots'', more, done⟩ := ih.2 ⟨passable, reads⟩
          exact ⟨slots'', ⟨slots', rfl, more⟩, done⟩
      · have missing : l.store d k o slots = none := l.store_eq_none_iff.2 field
        have read : l.readMembers d ((some k, o) :: ms) slots =
            o.skip >>= fun _ => l.readMembers d ms slots := by
          simp [readMembers, wholeString, missing, bind, Except.bind]
        simp only [read, bind_eq_ok_iff, reads_passed l field, field, not_false_eq_true,
          true_imp_iff, and_assoc, ← ih]
        constructor
        · rintro ⟨slots', ⟨_, passed, more⟩, done⟩
          exact ⟨passed, slots', more, done⟩
        · rintro ⟨passed, slots', more, done⟩
          exact ⟨slots', ⟨(), passed, more⟩, done⟩

/-- What an object is read as, where a record is looked for. -/
theorem decode_object_eq_ok_iff {σ γ α : Type} (l : Layout σ γ) (distinct : l.names.Nodup)
    {toFields : α → γ} {ofFields : γ → α} {d : Nat} {ms : Members} {a : α} :
    (l.record toFields ofFields).decode (d + 1) (.object ms .closed) = .ok a ↔
      Passable l.names ms ∧ ∃ b, l.Reads d l.vacant ms b ∧ ofFields b = a := by
  have read : (l.record toFields ofFields).decode (d + 1) (.object ms .closed) =
      l.readMembers d ms l.vacant >>= fun slots => ofFields <$> l.complete slots := rfl
  simp only [read, bind_eq_ok_iff, map_eq_ok_iff]
  constructor
  · rintro ⟨slots, reads, b, done, rfl⟩
    obtain ⟨passable, reads⟩ := (l.readMembers_eq_ok_iff distinct).1 ⟨slots, reads, done⟩
    exact ⟨passable, b, reads, rfl⟩
  · rintro ⟨passable, b, reads, rfl⟩
    obtain ⟨slots, reads, done⟩ := (l.readMembers_eq_ok_iff distinct).2 ⟨passable, reads⟩
    exact ⟨slots, reads, b, done, rfl⟩

theorem failsByMismatch_complete {σ γ : Type} (l : Layout σ γ) (slots : σ) :
    FailsByMismatch (l.complete slots) := by
  induction l with
  | nil => exact failsByMismatch_ok
  | cons name c absent rest ih =>
    obtain ⟨slot, slots⟩ := slots
    rw [complete]
    split
    · exact (ih slots).map _
    · exact failsByMismatch_mismatch

/-- Members that can be passed over, or stored, leave a record only mismatches to fail by. -/
theorem failsByMismatch_readMembers {σ γ : Type} (l : Layout σ γ) {d : Nat} {ms : Members}
    (passable : Passable l.names ms)
    (stored : ∀ k, ∀ o ∈ under k ms, ∀ slots r, l.store d k o slots = some r → FailsByMismatch r)
    (slots : σ) : FailsByMismatch (l.readMembers d ms slots) := by
  induction ms generalizing slots with
  | nil => exact failsByMismatch_ok
  | cons m ms ih =>
    obtain ⟨_ | k, o⟩ := m
    · exact absurd passable not_passable_keyless
    · obtain ⟨passed, passable⟩ := passable_cons.1 passable
      have more : ∀ slots, FailsByMismatch (l.readMembers d ms slots) := by
        refine ih passable fun k' o' mem => stored k' o' ?_
        by_cases same : k = k'
        · subst same
          rw [under_cons_self]
          exact List.mem_cons_of_mem _ mem
        · rwa [under_cons_of_ne same]
      cases found : l.store d k o slots with
      | none =>
        have skips : o.skip = .ok () := passed (l.store_eq_none_iff.1 found)
        simpa [readMembers, wholeString, found, skips, bind, Except.bind] using more slots
      | some r =>
        have read : l.readMembers d ((some k, o) :: ms) slots =
            r >>= fun slots => l.readMembers d ms slots := by
          simp [readMembers, wholeString, found, bind, Except.bind]
        rw [read]
        exact (stored k o (by simp) slots r found).bind fun slots' _ => more slots'

end Layout

/-! ## Bind values -/

namespace Value

open Layout Codec

/-- What a value of a kind is where it has no content. -/
def Kind.absent (kind : Kind) : Option Value :=
  if kind = .null then some .null else none

section

variable {d : Nat} {k : String} {o : Outline} {ms : Members} {kind : Kind} {content : Outline}

theorem skipOthers_other (ht : k ≠ "type") (hv : k ≠ "value") :
    skipOthers ((some k, o) :: ms) = o.skip >>= fun _ => skipOthers ms := by
  simp [skipOthers, wholeString, ht, hv, bind, Except.bind]

theorem readContent_value : readContent d kind .closed ((some "value", o) :: ms) =
    kind.content d o >>= fun v => skipOthers ms >>= fun _ => .ok v := rfl

theorem readContent_other (ht : k ≠ "type") (hv : k ≠ "value") :
    readContent d kind .closed ((some k, o) :: ms) =
      o.skip >>= fun _ => readContent d kind .closed ms := by
  simp [readContent, wholeString, ht, hv, bind, Except.bind]

theorem readKind_type : readKind d content .closed ((some "type", o) :: ms) =
    Kind.decode d o >>= fun kind => kind.content d content >>= fun v =>
      skipOthers ms >>= fun _ => .ok v := rfl

theorem readKind_other (ht : k ≠ "type") (hv : k ≠ "value") :
    readKind d content .closed ((some k, o) :: ms) =
      o.skip >>= fun _ => readKind d content .closed ms := by
  simp [readKind, wholeString, ht, hv, bind, Except.bind]

theorem readTagged_type : readTagged d .closed ((some "type", o) :: ms) =
    Kind.decode d o >>= fun kind => readContent d kind .closed ms := rfl

theorem readTagged_value : readTagged d .closed ((some "value", o) :: ms) =
    o.json d >>= fun _ => readKind d o .closed ms := rfl

theorem readTagged_other (ht : k ≠ "type") (hv : k ≠ "value") :
    readTagged d .closed ((some k, o) :: ms) =
      o.skip >>= fun _ => readTagged d .closed ms := by
  simp [readTagged, wholeString, ht, hv, bind, Except.bind]

end

/-- Members are taken apart by their keys: kind, content, and others. -/
@[elab_as_elim]
theorem members_induction {P : Members → Prop} (nil : P [])
    (keyless : ∀ o ms, P ((none, o) :: ms)) (type : ∀ o ms, P ms → P ((some "type", o) :: ms))
    (value : ∀ o ms, P ms → P ((some "value", o) :: ms))
    (other : ∀ k o ms, k ≠ "type" → k ≠ "value" → P ms → P ((some k, o) :: ms)) (ms : Members) :
    P ms := by
  induction ms with
  | nil => exact nil
  | cons m ms ih =>
    obtain ⟨_ | k, o⟩ := m
    · exact keyless o ms
    by_cases ht : k = "type"
    · exact ht ▸ type o ms ih
    by_cases hv : k = "value"
    · exact hv ▸ value o ms ih
    exact other k o ms ht hv ih

/-- The members after kind and content are passed over if neither stands among them. -/
theorem skipOthers_eq_ok_iff {ms : Members} :
    skipOthers ms = .ok () ↔
      Passable ["type", "value"] ms ∧ under "type" ms = [] ∧ under "value" ms = [] := by
  induction ms using members_induction with
  | nil => simp [skipOthers]
  | keyless o ms => simp [skipOthers, wholeString, bind, Except.bind]
  | type o ms ih => simp [skipOthers, wholeString, bind, Except.bind]
  | value o ms ih => simp [skipOthers, wholeString, bind, Except.bind]
  | other k o ms ht hv ih =>
    rw [skipOthers_other ht hv, andThen_eq_ok_iff, ih, under_cons_of_ne ht, under_cons_of_ne hv,
      passable_cons]
    simp [ht, hv, and_assoc]

theorem passOthers_eq_ok_iff {ms : Members} {v w : Value} :
    (skipOthers ms >>= fun _ => .ok v) = .ok w ↔
      (Passable ["type", "value"] ms ∧ under "type" ms = [] ∧ under "value" ms = []) ∧ v = w := by
  rw [andThen_eq_ok_iff, skipOthers_eq_ok_iff, Except.ok.injEq]

/-- What is read after the kind. -/
theorem readContent_eq_ok_iff {d : Nat} {kind : Kind} {ms : Members} {v : Value} :
    readContent d kind .closed ms = .ok v ↔ Passable ["type", "value"] ms ∧
      under "type" ms = [] ∧ ReadsField (kind.content d) kind.absent (under "value" ms) v := by
  induction ms using members_induction with
  | nil =>
    cases kind <;>
      simp [readContent, Kind.absent, ReadsField, Ending.finish, bind, Except.bind, pure,
        Except.pure]
  | keyless o ms => simp [readContent, wholeString, bind, Except.bind]
  | type o ms ih => simp [readContent, wholeString, bind, Except.bind]
  | value o ms ih =>
    rw [readContent_value, bind_eq_ok_iff, under_cons_of_ne (by decide), under_cons_self,
      readsField_cons]
    simp only [passOthers_eq_ok_iff, passable_cons]
    constructor
    · rintro ⟨_, read, ⟨passable, noType, noValue⟩, rfl⟩
      exact ⟨⟨by simp, passable⟩, noType, read, noValue⟩
    · rintro ⟨⟨-, passable⟩, noType, read, noValue⟩
      exact ⟨v, read, ⟨passable, noType, noValue⟩, rfl⟩
  | other k o ms ht hv ih =>
    rw [readContent_other ht hv, andThen_eq_ok_iff, ih, under_cons_of_ne ht, under_cons_of_ne hv,
      passable_cons]
    simp [ht, hv, and_assoc]

/-- What is read after content whose kind is not known yet. -/
theorem readKind_eq_ok_iff {d : Nat} {content : Outline} {ms : Members} {v : Value} :
    readKind d content .closed ms = .ok v ↔ Passable ["type", "value"] ms ∧
      under "value" ms = [] ∧
      ∃ kind, ReadsField (Kind.decode d) none (under "type" ms) kind ∧
        kind.content d content = .ok v := by
  induction ms using members_induction with
  | nil => simp [readKind, ReadsField, Ending.finish, bind, Except.bind]
  | keyless o ms => simp [readKind, wholeString, bind, Except.bind]
  | type o ms ih =>
    rw [readKind_type, bind_eq_ok_iff, under_cons_of_ne (by decide), under_cons_self]
    simp only [bind_eq_ok_iff (x := Kind.content _ _ _), passOthers_eq_ok_iff, passable_cons,
      readsField_cons]
    constructor
    · rintro ⟨kind, chosen, _, read, ⟨passable, noType, noValue⟩, rfl⟩
      exact ⟨⟨by simp, passable⟩, noValue, kind, ⟨chosen, noType⟩, read⟩
    · rintro ⟨⟨-, passable⟩, noValue, kind, ⟨chosen, noType⟩, read⟩
      exact ⟨kind, chosen, v, read, ⟨passable, noType, noValue⟩, rfl⟩
  | value o ms ih => simp [readKind, wholeString, bind, Except.bind]
  | other k o ms ht hv ih =>
    rw [readKind_other ht hv, andThen_eq_ok_iff, ih, under_cons_of_ne ht, under_cons_of_ne hv,
      passable_cons]
    simp [ht, hv, and_assoc]

/-- Content that is understood can be read without its kind. -/
theorem exists_json_of_content {d : Nat} {kind : Kind} {o : Outline} {v : Value}
    (h : kind.content d o = .ok v) : ∃ j, o.json d = .ok j := by
  cases kind with
  | null =>
    obtain ⟨u, h, -⟩ := map_eq_ok_iff.1 h
    cases o with
    | array => cases d <;> cases h
    | object => cases d <;> cases h
    | _ => exact isScalar_nothing.flat h d
  | bool =>
    obtain ⟨b, h, -⟩ := map_eq_ok_iff.1 h
    exact isScalar_bool.flat h d
  | int =>
    obtain ⟨i, h, -⟩ := map_eq_ok_iff.1 h
    exact isScalar_number.flat h d
  | float =>
    obtain ⟨x, h, -⟩ := map_eq_ok_iff.1 h
    exact isScalar_number.flat h d
  | text =>
    obtain ⟨s, h, -⟩ := map_eq_ok_iff.1 h
    exact isScalar_string.flat h d
  | bytes =>
    obtain ⟨bs, h, -⟩ := map_eq_ok_iff.1 h
    exact isScalar_number.exists_json_list h
  | uuid =>
    obtain ⟨u, h, -⟩ := map_eq_ok_iff.1 h
    exact isScalar_parsed.flat h d
  | timestamp =>
    obtain ⟨t, h, -⟩ := map_eq_ok_iff.1 h
    exact isScalar_parsed.flat h d
  | json =>
    obtain ⟨j, h, -⟩ := map_eq_ok_iff.1 h
    exact ⟨j, h⟩

/-- Content that can be read without its kind is, if anything, of another kind. -/
theorem failsByMismatch_content {d : Nat} {kind : Kind} {o : Outline} {j : Json}
    (h : o.json d = .ok j) : FailsByMismatch (kind.content d o) := by
  have whole := unexpected_of_json h
  cases kind with
  | null =>
    refine .map _ ?_
    cases o with
    | array =>
      cases d with
      | zero => simp [Outline.json] at h
      | succ d => exact failsByMismatch_mismatch
    | object =>
      cases d with
      | zero => simp [Outline.json] at h
      | succ d => exact failsByMismatch_mismatch
    | _ => exact isScalar_nothing.fails (d := d) whole
  | bool => exact (isScalar_bool.fails whole).map _
  | int => exact (isScalar_number.fails whole).map _
  | float => exact (isScalar_number.fails whole).map _
  | text => exact (isScalar_string.fails whole).map _
  | bytes => exact (isScalar_number.failsByMismatch_list h).map _
  | uuid => exact (isScalar_parsed.fails whole).map _
  | timestamp => exact (isScalar_parsed.fails whole).map _
  | json =>
    refine .map _ ?_
    show FailsByMismatch (o.json d)
    exact h ▸ failsByMismatch_ok

/-- What the members of a bind value are read as: the order of kind and content does not count. -/
theorem readTagged_eq_ok_iff {d : Nat} {ms : Members} {v : Value} :
    readTagged d .closed ms = .ok v ↔ Passable ["type", "value"] ms ∧
      ∃ kind, ReadsField (Kind.decode d) none (under "type" ms) kind ∧
        ReadsField (kind.content d) kind.absent (under "value" ms) v := by
  induction ms using members_induction with
  | nil => simp [readTagged, ReadsField, Ending.finish, bind, Except.bind]
  | keyless o ms => simp [readTagged, wholeString, bind, Except.bind]
  | type o ms ih =>
    rw [readTagged_type, bind_eq_ok_iff, under_cons_self, under_cons_of_ne (by decide)]
    simp only [readContent_eq_ok_iff, passable_cons, readsField_cons]
    constructor
    · rintro ⟨kind, chosen, passable, noType, read⟩
      exact ⟨⟨by simp, passable⟩, kind, ⟨chosen, noType⟩, read⟩
    · rintro ⟨⟨-, passable⟩, kind, ⟨chosen, noType⟩, read⟩
      exact ⟨kind, chosen, passable, noType, read⟩
  | value o ms ih =>
    rw [readTagged_value, bind_eq_ok_iff, under_cons_of_ne (by decide), under_cons_self]
    simp only [readKind_eq_ok_iff, passable_cons, readsField_cons]
    constructor
    · rintro ⟨-, -, passable, noValue, kind, chosen, read⟩
      exact ⟨⟨by simp, passable⟩, kind, chosen, read, noValue⟩
    · rintro ⟨⟨-, passable⟩, kind, chosen, read, noValue⟩
      obtain ⟨j, held⟩ := exists_json_of_content read
      exact ⟨j, held, passable, noValue, kind, chosen, read⟩
  | other k o ms ht hv ih =>
    rw [readTagged_other ht hv, andThen_eq_ok_iff, ih, under_cons_of_ne ht, under_cons_of_ne hv,
      passable_cons]
    simp [ht, hv, and_assoc]

/-! ### Failing -/

section

variable {d : Nat} {ms : Members}

theorem failsByMismatch_skipOthers (passable : Passable ["type", "value"] ms) :
    FailsByMismatch (skipOthers ms) := by
  induction ms using members_induction with
  | nil => exact failsByMismatch_ok
  | keyless o ms => exact absurd passable not_passable_keyless
  | type o ms ih => exact failsByMismatch_mismatch
  | value o ms ih => exact failsByMismatch_mismatch
  | other k o ms ht hv ih =>
    obtain ⟨passed, others⟩ := passable_cons.1 passable
    rw [skipOthers_other ht hv, passed (by simp [ht, hv])]
    exact ih others

theorem failsByMismatch_readContent {kind : Kind} (passable : Passable ["type", "value"] ms)
    (content : ∀ o ∈ under "value" ms, ∃ j, o.json d = .ok j) :
    FailsByMismatch (readContent d kind .closed ms) := by
  induction ms using members_induction with
  | nil =>
    cases kind <;> first | exact failsByMismatch_ok | exact failsByMismatch_mismatch
  | keyless o ms => exact absurd passable not_passable_keyless
  | type o ms ih => exact failsByMismatch_mismatch
  | value o ms ih =>
    obtain ⟨j, held⟩ := content o (by simp)
    rw [readContent_value]
    exact (failsByMismatch_content held).bind fun v _ =>
      (failsByMismatch_skipOthers (passable_cons.1 passable).2).bind fun _ _ => failsByMismatch_ok
  | other k o ms ht hv ih =>
    obtain ⟨passed, others⟩ := passable_cons.1 passable
    rw [readContent_other ht hv, passed (by simp [ht, hv])]
    exact ih others (by rwa [under_cons_of_ne hv] at content)

theorem failsByMismatch_readKind {content : Outline} {j : Json}
    (passable : Passable ["type", "value"] ms)
    (kinds : ∀ o ∈ under "type" ms, FailsByMismatch (Kind.decode d o))
    (held : content.json d = .ok j) : FailsByMismatch (readKind d content .closed ms) := by
  induction ms using members_induction with
  | nil => exact failsByMismatch_mismatch
  | keyless o ms => exact absurd passable not_passable_keyless
  | type o ms ih =>
    rw [readKind_type]
    exact (kinds o (by simp)).bind fun kind _ => (failsByMismatch_content held).bind fun v _ =>
      (failsByMismatch_skipOthers (passable_cons.1 passable).2).bind fun _ _ => failsByMismatch_ok
  | value o ms ih => exact failsByMismatch_mismatch
  | other k o ms ht hv ih =>
    obtain ⟨passed, others⟩ := passable_cons.1 passable
    rw [readKind_other ht hv, passed (by simp [ht, hv])]
    exact ih others (by rwa [under_cons_of_ne ht] at kinds)

/-- Members that can be passed over, kinds that are looked for, and content that can be read without
a kind leave a bind value only mismatches to fail by. -/
theorem failsByMismatch_readTagged (passable : Passable ["type", "value"] ms)
    (kinds : ∀ o ∈ under "type" ms, FailsByMismatch (Kind.decode d o))
    (content : ∀ o ∈ under "value" ms, ∃ j, o.json d = .ok j) :
    FailsByMismatch (readTagged d .closed ms) := by
  induction ms using members_induction with
  | nil => exact failsByMismatch_mismatch
  | keyless o ms => exact absurd passable not_passable_keyless
  | type o ms ih =>
    rw [readTagged_type]
    exact (kinds o (by simp)).bind fun kind _ =>
      failsByMismatch_readContent (passable_cons.1 passable).2
        (by rwa [under_cons_of_ne (by decide)] at content)
  | value o ms ih =>
    obtain ⟨j, held⟩ := content o (by simp)
    rw [readTagged_value]
    exact .bind (held ▸ failsByMismatch_ok) fun _ _ =>
      failsByMismatch_readKind (passable_cons.1 passable).2
        (by rwa [under_cons_of_ne (by decide)] at kinds) held
  | other k o ms ht hv ih =>
    obtain ⟨passed, others⟩ := passable_cons.1 passable
    rw [readTagged_other ht hv, passed (by simp [ht, hv])]
    exact ih others (by rwa [under_cons_of_ne ht] at kinds)
      (by rwa [under_cons_of_ne hv] at content)

/-- The same of a bind value in the form of an array. -/
theorem failsByMismatch_readPair {os : List Outline} (short : os.length ≤ 2)
    (kind : ∀ o, os[0]? = some o → o.unexpected = .mismatch)
    (content : ∀ o, os[1]? = some o → ∃ j, o.json d = .ok j) :
    FailsByMismatch (readPair d .closed os) := by
  have plain : ∀ t, t.unexpected = .mismatch → FailsByMismatch (Kind.decodePlain d t) :=
    fun t whole => isScalar_parsed.fails whole
  match os with
  | [] => exact failsByMismatch_mismatch
  | [t] => exact (plain t (kind t rfl)).bind fun _ _ => failsByMismatch_mismatch
  | [t, o] =>
    obtain ⟨j, held⟩ := content o rfl
    exact (plain t (kind t rfl)).bind fun k _ =>
      (failsByMismatch_content held).bind fun v _ => failsByMismatch_ok
  | _ :: _ :: _ :: _ => simp at short

end

end Value

end SqlBuilder
