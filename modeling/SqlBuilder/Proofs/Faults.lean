import SqlBuilder.Serial.Codec
import Mathlib.Data.List.Forall2

/-!
# How reading fails

What a step of reading gives is followed through the steps after it, and so is the way it fails:
`FailsByMismatch` says that, if reading fails, a value is not the one looked for, and nothing worse.
Reading a null, a boolean, a number or a string fails in this way if the outline is not broken
(`Codec.IsScalar`), and so does reading an array of them.
-/

namespace SqlBuilder

open Outline

/-! ## Outcomes -/

section

variable {ε α β : Type} {x : Except ε α}

theorem bind_eq_ok_iff {f : α → Except ε β} {b : β} :
    x >>= f = .ok b ↔ ∃ a, x = .ok a ∧ f a = .ok b := by
  cases x with
  | error e => exact ⟨nofun, nofun⟩
  | ok a =>
    constructor
    · exact fun h => ⟨a, rfl, h⟩
    · rintro ⟨_, ⟨⟩, h⟩
      exact h

theorem map_eq_ok_iff {f : α → β} {b : β} : f <$> x = .ok b ↔ ∃ a, x = .ok a ∧ f a = b := by
  cases x with
  | error e => exact ⟨nofun, nofun⟩
  | ok a =>
    constructor
    · exact fun h => ⟨a, rfl, Except.ok.inj h⟩
    · rintro ⟨_, ⟨⟩, rfl⟩
      rfl

theorem andThen_eq_ok_iff {x : Except ε Unit} {y : Except ε β} {b : β} :
    (x >>= fun _ => y) = .ok b ↔ x = .ok () ∧ y = .ok b := by
  rw [bind_eq_ok_iff]
  exact ⟨fun ⟨(), h⟩ => h, fun h => ⟨(), h⟩⟩

end

/-- Reading fails, if at all, because a value is not the one looked for. -/
def FailsByMismatch {α : Type} (x : Except Fault α) : Prop :=
  ∀ f, x = .error f → f = .mismatch

section

variable {α β : Type} {x : Except Fault α}

theorem failsByMismatch_ok {a : α} : FailsByMismatch (.ok a : Except Fault α) := nofun

theorem failsByMismatch_mismatch : FailsByMismatch (.error .mismatch : Except Fault α) := by
  rintro _ ⟨⟩
  rfl

theorem failsByMismatch_unexpected {o : Outline} (whole : o.unexpected = .mismatch) :
    FailsByMismatch (.error o.unexpected : Except Fault α) :=
  whole ▸ failsByMismatch_mismatch

theorem FailsByMismatch.bind {f : α → Except Fault β} (h : FailsByMismatch x)
    (next : ∀ a, x = .ok a → FailsByMismatch (f a)) : FailsByMismatch (x >>= f) := by
  cases x with
  | error e =>
    rintro _ ⟨⟩
    exact h e rfl
  | ok a => exact next a rfl

theorem FailsByMismatch.map (f : α → β) (h : FailsByMismatch x) : FailsByMismatch (f <$> x) := by
  cases x with
  | error e =>
    rintro _ ⟨⟩
    exact h e rfl
  | ok a => exact failsByMismatch_ok

end

/-! ## Items and scalars -/

section

variable {α : Type} {r : Outline → Except Fault α} {os : List Outline}

theorem mapM_eq_ok_iff {as : List α} :
    os.mapM r = .ok as ↔ List.Forall₂ (fun o a => r o = .ok a) os as := by
  induction os generalizing as with
  | nil => simp [pure, Except.pure, eq_comm]
  | cons o os ih =>
    simp only [List.mapM_cons, bind_eq_ok_iff, ih, List.forall₂_cons_left_iff]
    constructor
    · rintro ⟨a, first, as', others, ⟨⟩⟩
      exact ⟨a, as', first, others, rfl⟩
    · rintro ⟨a, as', first, others, rfl⟩
      exact ⟨a, first, as', others, rfl⟩

theorem failsByMismatch_mapM (h : ∀ o ∈ os, FailsByMismatch (r o)) :
    FailsByMismatch (os.mapM r) := by
  induction os with
  | nil => exact failsByMismatch_ok
  | cons o os ih =>
    rw [List.mapM_cons]
    exact (h o List.mem_cons_self).bind fun a _ =>
      (ih fun o mem => h o (List.mem_cons_of_mem _ mem)).bind fun as _ => failsByMismatch_ok

end

namespace Outline

theorem jsonItems_eq_mapM (d : Nat) (os : List Outline) : jsonItems d os = os.mapM (json d) := by
  induction os with
  | nil => simp [jsonItems, pure, Except.pure]
  | cons o os ih =>
    rw [jsonItems, ih, List.mapM_cons]

section

variable (d : Nat)

theorem json_null : null.json d = .ok .null := by rw [json]

theorem json_bool (b : Bool) : (bool b).json d = .ok (.bool b) := by rw [json]

theorem json_number (n : Json.Number) : (number (some n)).json d = .ok (.number n) := by rw [json]

theorem json_string (s : String) : (string (some s)).json d = .ok (.string s) := by rw [json]

end

/-- An array can be read as any value if its items can. -/
theorem exists_json_array_iff {d : Nat} {os : List Outline} {ending : Ending} :
    (∃ j, (array os ending).json (d + 1) = .ok j) ↔
      (∃ js, jsonItems d os = .ok js) ∧ ending.finish = .ok () := by
  have read : (array os ending).json (d + 1) =
      jsonItems d os >>= fun js => ending.finish >>= fun _ => .ok (.array js) := by
    rw [json, if_neg (Nat.succ_ne_zero d)]
    rfl
  rw [read]
  constructor
  · rintro ⟨j, h⟩
    obtain ⟨js, items, h⟩ := bind_eq_ok_iff.1 h
    exact ⟨⟨js, items⟩, (andThen_eq_ok_iff.1 h).1⟩
  · rintro ⟨⟨js, items⟩, closed⟩
    exact ⟨.array js, bind_eq_ok_iff.2 ⟨js, items, andThen_eq_ok_iff.2 ⟨closed, rfl⟩⟩⟩

/-- A value that can be read as any value is not broken. -/
theorem unexpected_of_json {d : Nat} {o : Outline} {j : Json} (h : o.json d = .ok j) :
    o.unexpected = .mismatch := by
  cases o with
  | broken => simp [json] at h
  | number n =>
    cases n with
    | none => simp [json] at h
    | some n => rfl
  | string s =>
    cases s with
    | none => simp [json] at h
    | some s => rfl
  | _ => rfl

end Outline

namespace Codec

/-- A form of which every value is a null, a boolean, a number or a string. -/
structure IsScalar {α : Type} (c : Codec α) : Prop where
  flat : ∀ {d o a}, c.decode d o = .ok a → ∀ e, ∃ j, o.json e = .ok j
  fails : ∀ {d o}, o.unexpected = .mismatch → FailsByMismatch (c.decode d o)

section

variable {α : Type} {c : Codec α}

theorem isScalar_of (h : ∀ d o, (∃ a, c.decode d o = .ok a) ∧ (∀ e, ∃ j, o.json e = .ok j) ∨
    c.decode d o = .error .mismatch ∨ c.decode d o = .error o.unexpected) : c.IsScalar := by
  constructor
  · intro d o a read
    rcases h d o with ⟨-, flat⟩ | fails | fails
    · exact flat
    · cases fails.symm.trans read
    · cases fails.symm.trans read
  · intro d o whole
    rcases h d o with ⟨⟨a, read⟩, -⟩ | fails | fails
    · exact read ▸ failsByMismatch_ok
    · exact fails ▸ failsByMismatch_mismatch
    · exact fails ▸ failsByMismatch_unexpected whole

theorem isScalar_nothing : nothing.IsScalar :=
  isScalar_of fun _ o => by cases o <;> simp [nothing, json_null]

theorem isScalar_bool : bool.IsScalar :=
  isScalar_of fun _ o => by cases o <;> simp [bool, json_bool]

theorem isScalar_string : string.IsScalar :=
  isScalar_of fun _ o => by
    cases o with
    | string s => cases s <;> simp [string, json_string]
    | _ => simp [string]

theorem isScalar_parsed {write : α → List Char} {read : String → Option α} :
    (parsed write read).IsScalar :=
  isScalar_of fun _ o => by
    cases o with
    | string s =>
      cases s with
      | none => simp [parsed]
      | some s => cases h : read s <;> simp [parsed, json_string, h]
    | _ => simp [parsed]

theorem isScalar_number {f : Json.Number → Option α} {encode : α → Json} :
    IsScalar ⟨encode, readNumber f⟩ :=
  isScalar_of fun _ o => by
    cases o with
    | number n =>
      cases n with
      | none => simp [readNumber]
      | some n => cases h : f n <;> simp [readNumber, json_number, h]
    | _ => simp [readNumber]

theorem list_decode_array {d : Nat} {os : List Outline} {ending : Ending} :
    c.list.decode (d + 1) (.array os ending) =
      os.mapM (c.decode d) >>= fun as => ending.finish >>= fun _ => .ok as := rfl

theorem IsScalar.exists_jsonItems (h : c.IsScalar) {d : Nat} {os : List Outline} {as : List α}
    (items : List.Forall₂ (fun o a => c.decode d o = .ok a) os as) :
    ∃ js, jsonItems d os = .ok js := by
  simp only [jsonItems_eq_mapM, mapM_eq_ok_iff]
  induction items with
  | nil => exact ⟨[], .nil⟩
  | cons first _ ih =>
    obtain ⟨j, first⟩ := h.flat first d
    obtain ⟨js, others⟩ := ih
    exact ⟨j :: js, .cons first others⟩

/-- A list of scalars is a value like any other. -/
theorem IsScalar.exists_json_list (h : c.IsScalar) {d : Nat} {o : Outline} {as : List α}
    (read : c.list.decode d o = .ok as) : ∃ j, o.json d = .ok j := by
  cases o with
  | array os ending =>
    cases d with
    | zero => cases read
    | succ d =>
      obtain ⟨as, items, read⟩ := bind_eq_ok_iff.1 (list_decode_array.symm.trans read)
      exact exists_json_array_iff.2
        ⟨h.exists_jsonItems (mapM_eq_ok_iff.1 items), (andThen_eq_ok_iff.1 read).1⟩
  | _ => cases read

/-- Where any value can be read, reading a list of scalars fails by a mismatch. -/
theorem IsScalar.failsByMismatch_list (h : c.IsScalar) {d : Nat} {o : Outline} {j : Json}
    (whole : o.json d = .ok j) : FailsByMismatch (c.list.decode d o) := by
  cases o with
  | array os ending =>
    cases d with
    | zero => simp [json] at whole
    | succ d =>
      obtain ⟨⟨js, items⟩, closed⟩ := exists_json_array_iff.1 ⟨j, whole⟩
      rw [list_decode_array, closed]
      refine .bind (failsByMismatch_mapM fun o mem => ?_) fun _ _ => failsByMismatch_ok
      rw [jsonItems_eq_mapM, mapM_eq_ok_iff] at items
      obtain ⟨i, inside, rfl⟩ := List.getElem_of_mem mem
      exact h.fails (unexpected_of_json (items.get inside (items.length_eq ▸ inside)))
  | _ => exact failsByMismatch_unexpected (unexpected_of_json whole)

end

end Codec

end SqlBuilder
