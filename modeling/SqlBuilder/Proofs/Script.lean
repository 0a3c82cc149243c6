import Mathlib.Data.List.Forall2
import SqlBuilder.Sql.Built

/-!
# Scripts

A `Script` is what an action writes, taken apart from the style and from the writer: a list of
pieces and the outcome.  `printed` gives the pieces as text in a style, where the first bind value
takes the number after those bound before.  `Emits a s` says that the action `a` does what the
script `s` says in every style and after whatever was written before; the rules for `Emits` follow
the actions of a writer.  A build from a script is its text and its values (`buildWith_of_emits`).
-/

namespace SqlBuilder

/-- A piece of SQL.  Fixed text, numbers and literal text look alike in every style. -/
inductive Piece where
  | text (s : String)
  | number (n : UInt64)
  | literal (sql : String)
  | ident (name : String)
  | param (v : Value)

namespace Piece

/-- The bind value, if the piece is one. -/
def value? : Piece → Option Value
  | param v => some v
  | _ => none

/-- The bind values of some pieces. -/
def values (ps : List Piece) : List Value :=
  ps.filterMap value?

/-- The text of a piece; `n` is its number if it is a bind value. -/
def write (style : Style) (n : Nat) : Piece → String
  | text s => s
  | number n => toString n
  | literal sql => sql
  | ident name => Identifier.write (style.quoting = .always) name
  | param _ => Writing.placeholder style.placeholder n

/-- The texts of some pieces where `n` values are bound before them. -/
def printed (style : Style) : Nat → List Piece → List String
  | _, [] => []
  | n, p :: ps => p.write style (n + 1) :: printed style (n + (values [p]).length) ps

/-- The text of some pieces where `n` values are bound before them. -/
def print (style : Style) (n : Nat) (ps : List Piece) : String :=
  String.join (printed style n ps)

/-- The texts among those of some pieces that stand for bind values. -/
def placeholders (style : Style) (n : Nat) (ps : List Piece) : List String :=
  ((ps.zip (printed style n ps)).filter fun x => x.1.value?.isSome).map Prod.snd

@[simp]
theorem values_nil : values [] = [] := rfl

@[simp]
theorem values_append (ps qs : List Piece) : values (ps ++ qs) = values ps ++ values qs :=
  List.filterMap_append

theorem values_cons (p : Piece) (ps : List Piece) : values (p :: ps) = values [p] ++ values ps :=
  values_append [p] ps

theorem printed_append (style : Style) (n : Nat) (ps qs : List Piece) :
    printed style n (ps ++ qs) =
      printed style n ps ++ printed style (n + (values ps).length) qs := by
  induction ps generalizing n with
  | nil => rfl
  | cons p ps ih =>
    rw [List.cons_append, printed, printed, ih, values_cons p ps, List.length_append, Nat.add_assoc,
      List.cons_append]

@[simp]
theorem print_nil (style : Style) (n : Nat) : print style n [] = "" := rfl

theorem print_append (style : Style) (n : Nat) (ps qs : List Piece) :
    print style n (ps ++ qs) = print style n ps ++ print style (n + (values ps).length) qs := by
  rw [print, printed_append, String.join_append]
  rfl

theorem print_singleton (style : Style) (n : Nat) (p : Piece) :
    print style n [p] = p.write style (n + 1) := by
  simp [print, printed]

/-- The placeholders are numbered on from the values bound before, without gaps. -/
theorem placeholders_eq (style : Style) (n : Nat) (ps : List Piece) :
    placeholders style n ps =
      (List.range' (n + 1) (values ps).length).map (Writing.placeholder style.placeholder) := by
  induction ps generalizing n with
  | nil => rfl
  | cons p ps ih =>
    have tail := ih (n + (values [p]).length)
    rw [placeholders] at tail ⊢
    rw [values_cons p ps, List.length_append, ← List.range'_append_1, List.map_append,
      Nat.add_right_comm n 1, ← tail]
    cases p <;> rfl

end Piece

namespace Writer

/-- The writer after some pieces. -/
def emit (w : Writer) (ps : List Piece) : Writer :=
  { w with
    sql := w.sql ++ Piece.print w.style w.params.size ps
    params := w.params ++ (Piece.values ps).toArray }

@[simp]
theorem emit_nil (w : Writer) : w.emit [] = w := by
  simp [emit]

theorem emit_append (w : Writer) (ps qs : List Piece) :
    w.emit (ps ++ qs) = (w.emit ps).emit qs := by
  simp [emit, Piece.print_append, String.append_assoc]

end Writer

/-- The pieces that are written, and whether that ends in an error. -/
structure Script where
  pieces : List Piece := []
  outcome : Except BuildError Unit := .ok ()

namespace Script

/-! ## Composing scripts -/

instance : EmptyCollection Script := ⟨{}⟩

/-- One script after another; nothing follows an error. -/
instance : Append Script where
  append a b :=
    match a.outcome with
    | .ok () => ⟨a.pieces ++ b.pieces, b.outcome⟩
    | .error _ => a

/-- Fixed text. -/
def text (s : String) : Script := { pieces := [.text s] }

/-- A number in digits. -/
def number (n : UInt64) : Script := { pieces := [.number n] }

/-- Text that the caller gives. -/
def literal (sql : String) : Script := { pieces := [.literal sql] }

/-- A name, which the style may put between quotes. -/
def ident (name : String) : Script := { pieces := [.ident name] }

/-- A placeholder, to which a value is bound. -/
def param (v : Value) : Script := { pieces := [.param v] }

/-- Nothing but an error. -/
def fail (e : BuildError) : Script := { outcome := .error e }

/-- Scripts in order, with a text after each but the last. -/
def separated (separator : String) : List Script → Script
  | [] => ∅
  | [s] => s
  | s :: ss => s ++ text separator ++ separated separator ss

/-- A script between parentheses. -/
def parenthesized (s : Script) : Script :=
  text "(" ++ s ++ text ")"

/-- Values with commas between their placeholders. -/
def params (vs : List Value) : Script :=
  separated ", " (vs.map param)

theorem separated_cons_cons (separator : String) (s t : Script) (ss : List Script) :
    separated separator (s :: t :: ss) = s ++ text separator ++ separated separator (t :: ss) :=
  rfl

@[simp]
theorem pieces_empty : (∅ : Script).pieces = [] := rfl

@[simp]
theorem empty_append (s : Script) : ∅ ++ s = s := rfl

theorem append_of_ok {a : Script} (h : a.outcome = .ok ()) (b : Script) :
    a ++ b = ⟨a.pieces ++ b.pieces, b.outcome⟩ := by
  obtain ⟨ps, o⟩ := a
  subst h
  rfl

theorem append_of_error {a : Script} {e : BuildError} (h : a.outcome = .error e) (b : Script) :
    a ++ b = a := by
  obtain ⟨ps, o⟩ := a
  subst h
  rfl

theorem outcome_append_eq_ok {a b : Script} :
    (a ++ b).outcome = .ok () ↔ a.outcome = .ok () ∧ b.outcome = .ok () := by
  rcases h : a.outcome with e | ⟨⟩
  · simp [append_of_error h, h]
  · simp [append_of_ok h]

theorem append_assoc (a b c : Script) : a ++ b ++ c = a ++ (b ++ c) := by
  rcases ha : a.outcome with e | ⟨⟩
  · rw [append_of_error ha, append_of_error ha, append_of_error ha]
  · rcases hb : b.outcome with e | ⟨⟩
    · rw [append_of_error hb, append_of_error]
      rw [append_of_ok ha]
      exact hb
    · have hab : (a ++ b).outcome = .ok () := by rw [append_of_ok ha, hb]
      rw [append_of_ok hab, append_of_ok ha, append_of_ok ha, append_of_ok hb, List.append_assoc]

section Separated

variable {separator : String} {ss : List Script}

theorem outcome_separated (h : ∀ s ∈ ss, s.outcome = .ok ()) :
    (separated separator ss).outcome = .ok () := by
  induction ss with
  | nil => rfl
  | cons s ss ih =>
    obtain ⟨hs, hss⟩ := List.forall_mem_cons.1 h
    cases ss with
    | nil => exact hs
    | cons t ss =>
      rw [separated_cons_cons]
      exact outcome_append_eq_ok.2 ⟨outcome_append_eq_ok.2 ⟨hs, rfl⟩, ih hss⟩

theorem pieces_separated_cons_cons {s t : Script} (hs : s.outcome = .ok ()) :
    (separated separator (s :: t :: ss)).pieces =
      s.pieces ++ (.text separator :: (separated separator (t :: ss)).pieces) := by
  rw [separated_cons_cons, append_assoc, append_of_ok hs, append_of_ok rfl]
  rfl

theorem values_separated (h : ∀ s ∈ ss, s.outcome = .ok ()) :
    Piece.values (separated separator ss).pieces = ss.flatMap fun s => Piece.values s.pieces := by
  induction ss with
  | nil => rfl
  | cons s ss ih =>
    obtain ⟨hs, hss⟩ := List.forall_mem_cons.1 h
    cases ss with
    | nil => exact (List.append_nil _).symm
    | cons t ss =>
      rw [pieces_separated_cons_cons hs, Piece.values_append, List.flatMap_cons, ← ih hss]
      rfl

/-- The texts of some scripts, where `n` values are bound before the first. -/
def texts (style : Style) : Nat → List Script → List String
  | _, [] => []
  | n, s :: ss =>
    Piece.print style n s.pieces :: texts style (n + (Piece.values s.pieces).length) ss

theorem print_separated (style : Style) (n : Nat) (h : ∀ s ∈ ss, s.outcome = .ok ()) :
    Piece.print style n (separated separator ss).pieces =
      separator.intercalate (texts style n ss) := by
  induction ss generalizing n with
  | nil => rfl
  | cons s ss ih =>
    obtain ⟨hs, hss⟩ := List.forall_mem_cons.1 h
    cases ss with
    | nil => rw [texts, texts, String.intercalate_singleton, separated]
    | cons t ss =>
      have rest := ih (n + (Piece.values s.pieces).length) hss
      rw [texts] at rest
      rw [pieces_separated_cons_cons hs, Piece.print_append, texts, texts,
        String.intercalate_cons_cons, ← rest, String.append_assoc]
      exact congrArg _ (Piece.print_append style _ [.text separator] _)

theorem texts_params (style : Style) (n : Nat) (vs : List Value) :
    texts style n (vs.map param) =
      (List.range' (n + 1) vs.length).map (Writing.placeholder style.placeholder) := by
  induction vs generalizing n with
  | nil => rfl
  | cons v vs ih =>
    rw [List.map_cons, texts, List.length_cons, List.range'_succ, List.map_cons, ← ih (n + 1)]
    exact congrArg (· :: _) (Piece.print_singleton style n (.param v))

end Separated

theorem outcome_params (vs : List Value) : (params vs).outcome = .ok () :=
  outcome_separated (List.forall_mem_map.2 fun _ _ => rfl)

/-- The placeholders are numbered on from the values bound before. -/
theorem print_params (style : Style) (n : Nat) (vs : List Value) :
    Piece.print style n (params vs).pieces = ", ".intercalate ((List.range' (n + 1) vs.length).map
      (Writing.placeholder style.placeholder)) := by
  rw [params, print_separated style n (List.forall_mem_map.2 fun _ _ => rfl), texts_params]

theorem values_params (vs : List Value) : Piece.values (params vs).pieces = vs := by
  rw [params, values_separated (List.forall_mem_map.2 fun _ _ => rfl), List.flatMap_map]
  exact List.flatMap_singleton' vs

theorem ite_append {c : Prop} [Decidable c] (a b u : Script) :
    (if c then a else b) ++ u = if c then a ++ u else b ++ u := by
  split_ifs <;> rfl

end Script

/-! ## What an action writes -/

/-- The action writes the script, in every style and after whatever was written before. -/
def Emits (a : Writing Unit) (s : Script) : Prop :=
  ∀ w : Writer, a.run.run w = (s.outcome, w.emit s.pieces)

theorem emits_pure : Emits (pure ()) ∅ := by
  intro w
  rw [Script.pieces_empty, Writer.emit_nil]
  rfl

theorem emits_fail (e : BuildError) : Emits (throw e) (.fail e) := by
  intro w
  rw [show (Script.fail e).pieces = [] from rfl, Writer.emit_nil]
  rfl

theorem emits_text (s : String) : Emits (Writing.text s) (.text s) := by
  intro w
  simp only [Script.text, Writer.emit, Piece.print_singleton]
  rfl

theorem emits_text_number (s : String) (n : UInt64) :
    Emits (Writing.text (s ++ toString n)) (.text s ++ .number n) := by
  intro w
  have h : Piece.print w.style w.params.size [.text s, .number n] = s ++ toString n := by
    simp [Piece.print, Piece.printed, Piece.write]
  change _ = (_, w.emit [.text s, .number n])
  rw [Writer.emit, h]
  rfl

theorem emits_literal (sql : String) : Emits (Writing.text sql) (.literal sql) :=
  emits_text sql

theorem emits_ident (name : String) : Emits (Writing.ident name) (.ident name) := by
  intro w
  simp only [Script.ident, Writer.emit, Piece.print_singleton]
  rfl

theorem emits_param (v : Value) : Emits (Writing.param v) (.param v) := by
  intro w
  simp only [Script.param, Writer.emit, Piece.print_singleton]
  rfl

theorem emits_fail_bind (e : BuildError) (b : Unit → Writing Unit) :
    Emits (throw e >>= b) (.fail e) :=
  emits_fail e

theorem Emits.seq {a b : Writing Unit} {s t : Script} (ha : Emits a s) (hb : Emits b t) :
    Emits (a >>= fun _ => b) (s ++ t) := by
  intro w
  have h : (a >>= fun _ => b).run.run w = (match a.run.run w with
      | (.ok _, w') => b.run.run w'
      | (.error e, w') => (.error e, w')) := by
    rw [ExceptT.run_bind, StateT.run_bind]
    rcases a.run.run w with ⟨_ | _, w'⟩ <;> rfl
  rw [h, ha]
  rcases hs : s.outcome with e | ⟨⟩
  · rw [Script.append_of_error hs, hs]
  · rw [Script.append_of_ok hs, Writer.emit_append]
    exact hb _

theorem Emits.ite {c : Prop} [Decidable c] {a b : Writing Unit} {s t : Script} (ha : Emits a s)
    (hb : Emits b t) : Emits (if c then a else b) (if c then s else t) := by
  split_ifs
  · exact ha
  · exact hb

theorem Emits.parenthesized {a : Writing Unit} {s : Script} (h : Emits a s) :
    Emits (Writing.parenthesized a) s.parenthesized := by
  rw [Script.parenthesized, Script.append_assoc]
  exact (emits_text "(").seq (h.seq (emits_text ")"))

theorem emits_separated (separator : String) {as : List (Writing Unit)} {ss : List Script}
    (h : List.Forall₂ Emits as ss) :
    Emits (Writing.separated separator as) (Script.separated separator ss) := by
  induction h with
  | nil => exact emits_pure
  | cons ha hr ih =>
    cases hr with
    | nil => exact ha
    | cons hb hr =>
      rw [Script.separated_cons_cons, Script.append_assoc]
      exact ha.seq ((emits_text separator).seq ih)

theorem forall₂_map_of_mem {α β γ : Type} {R : β → γ → Prop} {f : α → β} {g : α → γ} {l : List α}
    (h : ∀ x ∈ l, R (f x) (g x)) : List.Forall₂ R (l.map f) (l.map g) := by
  rw [List.forall₂_map_left_iff, List.forall₂_map_right_iff, List.forall₂_same]
  exact h

/-- Two lists got from one by a map of items and then by a map of what they have become. -/
theorem forall₂_map_map {α β β' γ γ' : Type} {R : β' → γ' → Prop} {u : α → β} {v : α → γ}
    {f : β → β'} {g : γ → γ'} {l : List α} (h : ∀ x ∈ l, R (f (u x)) (g (v x))) :
    List.Forall₂ R ((l.map u).map f) ((l.map v).map g) := by
  rw [List.map_map, List.map_map]
  exact forall₂_map_of_mem h

theorem emits_params (vs : List Value) : Emits (Writing.params vs) (.params vs) :=
  emits_separated ", " (forall₂_map_of_mem fun v _ => emits_param v)

/-! ## Builds -/

namespace Renderable

variable {σ : Type} [Renderable σ]

/-- A build in a style is the text and the values of what the statement emits, or its error. -/
theorem buildWith_of_emits {s : σ} {t : Script} (h : Emits (write s) t) (style : Style) :
    buildWith style s =
      t.outcome.map fun _ => ⟨Piece.print style 0 t.pieces, Piece.values t.pieces⟩ := by
  rw [buildWith, h]
  rcases t with ⟨ps, _ | _⟩
  · rfl
  · simp [Writer.emit, Except.map]

theorem buildWith_eq_ok_iff {s : σ} {t : Script} (h : Emits (write s) t) {style : Style}
    {b : Built} :
    buildWith style s = .ok b ↔
      t.outcome = .ok () ∧ b = ⟨Piece.print style 0 t.pieces, Piece.values t.pieces⟩ := by
  rw [buildWith_of_emits h]
  rcases t with ⟨ps, _ | _⟩ <;> simp [Except.map, eq_comm]

end Renderable

end SqlBuilder
