import Mathlib.Data.List.Chain
import SqlBuilder.Proofs.Lexer
import SqlBuilder.Proofs.Rendering

/-!
# Names never become SQL

Whatever characters are in the names of a statement, its text has the tokens of its pieces, one
piece after the other: a name is one token, a bind value is one placeholder, and every other token
is in the table `fixedTexts` or is the number of a LIMIT or an OFFSET.  Only literal text, which a
caller gives to be taken as it is, is left out.

The tokens of two pieces do not run into each other since a break stands at their border.  This is
a property of the pieces alone (`Apart`), and `Sealed` is what it comes to for a script; the rules
for `Sealed` follow the composition of scripts.
-/

namespace SqlBuilder

/-! ## The tokens of pieces -/

/-- The fixed texts that are ever written, and the tokens of each. -/
def fixedTexts : List (String × List Token) :=
  [ ("", []),
    (" ", []),
    ("*", [.symbol "*"]),
    ("(", [.symbol "("]),
    (")", [.symbol ")"]),
    ("))", [.symbol ")", .symbol ")"]),
    (" (", [.symbol "("]),
    (".", [.symbol "."]),
    (", ", [.symbol ","]),
    ("=", [.symbol "="]),
    ("<>", [.symbol "<>"]),
    (">", [.symbol ">"]),
    (">=", [.symbol ">="]),
    ("<", [.symbol "<"]),
    ("<=", [.symbol "<="]),
    ("LIKE", [.word "LIKE"]),
    ("NOT LIKE", [.word "NOT", .word "LIKE"]),
    (" AND ", [.word "AND"]),
    (" OR ", [.word "OR"]),
    (" AND NOT ", [.word "AND", .word "NOT"]),
    (" OR NOT ", [.word "OR", .word "NOT"]),
    ("1=1", [.number 1, .symbol "=", .number 1]),
    ("1=0", [.number 1, .symbol "=", .number 0]),
    (" IN (", [.word "IN", .symbol "("]),
    (" NOT IN (", [.word "NOT", .word "IN", .symbol "("]),
    (" BETWEEN ", [.word "BETWEEN"]),
    (" NOT BETWEEN ", [.word "NOT", .word "BETWEEN"]),
    (" IS NULL)", [.word "IS", .word "NULL", .symbol ")"]),
    (" IS NOT NULL)", [.word "IS", .word "NOT", .word "NULL", .symbol ")"]),
    ("(COALESCE(", [.symbol "(", .word "COALESCE", .symbol "("]),
    (", 0) = ", [.symbol ",", .number 0, .symbol ")", .symbol "="]),
    ("(MATCH(", [.symbol "(", .word "MATCH", .symbol "("]),
    (") AGAINST(", [.symbol ")", .word "AGAINST", .symbol "("]),
    (" IN BOOLEAN MODE", [.word "IN", .word "BOOLEAN", .word "MODE"]),
    (" WITH QUERY EXPANSION", [.word "WITH", .word "QUERY", .word "EXPANSION"]),
    ("EXISTS ", [.word "EXISTS"]),
    ("NOT EXISTS ", [.word "NOT", .word "EXISTS"]),
    ("SELECT ", [.word "SELECT"]),
    (" AS ", [.word "AS"]),
    (" FROM ", [.word "FROM"]),
    (" WHERE ", [.word "WHERE"]),
    (" WHERE 1=0", [.word "WHERE", .number 1, .symbol "=", .number 0]),
    (" ORDER BY ", [.word "ORDER", .word "BY"]),
    ("ASC", [.word "ASC"]),
    ("DESC", [.word "DESC"]),
    (" LIMIT ", [.word "LIMIT"]),
    (" OFFSET ", [.word "OFFSET"]),
    ("INSERT INTO ", [.word "INSERT", .word "INTO"]),
    (") VALUES (", [.symbol ")", .word "VALUES", .symbol "("]),
    (" ON CONFLICT DO NOTHING", [.word "ON", .word "CONFLICT", .word "DO", .word "NOTHING"]),
    ("UPDATE ", [.word "UPDATE"]),
    (" SET ", [.word "SET"]),
    (" = ", [.symbol "="]),
    ("DELETE FROM ", [.word "DELETE", .word "FROM"]),
    (" UNION ", [.word "UNION"]),
    (" UNION ALL ", [.word "UNION", .word "ALL"]),
    (" INTERSECT ", [.word "INTERSECT"]),
    (" EXCEPT ", [.word "EXCEPT"]) ]

theorem lex_fixedTexts : ∀ e ∈ fixedTexts, lex e.1 = some e.2 := by
  decide

/-- Whether a text is one of the fixed texts. -/
def isFixed (s : String) : Bool :=
  (fixedTexts.lookup s).isSome

/-- The tokens of a fixed text. -/
def fixedTokens (s : String) : List Token :=
  (fixedTexts.lookup s).getD []

theorem lex_of_isFixed {s : String} (h : isFixed s) : lex s = some (fixedTokens s) := by
  obtain ⟨ts, hts⟩ := Option.isSome_iff_exists.1 h
  obtain ⟨before, after, table, -⟩ := List.lookup_eq_some_iff.1 hts
  have mem : (s, ts) ∈ fixedTexts := by
    rw [table]
    exact List.mem_append_right _ List.mem_cons_self
  rw [fixedTokens, hts]
  exact lex_fixedTexts _ mem

namespace Piece

/-- Fixed text is in the table, and there is no literal text. -/
def Known : Piece → Prop
  | text s => isFixed s
  | literal _ => False
  | number _ => True
  | ident _ => True
  | param _ => True

/-- The tokens of a piece; `n` is its number if it is a bind value. -/
def tokens (style : Style) (n : Nat) : Piece → List Token
  | text s => fixedTokens s
  | number k => [.number k.toNat]
  | literal _ => []
  | ident name => [Token.ofName (style.quoting = .always) name]
  | param _ => [Token.ofPlaceholder style.placeholder n]

/-- The tokens of some pieces where `n` values are bound before them. -/
def allTokens (style : Style) : Nat → List Piece → List Token
  | _, [] => []
  | n, p :: ps => p.tokens style (n + 1) ++ allTokens style (n + (values [p]).length) ps

/-- Whether any token may stand before the piece. -/
def opens : Piece → Bool
  | text s => startsWithBreak s
  | _ => false

/-- Whether any token may follow the piece. -/
def closes : Piece → Bool
  | text s => endsWithBreak s
  | _ => false

/-- Of two pieces next to each other, one has a break at their border. -/
def Apart (p q : Piece) : Prop :=
  p.closes ∨ q.opens

theorem lex_write {p : Piece} (h : p.Known) (style : Style) (n : Nat) :
    lex (p.write style n) = some (p.tokens style n) := by
  cases p with
  | text s => exact lex_of_isFixed h
  | number k => exact lex_number k.toNat
  | literal sql => exact h.elim
  | ident name => exact lex_identifier _ name
  | param v => exact lex_placeholder _ n

theorem print_cons (style : Style) (n : Nat) (p : Piece) (ps : List Piece) :
    print style n (p :: ps) =
      p.write style (n + 1) ++ print style (n + (values [p]).length) ps := by
  rw [print, printed, String.join_cons]
  rfl

/-- An empty text does not hide what follows it, so the first break counts. -/
theorem startsWithBreak_print {ps : List Piece} (h : ps.IsChain Apart)
    (hp : ∀ p ∈ ps.head?, p.opens) (style : Style) (n : Nat) :
    startsWithBreak (print style n ps) := by
  induction ps generalizing n with
  | nil => rfl
  | cons p ps ih =>
    obtain ⟨border, tail⟩ := List.isChain_cons.1 h
    have opening := hp p rfl
    rw [print_cons]
    cases p with
    | text s =>
      refine startsWithBreak_append opening fun empty => ih tail (fun q hq => ?_) _
      rcases border q hq with hs | hs
      · rw [closes, show s = "" from empty] at hs
        exact absurd hs (by decide)
      · exact hs
    | _ => cases opening

/-- Pieces that are apart have their own tokens, one piece after the other. -/
theorem lex_print {ps : List Piece} (h : ps.IsChain Apart) (hk : ∀ p ∈ ps, p.Known)
    (style : Style) (n : Nat) : lex (print style n ps) = some (allTokens style n ps) := by
  induction ps generalizing n with
  | nil => rfl
  | cons p ps ih =>
    obtain ⟨border, tail⟩ := List.isChain_cons.1 h
    obtain ⟨hp, hps⟩ := List.forall_mem_cons.1 hk
    rw [print_cons, allTokens]
    refine lex_append (lex_write hp style (n + 1)) (ih tail hps _) ?_
    by_cases hc : p.closes
    · left
      cases p with
      | text s => exact hc
      | _ => cases hc
    · right
      exact startsWithBreak_print tail (fun q hq => (border q hq).resolve_left hc) style _

end Piece

/-! ## Scripts whose pieces are apart -/

/-- Fixed text after which any token may follow. -/
def isOpener (s : String) : Bool :=
  isFixed s && endsWithBreak s

/-- Fixed text before which any token may stand. -/
def isCloser (s : String) : Bool :=
  isFixed s && startsWithBreak s

/-- Fixed text that may stand between any tokens. -/
def isLink (s : String) : Bool :=
  isOpener s && isCloser s

theorem Operator.isFixed_keyword (o : Operator) : isFixed o.keyword := by
  cases o <;> decide

theorem MatchMode.isCloser_modifier (m : MatchMode) : isCloser m.modifier := by
  cases m <;> decide

theorem Conjunction.isLink_separator (c : Conjunction) : isLink c.separator := by
  cases c <;> decide

theorem Direction.isFixed_keyword (d : Direction) : isFixed d.keyword := by
  cases d <;> decide

theorem SetOperator.isLink_keyword (o : SetOperator) : isLink (" " ++ o.keyword ++ " ") := by
  cases o <;> decide

namespace Script

/-- The pieces are known and apart. -/
structure Sealed (s : Script) : Prop where
  apart : s.pieces.IsChain Piece.Apart
  known : ∀ p ∈ s.pieces, p.Known

/-- The first piece, if there is one, may follow any other. -/
def Opening (s : Script) : Prop :=
  ∀ p ∈ s.pieces.head?, p.opens

/-- Any piece may follow the last piece, if there is one. -/
def Closing (s : Script) : Prop :=
  ∀ p ∈ s.pieces.getLast?, p.closes

theorem sealed_singleton {p : Piece} {o : Except BuildError Unit} (h : p.Known) :
    Sealed ⟨[p], o⟩ :=
  ⟨List.isChain_singleton p, List.forall_mem_singleton.2 h⟩

theorem sealed_empty : (∅ : Script).Sealed :=
  ⟨List.isChain_nil, List.forall_mem_nil _⟩

theorem sealed_fail (e : BuildError) : (fail e).Sealed :=
  ⟨List.isChain_nil, List.forall_mem_nil _⟩

theorem sealed_text {t : String} (h : isFixed t) : (text t).Sealed :=
  sealed_singleton h

theorem sealed_number (n : UInt64) : (number n).Sealed :=
  sealed_singleton trivial

theorem sealed_ident (name : String) : (ident name).Sealed :=
  sealed_singleton trivial

theorem sealed_param (v : Value) : (param v).Sealed :=
  sealed_singleton trivial

theorem Sealed.append {a b : Script} (ha : a.Sealed) (hb : b.Sealed)
    (h : a.Closing ∨ b.Opening) : (a ++ b).Sealed := by
  rcases ho : a.outcome with e | ⟨⟩
  · rw [append_of_error ho]
    exact ha
  · rw [append_of_ok ho]
    refine ⟨List.isChain_append.2 ⟨ha.apart, hb.apart, fun p hp q hq => ?_⟩,
      List.forall_mem_append.2 ⟨ha.known, hb.known⟩⟩
    exact h.imp (fun h => h p hp) (fun h => h q hq)

theorem Sealed.opened {t : String} {s : Script} (h : isOpener t) (hs : s.Sealed) :
    (text t ++ s).Sealed := by
  rw [isOpener, Bool.and_eq_true] at h
  refine (sealed_text h.1).append hs (Or.inl fun p hp => ?_)
  obtain rfl : Piece.text t = p := Option.some.inj hp
  exact h.2

theorem opening_text {t : String} (h : isCloser t) : (text t).Opening := by
  rw [isCloser, Bool.and_eq_true] at h
  intro p hp
  obtain rfl : Piece.text t = p := Option.some.inj hp
  exact h.2

theorem opening_text_append {t : String} (h : isCloser t) (s : Script) :
    (text t ++ s).Opening :=
  opening_text h

theorem opening_empty : (∅ : Script).Opening := by
  intro p hp
  cases hp

theorem Sealed.closed {s : Script} {t : String} (hs : s.Sealed) (h : isCloser t) :
    (s ++ text t).Sealed := by
  have opening := opening_text h
  rw [isCloser, Bool.and_eq_true] at h
  exact hs.append (sealed_text h.1) (Or.inr opening)

theorem Sealed.link {a b : Script} {t : String} (ha : a.Sealed) (h : isLink t) (hb : b.Sealed) :
    (a ++ text t ++ b).Sealed := by
  rw [isLink, Bool.and_eq_true] at h
  rw [append_assoc]
  exact ha.append (hb.opened h.1) (Or.inr (opening_text_append h.2 b))

theorem Sealed.ite {c : Prop} [Decidable c] {a b : Script} (ha : a.Sealed) (hb : b.Sealed) :
    (if c then a else b).Sealed := by
  split_ifs
  · exact ha
  · exact hb

theorem Opening.ite {c : Prop} [Decidable c] {a b : Script} (ha : a.Opening) (hb : b.Opening) :
    (if c then a else b).Opening := by
  split_ifs
  · exact ha
  · exact hb

theorem Sealed.parenthesized {s : Script} (h : s.Sealed) : s.parenthesized.Sealed :=
  (h.opened (by decide)).closed (by decide)

theorem sealed_separated {separator : String} (h : isLink separator) {ss : List Script}
    (hs : ∀ s ∈ ss, s.Sealed) : (separated separator ss).Sealed := by
  induction ss with
  | nil => exact sealed_empty
  | cons s ss ih =>
    obtain ⟨first, rest⟩ := List.forall_mem_cons.1 hs
    cases ss with
    | nil => exact first
    | cons t ss => exact first.link h (ih rest)

theorem sealed_list {α β : Type} {u : α → β} {script : β → Script} {l : List α}
    (h : ∀ x ∈ l, (script (u x)).Sealed) : (separated ", " ((l.map u).map script)).Sealed := by
  refine sealed_separated (by decide) ?_
  rw [List.map_map]
  exact List.forall_mem_map.2 h

theorem sealed_params (vs : List Value) : (params vs).Sealed :=
  sealed_separated (by decide) (List.forall_mem_map.2 fun v _ => sealed_param v)

/-! ## Names of tables and columns -/

theorem sealed_schema_append (t : Table) {s : Script} (hs : s.Sealed) :
    (schema t ++ s).Sealed := by
  unfold schema
  cases t.schema with
  | some name => exact (sealed_ident name).link (by decide) hs
  | none => exact hs

theorem sealed_table (t : Table) : (table t).Sealed := by
  have name := sealed_schema_append t (sealed_ident t.name)
  unfold table
  cases t.aliasName with
  | some a =>
    exact name.append ((sealed_ident a).opened (by decide))
      (Or.inr (opening_text_append (by decide) _))
  | none => exact name.append sealed_empty (Or.inr opening_empty)

theorem sealed_column (c : Column) : (column c).Sealed := by
  unfold column qualifier
  cases c.table with
  | some t =>
    refine Sealed.link ?_ (by decide) (sealed_ident c.name)
    rw [ite_append, empty_append]
    exact (sealed_schema_append t (sealed_ident _)).ite (sealed_ident _)
  | none => exact sealed_ident c.name

end Script

/-! ## Entries -/

section Entries

variable {q : Type} {g : q → Script}

theorem Term.sealed_script {t : Term q} (h : ∀ s ∈ t.nested, (g s).Sealed) :
    (t.map g).script.Sealed := by
  cases t with
  | column c => exact Script.sealed_column c
  | subquery s => exact (h s (List.mem_singleton_self s)).parenthesized

theorem Operand.sealed_script {o : Operand q} (h : ∀ s ∈ o.nested, (g s).Sealed) :
    (o.map g).script.Sealed := by
  cases o with
  | value v => exact Script.sealed_param v
  | column c => exact Script.sealed_column c
  | subquery s => exact (h s (List.mem_singleton_self s)).parenthesized

theorem TextMatch.sealed_script {e : TextMatch q} (h : ∀ s ∈ e.nested, (g s).Sealed) :
    (e.map g).script.Sealed := by
  have columns : (Script.separated ", " ((e.map g).columns.map Term.script)).Sealed :=
    Script.sealed_list fun t ht =>
      Term.sealed_script fun s hs => h s (List.mem_flatMap.2 ⟨t, ht, hs⟩)
  unfold TextMatch.script
  refine (Script.sealed_fail _).ite (Script.Sealed.closed ?_ (by decide))
  exact ((columns.opened (by decide)).link (by decide) (Script.sealed_params _)).closed
    (MatchMode.isCloser_modifier _)

theorem InList.sealed_script (negated : Bool) {e : InList q} (h : ∀ s ∈ e.nested, (g s).Sealed) :
    ((e.map g).script negated).Sealed := by
  unfold InList.script
  refine Script.Sealed.ite (Script.sealed_text (by cases negated <;> decide)) ?_
  exact ((((Term.sealed_script h).opened (by decide)).link (by cases negated <;> decide)
    (Script.sealed_params e.values)).closed (by decide))

theorem Range.sealed_script (negated : Bool) {e : Range q} (h : ∀ s ∈ e.nested, (g s).Sealed) :
    ((e.map g).script negated).Sealed :=
  (((Term.sealed_script h).link (by cases negated <;> decide) (Script.sealed_param e.lower)).link
    (by decide) (Script.sealed_param e.upper)).parenthesized

theorem Test.sealed_script {t : Test q} (ht : ∀ sql, t ≠ .literal sql)
    (h : ∀ s ∈ t.nested, (g s).Sealed) : (t.map g).script.Sealed := by
  cases t with
  | comparison c =>
    have subject := Term.sealed_script fun s hs => h s (List.mem_append_left _ hs)
    have target := Operand.sealed_script fun s hs => h s (List.mem_append_right _ hs)
    exact ((subject.link (by decide) (Script.sealed_text c.operator.isFixed_keyword)).link
      (by decide) target).parenthesized
  | literal sql => exact absurd rfl (ht sql)

theorem Term.sealed_nullTestScript (negated : Bool) {t : Term q}
    (h : ∀ s ∈ t.nested, (g s).Sealed) : ((t.map g).nullTestScript negated).Sealed :=
  ((Term.sealed_script h).opened (by decide)).closed (by cases negated <;> decide)

theorem Flag.sealed_script {e : Flag q} (h : ∀ s ∈ e.nested, (g s).Sealed) :
    (e.map g).script.Sealed :=
  (((Term.sealed_script h).opened (by decide)).link (by decide)
    (Script.sealed_param e.value)).closed (by decide)

theorem sealed_rowTestScript (negated : Bool) {s : Script} (h : s.Sealed) :
    (rowTestScript negated s).Sealed :=
  h.parenthesized.opened (by cases negated <;> decide)

theorem Conditions.sealed_clauseScripts {c : Conditions q}
    (hc : ∀ t ∈ c.tests, ∀ sql, t ≠ .literal sql) (h : ∀ s ∈ c.nested, (g s).Sealed) :
    ∀ s ∈ (c.map g).clauseScripts, s.Sealed := by
  obtain ⟨matching, among, notAmong, between, notBetween, tests, isNull, isNotNull, flags, someRow,
    noRow⟩ := c.forall_mem_nested.1 h
  unfold Conditions.clauseScripts Conditions.map
  simp only [List.forall_mem_append, List.forall_mem_map]
  refine ⟨⟨⟨⟨⟨⟨⟨⟨⟨⟨?_, ?_⟩, ?_⟩, ?_⟩, ?_⟩, ?_⟩, ?_⟩, ?_⟩, ?_⟩, ?_⟩, ?_⟩
  · exact fun e he => TextMatch.sealed_script (matching e he)
  · exact fun e he => InList.sealed_script false (among e he)
  · exact fun e he => InList.sealed_script true (notAmong e he)
  · exact fun e he => Range.sealed_script false (between e he)
  · exact fun e he => Range.sealed_script true (notBetween e he)
  · exact fun t ht => Test.sealed_script (hc t ht) (tests t ht)
  · exact fun t ht => Term.sealed_nullTestScript false (isNull t ht)
  · exact fun t ht => Term.sealed_nullTestScript true (isNotNull t ht)
  · exact fun e he => Flag.sealed_script (flags e he)
  · exact fun s hs => sealed_rowTestScript false (someRow s hs)
  · exact fun s hs => sealed_rowTestScript true (noRow s hs)

namespace Predicate

/-- No node holds literal text. -/
inductive LiteralFree : Predicate q → Prop
  | node {own groups} : (∀ t ∈ own.tests, ∀ sql, t ≠ .literal sql) →
    (∀ g ∈ groups, LiteralFree g) → LiteralFree (.node own groups)

theorem sealed_script {p : Predicate q} (hp : p.LiteralFree) (h : ∀ s ∈ p.nested, (g s).Sealed) :
    (p.map g).script.Sealed := by
  induction p using Predicate.induction with
  | node own groups ih =>
    obtain ⟨ownFree, groupsFree⟩ := hp
    obtain ⟨inOwn, inGroups⟩ := (forall_mem_nested own groups).1 h
    rw [map_node, script]
    refine Script.sealed_separated (Conjunction.isLink_separator _) (List.forall_mem_append.2
      ⟨Conditions.sealed_clauseScripts ownFree inOwn, ?_⟩)
    rw [groupScripts_eq, List.forall_mem_map]
    intro p hp
    obtain ⟨p, hmem, rfl⟩ := List.mem_map.1 (List.mem_filter.1 hp).1
    exact (ih p hmem (groupsFree p hmem) (inGroups p hmem)).parenthesized

theorem opening_whereScript {p : Option (Predicate Script)} {s : Script} (hs : s.Opening) :
    (whereScript p s).Opening := by
  unfold whereScript
  cases p.filter hasClauses with
  | some p => exact Script.opening_text_append (by decide) _
  | none => exact hs

theorem sealed_whereScript {p : Option (Predicate q)} (hp : ∀ r ∈ p, r.LiteralFree)
    (h : ∀ r ∈ p, ∀ s ∈ r.nested, (g s).Sealed) {s : Script} (hs : s.Sealed) :
    (whereScript (p.map (map g)) s).Sealed := by
  cases p with
  | none => exact hs
  | some r =>
    unfold whereScript
    rw [Option.map_some, Option.filter_some]
    by_cases hr : (r.map g).hasClauses
    · rw [if_pos hr]
      exact (sealed_script (hp r rfl) (h r rfl)).opened (by decide)
    · rw [if_neg hr]
      exact hs

end Predicate

theorem Term.sealed_selectedScript {t : Term q} (h : ∀ s ∈ t.nested, (g s).Sealed) :
    (t.map g).selectedScript.Sealed := by
  unfold Term.selectedScript
  cases (t.map g).column?.bind Column.aliasName with
  | some a =>
    exact (Term.sealed_script h).append ((Script.sealed_ident a).opened (by decide))
      (Or.inr (Script.opening_text_append (by decide) _))
  | none => exact (Term.sealed_script h).append Script.sealed_empty (Or.inr Script.opening_empty)

theorem SortKey.sealed_script {k : SortKey q} (h : ∀ s ∈ k.nested, (g s).Sealed) :
    (k.map g).script.Sealed :=
  (Term.sealed_script h).link (by decide) (Script.sealed_text (Direction.isFixed_keyword _))

theorem sealed_countScript {keyword : String} (h : isOpener (" " ++ keyword ++ " "))
    (n : Option UInt64) : (countScript keyword n).Sealed := by
  cases n with
  | some n => exact (Script.sealed_number n).opened h
  | none => exact Script.sealed_empty

theorem opening_countScript {keyword : String} (h : isCloser (" " ++ keyword ++ " "))
    (n : Option UInt64) : (countScript keyword n).Opening := by
  cases n with
  | some n => exact Script.opening_text_append h _
  | none => exact Script.opening_empty

theorem Script.sealed_withTable (kind : String) (t : Option Table) {k : Table → Script}
    (h : ∀ t, (k t).Sealed) : (withTable kind t k).Sealed := by
  cases t with
  | some t => exact h t
  | none => exact sealed_fail _

theorem SelectOver.sealed_script {f : SelectOver q} (hf : ∀ p ∈ f.filter, p.LiteralFree)
    (h : ∀ s ∈ f.nested, (g s).Sealed) : (f.map g).script.Sealed := by
  obtain ⟨inColumns, inFilter, inOrder⟩ := f.forall_mem_nested.1 h
  have columns : (Script.separated ", " ((f.map g).columns.map Term.selectedScript)).Sealed :=
    Script.sealed_list fun t ht => Term.sealed_selectedScript (inColumns t ht)
  have order : (Script.separated ", " ((f.map g).orderBy.map SortKey.script)).Sealed :=
    Script.sealed_list fun k hk => SortKey.sealed_script (inOrder k hk)
  have filter := Predicate.sealed_whereScript hf inFilter Script.sealed_empty
  refine Script.sealed_withTable "SELECT" _ fun t => ?_
  refine Script.Sealed.append (Script.Sealed.append (Script.Sealed.append (Script.Sealed.append
    (Script.Sealed.link ?_ (by decide) (Script.sealed_table t)) filter
      (Or.inr (Predicate.opening_whereScript Script.opening_empty))) ?_ ?_)
    (sealed_countScript (by decide) _) (Or.inr (opening_countScript (by decide) _)))
    (sealed_countScript (by decide) _) (Or.inr (opening_countScript (by decide) _))
  · have star : (Script.text "*").Sealed := Script.sealed_text (by decide)
    exact (star.ite columns).opened (by decide)
  · exact Script.sealed_empty.ite (order.opened (by decide))
  · exact Or.inr (Script.opening_empty.ite (Script.opening_text_append (by decide) _))

end Entries

/-! ## Statements -/

/-- No predicate of the SELECT, or of one nested in it, holds literal text. -/
inductive Select.LiteralFree : Select → Prop
  | of {form : SelectOver Select} : (∀ p ∈ form.filter, p.LiteralFree) →
    (∀ s ∈ form.nested, LiteralFree s) → LiteralFree (.of form)

theorem Select.LiteralFree.sealed_script {s : Select} (h : s.LiteralFree) : s.script.Sealed := by
  induction s using Select.induction with
  | of form ih =>
    obtain ⟨own, nested⟩ := h
    rw [Select.script_of]
    exact SelectOver.sealed_script own fun s hs => ih s hs (nested s hs)

/-- No node of a predicate with nested SELECTs holds literal text, at any depth. -/
def Predicate.TreeLiteralFree (p : Predicate Select) : Prop :=
  p.LiteralFree ∧ ∀ s ∈ p.nested, s.LiteralFree

/-- No predicate of the statement holds literal text, at any depth. -/
def Statement.LiteralFree : Statement → Prop
  | select s => s.LiteralFree
  | insert _ => True
  | update s => ∀ p ∈ s.filter, p.TreeLiteralFree
  | delete s => ∀ p ∈ s.filter, p.TreeLiteralFree
  | setOperation o => ∀ s ∈ o.members, s.LiteralFree

theorem sealed_where {p : Option (Predicate Select)} (h : ∀ r ∈ p, r.TreeLiteralFree) {s : Script}
    (hs : s.Sealed) :
    (Predicate.whereScript (p.map (Predicate.map Select.script)) s).Sealed :=
  Predicate.sealed_whereScript (fun r hr => (h r hr).1)
    (fun r hr s hs => ((h r hr).2 s hs).sealed_script) hs

theorem Insert.sealed_script (s : Insert) : s.script.Sealed := by
  unfold Insert.script
  have columns : (Script.separated ", " (s.values.map fun a => .ident a.column)).Sealed :=
    Script.sealed_separated (by decide)
      (List.forall_mem_map.2 fun a _ => Script.sealed_ident a.column)
  refine (Script.sealed_fail _).ite (Script.Sealed.append (Script.Sealed.closed
    (((Script.Sealed.opened (by decide) (Script.sealed_ident _)).link (by decide) columns).link
      (by decide) (Script.sealed_params _)) (by decide)) ?_ (Or.inr ?_))
  · exact (Script.sealed_text (by decide)).ite Script.sealed_empty
  · exact (Script.opening_text (by decide)).ite Script.opening_empty

theorem Assignment.sealed_script (a : Assignment) : a.script.Sealed :=
  (Script.sealed_ident a.column).link (by decide) (Script.sealed_param a.value)

theorem Update.sealed_script {s : Update} (h : ∀ p ∈ s.filter, p.TreeLiteralFree) :
    s.script.Sealed := by
  refine Script.sealed_withTable "UPDATE" _ fun t => ?_
  have values : (Script.separated ", " (s.values.map Assignment.script)).Sealed :=
    Script.sealed_separated (by decide) (List.forall_mem_map.2 fun a _ => a.sealed_script)
  exact (Script.sealed_fail _).ite ((((Script.sealed_table t).opened (by decide)).link (by decide)
    values).append (sealed_where h Script.sealed_empty)
      (Or.inr (Predicate.opening_whereScript Script.opening_empty)))

theorem Delete.sealed_script {s : Delete} (h : ∀ p ∈ s.filter, p.TreeLiteralFree) :
    s.script.Sealed := by
  refine Script.sealed_withTable "DELETE" _ fun t => ?_
  refine ((Script.sealed_table t).opened (by decide)).append (sealed_where h ?_)
    (Or.inr (Predicate.opening_whereScript ?_))
  · exact Script.sealed_empty.ite (Script.sealed_text (by decide))
  · exact Script.opening_empty.ite (Script.opening_text (by decide))

theorem SetOperation.sealed_script {o : SetOperation} (h : ∀ s ∈ o.members, s.LiteralFree) :
    o.script.Sealed :=
  (Script.sealed_fail _).ite (Script.sealed_separated o.operator.isLink_keyword
    (List.forall_mem_map.2 fun s hs => (h s hs).sealed_script.parenthesized))

theorem Statement.LiteralFree.sealed_script {s : Statement} (h : s.LiteralFree) :
    s.script.Sealed := by
  cases s with
  | select s => exact Select.LiteralFree.sealed_script h
  | insert s => exact s.sealed_script
  | update s => exact Update.sealed_script h
  | delete s => exact Delete.sealed_script h
  | setOperation o => exact SetOperation.sealed_script h

/-- The text of a statement without literal text is that of its pieces, all of which are known, and
its tokens are those of the pieces: one for each name, which carries it, one for each bind value,
and otherwise those of fixed texts and numbers. -/
theorem lex_built {s : Statement} (hs : s.LiteralFree) {style : Style} {b : Built}
    (hb : Renderable.buildWith style s = .ok b) :
    b.sql = Piece.print style 0 s.script.pieces ∧ (∀ p ∈ s.script.pieces, p.Known) ∧
      lex b.sql = some (Piece.allTokens style 0 s.script.pieces) := by
  obtain ⟨-, rfl⟩ := (Renderable.buildWith_eq_ok_iff s.emits_write).1 hb
  have pieces := hs.sealed_script
  exact ⟨rfl, pieces.known, Piece.lex_print pieces.apart pieces.known style 0⟩

/-- A SELECT of a column from a table, with every name chosen by an attacker. -/
def hostileSelect : Select :=
  .of
    { table := some { name := "", aliasName := some "?", schema := some "t\"; --" }
      columns := [.column { name := "*" }, .column { name := "é", aliasName := some ") FROM u (" }]
      filter := some (.node
        { tests := [.comparison ⟨.column { name := "$1" }, .lessThanOrEqual, .value .null⟩]
          noRow := [.of { table := some { name := "u" }, limit := some 10 }] } []) }

theorem lex_built_hostileSelect :
    Statement.LiteralFree (.select hostileSelect) ∧
      ∃ b, Renderable.buildWith {} (Statement.select hostileSelect) = .ok b ∧
        b.sql = "SELECT *, \"é\" AS \") FROM u (\" FROM \"t\"\"; --\".\"\" AS \"?\"" ++
          " WHERE (\"$1\" <= $1) AND NOT EXISTS (SELECT * FROM u LIMIT 10)" ∧
        lex b.sql = some
          [.word "SELECT", .symbol "*", .symbol ",", .quoted "é", .word "AS", .quoted ") FROM u (",
            .word "FROM", .quoted "t\"; --", .symbol ".", .quoted "", .word "AS", .quoted "?",
            .word "WHERE", .symbol "(", .quoted "$1", .symbol "<=", .placeholder (some 1),
            .symbol ")", .word "AND", .word "NOT", .word "EXISTS", .symbol "(", .word "SELECT",
            .symbol "*", .word "FROM", .word "u", .word "LIMIT", .number 10, .symbol ")"] := by
  have free : Statement.LiteralFree (.select hostileSelect) := by
    refine .of (fun p hp => ?_) (fun s hs => ?_)
    · obtain rfl := Option.some.inj hp
      refine .node (fun t ht sql => ?_) (List.forall_mem_nil _)
      rw [List.mem_singleton.1 ht]
      exact fun h => nomatch h
    · obtain rfl := List.mem_singleton.1 hs
      exact .of (fun p hp => nomatch hp) (List.forall_mem_nil _)
  have outcome : (Statement.select hostileSelect).script.outcome = .ok () := rfl
  have built : Renderable.buildWith {} (Statement.select hostileSelect) = .ok _ :=
    (Renderable.buildWith_eq_ok_iff (Statement.emits_write _)).2 ⟨outcome, rfl⟩
  refine ⟨free, _, built, by decide, ?_⟩
  rw [(lex_built free built).2.2]
  decide

end SqlBuilder
