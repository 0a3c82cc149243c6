import SqlBuilder.Proofs.Rendering

/-!
# What a predicate means

The text of a predicate is a row of symbols: leaf clauses, which are the atoms, the words AND, OR
and NOT, and parentheses.  `Reads` reads such a row as an SQL condition in three-valued logic, where
NOT binds tighter than AND and AND tighter than OR; a row has at most one reading (`Reads.unique`).
`Predicate.value` is the value of a tree by recursion over its nodes.  The row written for a tree
has a reading whenever the tree holds a clause, and it is the value of the tree.
-/

namespace SqlBuilder

/-! ## Truth values -/

/-- The truth values of SQL. -/
inductive Truth where
  | true
  | false
  | unknown
  deriving DecidableEq, Repr

namespace Truth

/-- Negation; what is unknown stays unknown. -/
def not : Truth → Truth
  | true => false
  | false => true
  | unknown => unknown

/-- Conjunction: one false operand decides, and then an unknown one. -/
def and : Truth → Truth → Truth
  | false, _ => false
  | _, false => false
  | true, true => true
  | _, _ => unknown

/-- Disjunction: one true operand decides, and then an unknown one. -/
def or : Truth → Truth → Truth
  | true, _ => true
  | _, true => true
  | false, false => false
  | _, _ => unknown

theorem not_not (v : Truth) : v.not.not = v := by
  cases v <;> rfl

theorem true_and (v : Truth) : true.and v = v := by
  cases v <;> rfl

theorem false_or (v : Truth) : false.or v = v := by
  cases v <;> rfl

end Truth

/-! ## Reading a condition -/

/-- A symbol of a condition whose atoms are of type `α`. -/
inductive Symbol (α : Type) where
  | atom (a : α)
  | and
  | or
  | not
  | openParen
  | closeParen

/-- The symbol with another atom in place of its own. -/
def Symbol.map {α β : Type} (f : α → β) : Symbol α → Symbol β
  | atom a => .atom (f a)
  | and => .and
  | or => .or
  | not => .not
  | openParen => .openParen
  | closeParen => .closeParen

/-- How tightly a part of a condition is bound. -/
inductive Level where
  | factor
  | conjunction
  | expression

/-- `Reads l s v` says that the symbols are a part of a condition of the level `l`, and that its
value is `v`. -/
inductive Reads : Level → List (Symbol Truth) → Truth → Prop
  | atom (v) : Reads .factor [.atom v] v
  | not {s v} : Reads .factor s v → Reads .factor (.not :: s) v.not
  | group {s v} : Reads .expression s v → Reads .factor (.openParen :: s ++ [.closeParen]) v
  | ofFactor {s v} : Reads .factor s v → Reads .conjunction s v
  | and {s t v w} : Reads .conjunction s v → Reads .factor t w →
    Reads .conjunction (s ++ .and :: t) (v.and w)
  | ofConjunction {s v} : Reads .conjunction s v → Reads .expression s v
  | or {s t v w} : Reads .expression s v → Reads .conjunction t w →
    Reads .expression (s ++ .or :: t) (v.or w)

/-! ## A condition has one reading

The symbols are followed from left to right.  An `OpenGroup` holds what is known of an open
parenthesis: the value of the conjunctions that are complete, that of the factors since then, and
whether a negation waits for its factor. -/

/-- What is known of an open parenthesis before its next symbol. -/
structure OpenGroup where
  disjunction : Truth := .false
  conjunction : Truth := .true
  negated : Bool := false

namespace OpenGroup

/-- The group after one more factor. -/
def factor (v : Truth) (f : OpenGroup) : OpenGroup :=
  ⟨f.disjunction, f.conjunction.and (if f.negated then v.not else v), false⟩

/-- The value of the group if it were closed here. -/
def value (f : OpenGroup) : Truth :=
  f.disjunction.or f.conjunction

/-- The innermost group and those around it, after a symbol. -/
def step : OpenGroup × List OpenGroup → Symbol Truth → OpenGroup × List OpenGroup
  | (f, fs), .atom v => (f.factor v, fs)
  | (f, fs), .and => (f, fs)
  | (f, fs), .or => (⟨f.value, .true, false⟩, fs)
  | (f, fs), .not => ({ f with negated := !f.negated }, fs)
  | (f, fs), .openParen => ({}, f :: fs)
  | (f, g :: fs), .closeParen => (g.factor f.value, fs)
  | (f, []), .closeParen => (f, [])

theorem factor_negated (v : Truth) (f : OpenGroup) :
    ({ f with negated := !f.negated } : OpenGroup).factor v = f.factor v.not := by
  obtain ⟨d, c, n⟩ := f
  cases n
  · rfl
  · change OpenGroup.mk d (c.and v) false = ⟨d, c.and v.not.not, false⟩
    rw [Truth.not_not]

/-- What the symbols of a part do to the open groups, by its level. -/
def After (s : List (Symbol Truth)) (v : Truth) : Level → Prop
  | .factor => ∀ f fs, s.foldl step (f, fs) = (f.factor v, fs)
  | .conjunction => ∀ d fs, s.foldl step (⟨d, .true, false⟩, fs) = (⟨d, v, false⟩, fs)
  | .expression => ∀ fs, ∃ d c, s.foldl step ({}, fs) = (⟨d, c, false⟩, fs) ∧ d.or c = v

end OpenGroup

namespace Reads

open OpenGroup

theorem after {l : Level} {s : List (Symbol Truth)} {v : Truth} (h : Reads l s v) :
    After s v l := by
  induction h with
  | atom v => exact fun f fs => rfl
  | @not s v _ ih =>
    intro f fs
    rw [List.foldl_cons, step, ih, factor_negated]
  | @group s v _ ih =>
    intro f fs
    obtain ⟨d, c, hs, hv⟩ := ih (f :: fs)
    rw [List.foldl_append]
    change List.foldl step (s.foldl step ({}, f :: fs)) [.closeParen] = _
    rw [hs]
    change (f.factor (d.or c), fs) = _
    rw [hv]
  | @ofFactor s v _ ih =>
    intro d fs
    rw [ih, factor, if_neg Bool.false_ne_true, Truth.true_and]
  | @and s t v w _ _ ihs iht =>
    intro d fs
    rw [List.foldl_append, ihs, List.foldl_cons, step, iht, factor, if_neg Bool.false_ne_true]
  | @ofConjunction s v _ ih => exact fun fs => ⟨.false, v, ih .false fs, Truth.false_or v⟩
  | @or s t v w _ _ ihs iht =>
    intro fs
    obtain ⟨d, c, hs, hv⟩ := ihs fs
    refine ⟨v, w, ?_, rfl⟩
    rw [List.foldl_append, hs, List.foldl_cons, step, value, hv, iht]

theorem unique {s : List (Symbol Truth)} {v w : Truth} (hv : Reads .expression s v)
    (hw : Reads .expression s w) : v = w := by
  obtain ⟨d, c, h, rfl⟩ := hv.after []
  obtain ⟨d', c', h', rfl⟩ := hw.after []
  obtain ⟨rfl, rfl⟩ : d = d' ∧ c = c' := by
    rw [h] at h'
    injection h' with h'
    injection h' with hd hc
    exact ⟨hd, hc⟩
  rfl

theorem ne_nil {l : Level} {s : List (Symbol Truth)} {v : Truth} (h : Reads l s v) : s ≠ [] := by
  induction h with
  | atom v => exact List.cons_ne_nil _ _
  | not _ _ => exact List.cons_ne_nil _ _
  | group _ _ => exact List.cons_ne_nil _ _
  | ofFactor _ ih => exact ih
  | and _ _ _ _ => exact List.append_ne_nil_of_right_ne_nil _ (List.cons_ne_nil _ _)
  | ofConjunction _ ih => exact ih
  | or _ _ _ _ => exact List.append_ne_nil_of_right_ne_nil _ (List.cons_ne_nil _ _)

end Reads

/-! ## The value of a tree -/

namespace Conjunction

variable {α : Type}

/-- The symbols between two clauses. -/
def symbols : Conjunction → List (Symbol α)
  | and => [.and]
  | or => [.or]
  | andNot => [.and, .not]
  | orNot => [.or, .not]

/-- The value of what stands before a clause together with the clause. -/
def join : Conjunction → Truth → Truth → Truth
  | and, v, w => v.and w
  | or, v, w => v.or w
  | andNot, v, w => v.and w.not
  | orNot, v, w => v.or w.not

/-- The symbols of clauses with those of the conjunction between them. -/
def joinSymbols (c : Conjunction) : List (List (Symbol α)) → List (Symbol α)
  | [] => []
  | s :: ss => s ++ ss.flatMap fun t => c.symbols ++ t

/-- The value of clauses from left to right; that of no clause is of no account. -/
def joinValues (c : Conjunction) : List Truth → Truth
  | [] => .true
  | v :: vs => vs.foldl c.join v

end Conjunction

/-- A leaf clause by its place: the path of sub-group indices to its node, its index among the leaf
clauses there, and what is written for it. -/
structure Atom where
  path : List Nat
  index : Nat
  script : Script

/-- A leaf clause, or the negation of one. -/
structure Leaf where
  negated : Bool
  atom : Atom

namespace Leaf

/-- The atom of a leaf, behind a negation if there is one. -/
def symbols (l : Leaf) : List (Symbol Atom) :=
  if l.negated then [.not, .atom l.atom] else [.atom l.atom]

/-- The truth value of a leaf under a valuation of the atoms. -/
def value (ν : Atom → Truth) (l : Leaf) : Truth :=
  if l.negated then (ν l.atom).not else ν l.atom

end Leaf

namespace Conditions

/-- The scripts of the leaf clauses in the order of writing, and which of them are negated: a test
for no row is the negation of the test for a row. -/
def leafScripts (c : Conditions Script) : List (Bool × Script) :=
  c.matching.map (fun e => (false, e.script)) ++
  c.among.map (fun e => (false, e.script false)) ++
  c.notAmong.map (fun e => (false, e.script true)) ++
  c.between.map (fun e => (false, e.script false)) ++
  c.notBetween.map (fun e => (false, e.script true)) ++
  c.tests.map (fun t => (false, t.script)) ++
  c.isNull.map (fun t => (false, t.nullTestScript false)) ++
  c.isNotNull.map (fun t => (false, t.nullTestScript true)) ++
  c.flags.map (fun e => (false, e.script)) ++
  c.someRow.map (fun s => (false, rowTestScript false s)) ++
  c.noRow.map (fun s => (true, rowTestScript false s))

/-- The leaf clauses of the node at a path. -/
def leaves (path : List Nat) (c : Conditions Script) : List Leaf :=
  c.leafScripts.mapIdx fun i l => ⟨l.1, ⟨path, i, l.2⟩⟩

end Conditions

namespace Predicate

mutual

/-- The symbols of the predicate at a path. -/
def symbols (path : List Nat) : Predicate Script → List (Symbol Atom)
  | node own groups =>
    own.conjunction.joinSymbols
      ((own.leaves path).map Leaf.symbols ++ groupSymbols path 0 groups)

/-- The symbols of the sub-groups that hold a clause, from the sub-group with index `i` on. -/
def groupSymbols (path : List Nat) (i : Nat) : List (Predicate Script) → List (List (Symbol Atom))
  | [] => []
  | p :: rest =>
    if p.hasClauses then
      (.openParen :: symbols (path ++ [i]) p ++ [.closeParen]) :: groupSymbols path (i + 1) rest
    else groupSymbols path (i + 1) rest

end

mutual

/-- The value of the predicate at a path. -/
def value (ν : Atom → Truth) (path : List Nat) : Predicate Script → Truth
  | node own groups =>
    own.conjunction.joinValues
      ((own.leaves path).map (Leaf.value ν) ++ groupValues ν path 0 groups)

/-- The values of the sub-groups that hold a clause, from the sub-group with index `i` on. -/
def groupValues (ν : Atom → Truth) (path : List Nat) (i : Nat) :
    List (Predicate Script) → List Truth
  | [] => []
  | p :: rest =>
    if p.hasClauses then value ν (path ++ [i]) p :: groupValues ν path (i + 1) rest
    else groupValues ν path (i + 1) rest

end

end Predicate

/-! ## The reading of a tree -/

namespace Conjunction

/-- The level of several clauses. -/
def level : Conjunction → Level
  | and | andNot => .conjunction
  | or | orNot => .expression

theorem reads_level (c : Conjunction) {s : List (Symbol Truth)} {v : Truth}
    (h : Reads .factor s v) : Reads c.level s v := by
  cases c with
  | and => exact h.ofFactor
  | or => exact h.ofFactor.ofConjunction
  | andNot => exact h.ofFactor
  | orNot => exact h.ofFactor.ofConjunction

theorem reads_expression {c : Conjunction} {s : List (Symbol Truth)} {v : Truth}
    (h : Reads c.level s v) : Reads .expression s v := by
  cases c with
  | and => exact h.ofConjunction
  | or => exact h
  | andNot => exact h.ofConjunction
  | orNot => exact h

theorem reads_join {c : Conjunction} {s t : List (Symbol Truth)} {v w : Truth}
    (hs : Reads c.level s v) (ht : Reads .factor t w) :
    Reads c.level (s ++ (c.symbols ++ t)) (c.join v w) := by
  cases c with
  | and => exact hs.and ht
  | or => exact hs.or ht.ofFactor
  | andNot => exact hs.and ht.not
  | orNot => exact hs.or ht.not.ofFactor

theorem reads_foldl {c : Conjunction} {s : List (Symbol Truth)} {v : Truth}
    {ss : List (List (Symbol Truth))} {vs : List Truth} (h : Reads c.level s v)
    (hs : List.Forall₂ (Reads .factor) ss vs) :
    Reads c.level (s ++ ss.flatMap fun t => c.symbols ++ t) (vs.foldl c.join v) := by
  induction hs generalizing s v with
  | nil =>
    rw [List.flatMap_nil, List.append_nil]
    exact h
  | cons ht _ ih =>
    rw [List.flatMap_cons, ← List.append_assoc]
    exact ih (reads_join h ht)

theorem reads_joinSymbols (c : Conjunction) {ss : List (List (Symbol Truth))} {vs : List Truth}
    (h : List.Forall₂ (Reads .factor) ss vs) (hss : ss ≠ []) :
    Reads .expression (c.joinSymbols ss) (c.joinValues vs) := by
  cases h with
  | nil => exact absurd rfl hss
  | cons hs ht => exact reads_expression (reads_foldl (c.reads_level hs) ht)

theorem map_joinSymbols {α β : Type} (f : α → β) (c : Conjunction)
    (ss : List (List (Symbol α))) :
    (c.joinSymbols ss).map (Symbol.map f) = c.joinSymbols (ss.map (List.map (Symbol.map f))) := by
  have symbols : (c.symbols (α := α)).map (Symbol.map f) = c.symbols := by cases c <;> rfl
  cases ss with
  | nil => rfl
  | cons s ss =>
    simp only [joinSymbols, List.map_cons, List.map_append, List.map_flatMap, List.flatMap_map,
      symbols]

end Conjunction

theorem Leaf.reads (ν : Atom → Truth) (l : Leaf) :
    Reads .factor (l.symbols.map (Symbol.map ν)) (l.value ν) := by
  obtain ⟨negated, a⟩ := l
  cases negated
  · exact .atom _
  · exact (Reads.atom _).not

theorem Conditions.leaves_eq_nil_iff (path : List Nat) (c : Conditions Script) :
    c.leaves path = [] ↔ c.isEmpty = true := by
  simp [leaves, leafScripts, isEmpty, and_assoc]

namespace Predicate

variable (ν : Atom → Truth)

theorem groupSymbols_eq_nil_iff (path : List Nat) (i : Nat) (ps : List (Predicate Script)) :
    groupSymbols path i ps = [] ↔ ps.any hasClauses = false := by
  induction ps generalizing i with
  | nil => exact iff_of_true rfl rfl
  | cons p ps ih => by_cases h : p.hasClauses <;> simp [groupSymbols, h, ih]

theorem clauseSymbols_eq_nil_iff (path : List Nat) (own : Conditions Script)
    (groups : List (Predicate Script)) :
    (own.leaves path).map Leaf.symbols ++ groupSymbols path 0 groups = [] ↔
      (node own groups).hasClauses = false := by
  rw [List.append_eq_nil_iff, List.map_eq_nil_iff, Conditions.leaves_eq_nil_iff,
    groupSymbols_eq_nil_iff, hasClauses_node, Bool.or_eq_false_iff, Bool.not_eq_false']

theorem reads_groups {ps : List (Predicate Script)}
    (h : ∀ p ∈ ps, ∀ path, p.hasClauses →
      Reads .expression ((p.symbols path).map (Symbol.map ν)) (p.value ν path))
    (path : List Nat) (i : Nat) :
    List.Forall₂ (Reads .factor) ((groupSymbols path i ps).map (List.map (Symbol.map ν)))
      (groupValues ν path i ps) := by
  induction ps generalizing i with
  | nil => exact .nil
  | cons p ps ih =>
    obtain ⟨hp, hps⟩ := List.forall_mem_cons.1 h
    rw [groupSymbols, groupValues]
    split_ifs with hc
    · rw [List.map_cons, List.map_append]
      exact .cons (hp _ hc).group (ih hps _)
    · exact ih hps _

/-- The symbols of a tree that holds a clause are a condition with the value of the tree. -/
theorem reads_symbols {p : Predicate Script} (path : List Nat) (h : p.hasClauses) :
    Reads .expression ((p.symbols path).map (Symbol.map ν)) (p.value ν path) := by
  induction p using Predicate.induction generalizing path with
  | node own groups ih =>
    have clauses : List.Forall₂ (Reads .factor)
        (((own.leaves path).map Leaf.symbols ++ groupSymbols path 0 groups).map
          (List.map (Symbol.map ν)))
        ((own.leaves path).map (Leaf.value ν) ++ groupValues ν path 0 groups) := by
      rw [List.map_append, List.map_map]
      exact List.rel_append (forall₂_map_of_mem fun l _ => l.reads ν)
        (reads_groups ν (fun p hp path => ih p hp path) path 0)
    rw [symbols, value, Conjunction.map_joinSymbols]
    refine own.conjunction.reads_joinSymbols clauses ?_
    rw [Ne, List.map_eq_nil_iff, clauseSymbols_eq_nil_iff, h]
    exact Bool.noConfusion

theorem symbols_eq_nil {p : Predicate Script} (path : List Nat) (h : p.hasClauses = false) :
    p.symbols path = [] := by
  obtain ⟨own, groups⟩ := p
  rw [symbols, (clauseSymbols_eq_nil_iff path own groups).2 h]
  rfl

theorem reads_symbols_iff (p : Predicate Script) (path : List Nat) (v : Truth) :
    Reads .expression ((p.symbols path).map (Symbol.map ν)) v ↔
      p.hasClauses ∧ v = p.value ν path := by
  constructor
  · intro h
    by_cases hc : p.hasClauses
    · exact ⟨hc, h.unique (reads_symbols ν path hc)⟩
    · rw [symbols_eq_nil path (Bool.eq_false_iff.2 hc)] at h
      exact absurd rfl h.ne_nil
  · rintro ⟨hc, rfl⟩
    exact reads_symbols ν path hc

end Predicate

/-! ## The text of a tree -/

/-- What is written for a symbol. -/
def Symbol.pieces : Symbol Atom → List Piece
  | atom a => a.script.pieces
  | and => [.text " AND "]
  | or => [.text " OR "]
  | not => [.text "NOT "]
  | openParen => [.text "("]
  | closeParen => [.text ")"]

/-- If the script ends well, its text and its values are those of the symbols. -/
def Script.Spells (s : Script) (symbols : List (Symbol Atom)) : Prop :=
  s.outcome = .ok () →
    Piece.values s.pieces = Piece.values (symbols.flatMap Symbol.pieces) ∧
      ∀ style n, Piece.print style n s.pieces = Piece.print style n (symbols.flatMap Symbol.pieces)

namespace Script

theorem spells_empty : (∅ : Script).Spells [] :=
  fun _ => ⟨rfl, fun _ _ => rfl⟩

theorem Spells.append {a b : Script} {s t : List (Symbol Atom)} (ha : a.Spells s)
    (hb : b.Spells t) : (a ++ b).Spells (s ++ t) := by
  intro h
  obtain ⟨hoa, hob⟩ := outcome_append_eq_ok.1 h
  obtain ⟨va, pa⟩ := ha hoa
  obtain ⟨vb, pb⟩ := hb hob
  rw [append_of_ok hoa, List.flatMap_append]
  refine ⟨by rw [Piece.values_append, Piece.values_append, va, vb], fun style n => ?_⟩
  rw [Piece.print_append, Piece.print_append, pa, va, pb]

theorem spells_atom (a : Atom) : a.script.Spells [.atom a] := by
  intro _
  rw [List.flatMap_singleton]
  exact ⟨rfl, fun _ _ => rfl⟩

theorem spells_texts (s t : String) {symbols : List (Symbol Atom)}
    (h : symbols.flatMap Symbol.pieces = [.text s, .text t]) : (text (s ++ t)).Spells symbols := by
  intro _
  rw [h]
  exact ⟨rfl, fun style n => by simp [text, Piece.print, Piece.printed, Piece.write]⟩

theorem spells_separator (c : Conjunction) : (text c.separator).Spells c.symbols := by
  cases c with
  | and => exact fun _ => ⟨rfl, fun _ _ => rfl⟩
  | or => exact fun _ => ⟨rfl, fun _ _ => rfl⟩
  | andNot => exact spells_texts " AND " "NOT " rfl
  | orNot => exact spells_texts " OR " "NOT " rfl

theorem Spells.parenthesized {a : Script} {s : List (Symbol Atom)} (h : a.Spells s) :
    a.parenthesized.Spells (.openParen :: s ++ [.closeParen]) := by
  have openParen : (text "(").Spells [.openParen] := fun _ => ⟨rfl, fun _ _ => rfl⟩
  have closeParen : (text ")").Spells [.closeParen] := fun _ => ⟨rfl, fun _ _ => rfl⟩
  exact (openParen.append h).append closeParen

theorem spells_separated (c : Conjunction) {as : List Script} {ss : List (List (Symbol Atom))}
    (h : List.Forall₂ Spells as ss) :
    (separated c.separator as).Spells (c.joinSymbols ss) := by
  induction h with
  | nil => exact spells_empty
  | @cons a s as ss ha ht ih =>
    cases ht with
    | nil =>
      rw [Conjunction.joinSymbols, List.flatMap_nil, List.append_nil]
      exact ha
    | @cons b t as ss hb ht =>
      rw [separated_cons_cons, Conjunction.joinSymbols, List.flatMap_cons, List.append_assoc,
        ← List.append_assoc]
      exact (ha.append (spells_separator c)).append ih

/-- A test for no row is written as the negation of a test for a row. -/
theorem spells_noRow (s : Script) {a : Atom} (h : a.script = rowTestScript false s) :
    (rowTestScript true s).Spells [.not, .atom a] := by
  intro hs
  obtain ⟨-, hs⟩ := outcome_append_eq_ok.1 hs
  rw [List.flatMap_cons, List.flatMap_singleton, Symbol.pieces, Symbol.pieces, h]
  refine ⟨rfl, fun style n => ?_⟩
  have words : "NOT EXISTS " = "NOT " ++ "EXISTS " := by decide
  rw [rowTestScript, rowTestScript, append_of_ok rfl, append_of_ok rfl, Piece.print_append,
    Piece.print_append, Piece.print_append, text, text, Piece.print_singleton,
    Piece.print_singleton, Piece.print_singleton, ← String.append_assoc]
  exact congrArg (· ++ _) words

end Script

theorem forall₂_mapIdx {α β γ : Type} {R : α → β → Prop} {S : α → γ → Prop} {f : Nat → β → γ}
    {l : List α} {l' : List β} (h : List.Forall₂ R l l') (hf : ∀ a b i, R a b → S a (f i b)) :
    List.Forall₂ S l (l'.mapIdx f) := by
  induction h generalizing f with
  | nil => exact .nil
  | cons hab _ ih =>
    rw [List.mapIdx_cons]
    exact .cons (hf _ _ 0 hab) (ih fun a b i => hf a b (i + 1))

theorem Conditions.spells_leaves (path : List Nat) (c : Conditions Script) :
    List.Forall₂ Script.Spells c.clauseScripts ((c.leaves path).map Leaf.symbols) := by
  have scripts : List.Forall₂ (fun s (l : Bool × Script) =>
      ∀ a : Atom, a.script = l.2 → s.Spells (Leaf.symbols ⟨l.1, a⟩))
      c.clauseScripts c.leafScripts := by
    have atom : ∀ (s : Script) (a : Atom), a.script = s → s.Spells [.atom a] :=
      fun s a h => h ▸ Script.spells_atom a
    unfold Conditions.clauseScripts Conditions.leafScripts
    refine List.rel_append (List.rel_append (List.rel_append (List.rel_append (List.rel_append
      (List.rel_append (List.rel_append (List.rel_append (List.rel_append (List.rel_append
        ?_ ?_) ?_) ?_) ?_) ?_) ?_) ?_) ?_) ?_) ?_
    on_goal 11 => exact forall₂_map_of_mem fun s _ a => Script.spells_noRow s
    all_goals exact forall₂_map_of_mem fun _ _ a => atom _ a
  rw [List.forall₂_map_right_iff]
  exact forall₂_mapIdx scripts fun s l i h => h _ rfl

namespace Predicate

theorem spells_groups {ps : List (Predicate Script)}
    (h : ∀ p ∈ ps, ∀ path, p.script.Spells (p.symbols path)) (path : List Nat) (i : Nat) :
    List.Forall₂ Script.Spells (groupScripts ps) (groupSymbols path i ps) := by
  induction ps generalizing i with
  | nil => exact .nil
  | cons p ps ih =>
    obtain ⟨hp, hps⟩ := List.forall_mem_cons.1 h
    rw [groupScripts, groupSymbols]
    split_ifs
    · exact .cons (hp _).parenthesized (ih hps _)
    · exact ih hps _

theorem spells_script (p : Predicate Script) (path : List Nat) :
    p.script.Spells (p.symbols path) := by
  induction p using Predicate.induction generalizing path with
  | node own groups ih =>
    rw [script, symbols]
    exact Script.spells_separated _ (List.rel_append (own.spells_leaves path)
      (spells_groups (fun p hp path => ih p hp path) path 0))

/-- The condition that a predicate is. -/
def condition (p : Predicate Select) : List (Symbol Atom) :=
  (p.map Select.script).symbols []

/-- The value of a predicate, given those of its leaf clauses. -/
def truth (ν : Atom → Truth) (p : Predicate Select) : Truth :=
  (p.map Select.script).value ν []

/-- What is written for a predicate is a condition, and whatever the values of its leaf clauses, the
condition has the value of the tree and no other; it has none only if the tree holds no clause. -/
theorem reads_written {p : Predicate Select} {w w' : Writer}
    (h : (Renderable.write p).run.run w = (.ok (), w')) :
    w'.sql = w.sql ++ Piece.print w.style w.params.size (p.condition.flatMap Symbol.pieces) ∧
      ∀ (ν : Atom → Truth) (v : Truth),
        Reads .expression (p.condition.map (Symbol.map ν)) v ↔ p.hasClauses ∧ v = p.truth ν := by
  obtain ⟨ho, rfl⟩ := Prod.mk.inj ((p.emits_writeTree w).symm.trans h)
  refine ⟨?_, fun ν v => ?_⟩
  · exact congrArg (w.sql ++ ·) ((spells_script _ _ ho).2 w.style w.params.size)
  · rw [condition, reads_symbols_iff, hasClauses_map]
    rfl

/-- A tree with negations of every kind and with sub-groups that hold no clause. -/
def negations : Predicate Select :=
  .node
    { conjunction := .orNot
      isNull := [.column { name := "a" }]
      noRow := [.of { table := some { name := "t" } }] }
    [.node {} [.empty],
      .node
        { conjunction := .andNot
          among := [⟨.column { name := "b" }, none, []⟩]
          noRow := [.of { table := some { name := "u" } }] } []]

theorem reads_written_negations :
    ∃ w : Writer, (Renderable.write negations).run.run { style := {} } = (.ok (), w) ∧
      w.sql = "(a IS NULL) OR NOT NOT EXISTS (SELECT * FROM t)" ++
        " OR NOT (1=0 AND NOT NOT EXISTS (SELECT * FROM u))" ∧
      (w.sql = "" ++ Piece.print {} 0 (negations.condition.flatMap Symbol.pieces) ∧
        ∀ (ν : Atom → Truth) (v : Truth),
          Reads .expression (negations.condition.map (Symbol.map ν)) v ↔
            negations.hasClauses ∧ v = negations.truth ν) ∧
      ∀ ν : ℕ → ℕ → Truth,
        negations.truth (fun a => ν a.path.length a.index) =
          ((ν 0 0).or (ν 0 1).not.not).or ((ν 1 0).and (ν 1 1).not.not).not := by
  have outcome : negations.treeScript.outcome = .ok () := rfl
  have written := negations.emits_writeTree { style := {} }
  rw [outcome] at written
  exact ⟨_, written, by decide, reads_written written, fun ν => rfl⟩

end Predicate

end SqlBuilder
