import SqlBuilder.Proofs.Membership
import SqlBuilder.Proofs.Targets

/-!
# Which lists of values share a place

Two lists of values of a node share a place if and only if their columns have one key: then the
second takes the place of the first as if that had never been there, and otherwise both stand in the
node and in the text of the statement.  The key of a name is the name itself, and the key of a
column is its qualifier and its name with a point between them, without the schema.  A key that is
read as a name again denotes a column that is written alike, provided that the column was given by
name or that its key is full (`Column.KeyIsFull`); so columns that are written differently have
different keys then.  Main statement: `Filtered.lists_share_by_key`.
-/

namespace SqlBuilder

/-! ## Names read from keys -/

namespace Column

/-- The key has all that is written before the name, and it can be taken apart at its point. -/
def KeyIsFull (c : Column) : Prop :=
  ∃ t, c.table = some t ∧ (t.schema = none ∨ t.aliasName ≠ none) ∧ IsSegment t.qualifier ∧
    IsSegment c.name

/-- The key of such a column, read as a name, denotes a column that is written alike. -/
theorem KeyIsFull.text_ofName {c : Column} (h : c.KeyIsFull) (binding : Option Table)
    (style : Style) : (ofName binding c.key).text style = c.text style := by
  obtain ⟨t, ht, full, qualifier, name⟩ := h
  have key : c.key = t.qualifier ++ "." ++ c.name := by
    rw [Column.key, ht]
  have introduced : t.introduced style = "" ++ style.name t.qualifier := by
    rw [Table.introduced, Table.path, Table.qualifier]
    cases halias : t.aliasName with
    | some a => exact String.empty_append.symm
    | none =>
      rw [full.resolve_right fun some => some halias]
      rfl
  rw [key, ofName, ofDotted_of_isSegment qualifier name, Option.getD_some, text, text, ht,
    Option.elim_some, Option.elim_some, introduced]
  rfl

end Column

/-- The reference is a name, or a column with a full key. -/
def ColumnArg.KeyIsFull : ColumnArg → Prop
  | name _ => True
  | term (.column c) => c.KeyIsFull
  | term (.subquery _) => False

namespace ColumnArg

variable {a : ColumnArg} {binding : Option Table} {c : Column}

theorem exists_key (h : a.resolve binding = .column c) : ∃ k, a.key = some k := by
  cases a with
  | name n => exact ⟨n, rfl⟩
  | term t =>
    rw [resolve] at h
    exact ⟨c.key, by rw [key, h]; rfl⟩

theorem KeyIsFull.text_ofName (full : a.KeyIsFull) (h : a.resolve binding = .column c) {k : String}
    (hk : a.key = some k) (style : Style) :
    (Column.ofName binding k).text style = c.text style := by
  cases a with
  | name n =>
    cases hk
    cases h
    rfl
  | term t =>
    rw [resolve] at h
    subst h
    cases hk
    exact Column.KeyIsFull.text_ofName full binding style

/-- References with full keys that are one denote columns that are written alike. -/
theorem text_eq_of_key_eq {a' : ColumnArg} {c' : Column} (full : a.KeyIsFull)
    (full' : a'.KeyIsFull) (h : a.resolve binding = .column c)
    (h' : a'.resolve binding = .column c') (keys : a.key = a'.key) (style : Style) :
    c.text style = c'.text style := by
  obtain ⟨k, hk⟩ := exists_key h
  rw [← full.text_ofName h hk, ← full'.text_ofName h' (keys ▸ hk)]

end ColumnArg

/-! ## Two lists of values -/

namespace InList

/-- The second of two lists with one key takes the place that the first would have taken. -/
theorem put_put_of_key_eq (eq : Select → Select → Bool) (x y : Term Select) (k : String)
    (vs ws : List Value) (es : List (InList Select)) :
    put eq y (some k) ws (put eq x (some k) vs es) = put eq y (some k) ws es := by
  have about : ∀ (e : InList Select) (z : Term Select),
      e.isAbout eq z (some k) = (e.key == some k) := by
    intro e z
    unfold isAbout
    cases e.key <;> simp
  induction es with
  | nil => rw [put, put, put, about, if_pos (beq_self_eq_true _)]
  | cons e es ih =>
    rw [put, put, about, about]
    split_ifs with h
    · rw [put, about, if_pos h]
    · rw [put, about, if_neg h, ih]

/-- Two lists with different keys both stand among the lists, in some order. -/
theorem exists_perm_put_put (new new' : InList Select) (h : new.key ≠ new'.key)
    (es : List (InList Select)) :
    ∃ both : List (InList Select), both.Perm [new, new'] ∧
      both.Sublist (put Select.same new'.subject new'.key new'.values
        (put Select.same new.subject new.key new.values es)) := by
  have first : new ∈ put Select.same new.subject new.key new.values es := by
    rcases put_cases new es with ⟨-, eq⟩ | ⟨before, e, after, -, -, -, eq⟩
    · rw [eq]
      exact List.mem_append_right _ (List.mem_singleton_self _)
    · rw [eq]
      exact List.mem_append_right _ List.mem_cons_self
  generalize put Select.same new.subject new.key new.values es = es' at first
  rcases put_cases new' es' with ⟨-, eq⟩ | ⟨before, e, after, rfl, -, rivals, eq⟩
  · rw [eq]
    exact ⟨[new, new'], .refl _, (List.singleton_sublist.2 first).append (.refl _)⟩
  · rw [eq]
    rw [List.mem_append, List.mem_cons] at first
    rcases first with hb | rfl | ha
    · exact ⟨[new, new'], .refl _, (List.singleton_sublist.2 hb).append
        (List.singleton_sublist.2 List.mem_cons_self)⟩
    · exact absurd rivals.key_eq h
    · exact ⟨[new', new], .swap _ _ _, ((List.singleton_sublist.2 ha).cons_cons _).trans
        (List.sublist_append_right _ _)⟩

end InList

theorem Conditions.putList_comp_putList (negated : Bool) (x y : Term Select) (k : String)
    (vs ws : List Value) :
    putList negated y (some k) ws ∘ putList negated x (some k) vs =
      putList negated y (some k) ws := by
  funext o
  have put := InList.put_put_of_key_eq Select.same x y k vs ws (o.lists negated)
  cases negated with
  | false => exact congrArg (fun es => { o with among := es }) put
  | true => exact congrArg (fun es => { o with notAmong := es }) put

/-! ## The text of a list of values -/

/-- A list of values for a column, where `n` values are bound before it. -/
def membershipText (style : Style) (negated : Bool) (c : Column) (n : Nat) (vs : List Value) :
    String :=
  "(" ++ c.text style ++ (if negated then " NOT IN (" else " IN (") ++
    ", ".intercalate ((List.range' (n + 1) vs.length).map
      (Writing.placeholder style.placeholder)) ++ "))"

namespace InList

variable {e : InList Script} {c : Column}

theorem pieces_script (negated : Bool) (hc : e.subject = .column c) (hv : e.values ≠ []) :
    (e.script negated).pieces = [.text "("] ++ ((Script.column c).pieces ++
      ([.text (if negated then " NOT IN (" else " IN (")] ++
        ((Script.params e.values).pieces ++ [.text "))"]))) := by
  rw [script, if_neg (mt List.isEmpty_iff.1 hv), hc, Term.script, Script.append_assoc,
    Script.append_assoc, Script.append_assoc, Script.append_of_ok rfl,
    Script.append_of_ok (Script.outcome_column c), Script.append_of_ok rfl,
    Script.append_of_ok (Script.outcome_params _)]
  rfl

theorem print_script (negated : Bool) (hc : e.subject = .column c) (hv : e.values ≠ [])
    (style : Style) (n : Nat) :
    Piece.print style n (e.script negated).pieces =
      membershipText style negated c n e.values := by
  rw [pieces_script negated hc hv, Piece.print_append, Piece.print_append, Piece.print_append,
    Piece.print_append, Script.print_column, Script.values_column, Script.print_params,
    Piece.print_singleton, Piece.print_singleton, Piece.print_singleton, membershipText,
    String.append_assoc, String.append_assoc, String.append_assoc]
  rfl

theorem values_script (negated : Bool) (hc : e.subject = .column c) (hv : e.values ≠ []) :
    Piece.values (e.script negated).pieces = e.values := by
  rw [pieces_script negated hc hv, Piece.values_append, Piece.values_append, Piece.values_append,
    Piece.values_append, Script.values_column, Script.values_params]
  exact List.append_nil _

end InList

/-! ## Runs of two calls -/

namespace Cursor

/-- A list of values that has been put changes nothing about what names stand for. -/
theorem resolve_putList {c : Cursor} (h : c.IsPlaced) (negated : Bool) (subject : Term Select)
    (key : Option String) (values : List Value) (a : ColumnArg) :
    (c.modifyOwn (Conditions.putList negated subject key values)).resolve a = c.resolve a := by
  have table := (c.node.own.sameBut_putList negated subject key values).table
  rw [← own_modifyOwn h (Conditions.putList negated subject key values)] at table
  rw [resolve, resolve, Cursor.table, Cursor.table, table]
  rfl

/-- Two calls for lists of values put the one and then the other. -/
theorem run_inList_inList {c : Cursor} (h : c.IsPlaced) (negated : Bool) (a a' : ColumnArg)
    (vs vs' : List Value) :
    c.run [.inList negated a vs, .inList negated a' vs'] =
      (c.modifyOwn (Conditions.putList negated (c.resolve a') a'.key vs' ∘
        Conditions.putList negated (c.resolve a) a.key vs), .ok ()) := by
  rw [← modifyOwn_modifyOwn, ← resolve_putList h negated (c.resolve a) a.key vs a']
  rfl

end Cursor

/-- A list of values as a clause. -/
def Clause.membership (negated : Bool) (e : InList Select) : Clause Select :=
  match negated with
  | false => ⟨.among, e⟩
  | true => ⟨.notAmong, e⟩

theorem Clause.script_membership (negated : Bool) (e : InList Select) :
    ((membership negated e).map Select.script).script = (e.map Select.script).script negated := by
  cases negated <;> rfl

theorem Conditions.sublist_membership (o : Conditions Select) (negated : Bool) :
    ((o.lists negated).map (Clause.membership negated)).Sublist o.clauseList := by
  cases negated with
  | false => exact o.sublist_clauseList .among
  | true => exact o.sublist_clauseList .notAmong

namespace Filtered

variable {σ : Type} [Filtered σ]

/-- Lists of values of one node stand in the text of a statement in their order, and their values
among its parameters. -/
theorem inOrder_lists [Renderable σ] [Parted σ] {s : σ} {p n : Predicate Select}
    (hp : filter s = some p) (hn : p.HasNode n) {negated : Bool} {es : List (InList Select)}
    (hes : es.Sublist (n.own.lists negated))
    (written : ∀ e ∈ es, e.values ≠ [] ∧ ∃ c, e.subject = .column c) {style : Style} {b : Built}
    (hb : Renderable.buildWith style s = .ok b) :
    ∃ texts, List.Forall₂ (fun e text => ∃ c m, e.subject = .column c ∧
        text = membershipText style negated c m e.values) es texts ∧
      InOrder texts b.sql ∧ InOrder (es.map InList.values) b.params := by
  obtain ⟨pieces, rfl, inOrder⟩ := inOrder_clauses_of_built (fun c => c.script.shows_self) hb
  have there : (es.map (Clause.membership negated)).Sublist (clauses s) := by
    rw [clauses, hp]
    exact ((hes.map _).trans (n.own.sublist_membership negated)).trans hn.sublist_clauseList
  rw [← List.map_eq_flatMap] at inOrder
  have ours := inOrder.sublist (there.map _)
  simp only [List.map_map, Function.comp_def, Clause.script_membership] at ours
  obtain ⟨texts, printed, inText⟩ := ours.print style 0
  have inParams := ours.values
  rw [List.forall₂_map_left_iff] at printed
  refine ⟨texts, ((List.forall₂_and_left _ _).2 ⟨written, printed⟩).imp ?_, inText, ?_⟩
  · rintro e text ⟨⟨hv, c, hc⟩, m, rfl⟩
    have subject : (e.map Select.script).subject = .column c := congrArg (Term.map Select.script) hc
    exact ⟨c, m, hc, InList.print_script negated subject hv style m⟩
  · have values : ∀ e ∈ es, Piece.values ((e.map Select.script).script negated).pieces =
        e.values := by
      intro e he
      obtain ⟨hv, c, hc⟩ := written e he
      exact InList.values_script negated (congrArg (Term.map Select.script) hc) hv
    rw [List.map_map] at inParams
    exact List.map_congr_left values ▸ inParams

/-- Where two calls put lists of values for columns into one node, the second list takes the place
of the first if the columns have one key, as if the first call had not been made, and if they have
two keys then both lists are in the node, and both stand in the text of every statement that is
built, with their values among its parameters.  Columns with full keys that are written differently
in some style have two keys. -/
theorem lists_share_by_key [LawfulFiltered σ] [Renderable σ] [Parted σ] (s : σ) (calls : List Call)
    (negated : Bool) (a a' : ColumnArg) {d d' : Column} {vs vs' : List Value}
    (ha : (reach s calls).resolve a = .column d) (ha' : (reach s calls).resolve a' = .column d')
    (hvs : vs ≠ []) (hvs' : vs' ≠ []) :
    (a.key = a'.key → (reach s calls).run [.inList negated a vs, .inList negated a' vs'] =
      (reach s calls).run [.inList negated a' vs']) ∧
    (a.key ≠ a'.key → ∃ (c : Cursor) (both : List (InList Select)),
      (reach s calls).run [.inList negated a vs, .inList negated a' vs'] = (c, .ok ()) ∧
      both.Perm [⟨.column d, a.key, vs⟩, ⟨.column d', a'.key, vs'⟩] ∧
      both.Sublist (c.node.own.lists negated) ∧
      ∀ style b, Renderable.buildWith style (setFilter c.root s) = .ok b →
        ∃ texts, List.Forall₂ (fun e text => ∃ column m, e.subject = .column column ∧
            text = membershipText style negated column m e.values) both texts ∧
          InOrder texts b.sql ∧ InOrder (both.map InList.values) b.params) ∧
    (a.KeyIsFull → a'.KeyIsFull → (∃ style, d.text style ≠ d'.text style) → a.key ≠ a'.key) := by
  have placed := isPlaced_reach s calls
  have run := Cursor.run_inList_inList placed negated a a' vs vs'
  rw [ha, ha'] at run
  refine ⟨fun same => ?_, fun differ => ?_, fun full full' ⟨style, texts⟩ same =>
    texts (ColumnArg.text_eq_of_key_eq full full' ha ha' same style)⟩
  · obtain ⟨k, hk⟩ := ColumnArg.exists_key ha'
    rw [run, same, hk, Conditions.putList_comp_putList, ← hk, ← ha']
    rfl
  · obtain ⟨both, perm, stand⟩ := InList.exists_perm_put_put ⟨.column d, a.key, vs⟩
      ⟨.column d', a'.key, vs'⟩ differ ((reach s calls).node.own.lists negated)
    rw [← Conditions.lists_putList, ← Conditions.lists_putList] at stand
    have own := Cursor.own_modifyOwn placed (Conditions.putList negated (.column d') a'.key vs' ∘
      Conditions.putList negated (.column d) a.key vs)
    refine ⟨_, both, run, perm, own ▸ stand, fun style b hb => ?_⟩
    refine inOrder_lists (LawfulFiltered.filter_setFilter _ s) ⟨_, (placed.modify _).at?_node⟩
      (own ▸ stand) (fun e he => ?_) hb
    have which := perm.mem_iff.1 he
    rw [List.mem_pair] at which
    rcases which with rfl | rfl
    · exact ⟨hvs, d, rfl⟩
    · exact ⟨hvs', d', rfl⟩

/-- A column of a table in a schema. -/
def idIn (schema : String) : Column :=
  { name := "id", table := some { name := "users", schema := some schema } }

/-- A DELETE with two lists of values, for columns with two keys. -/
def deleteTwoLists : Delete :=
  (edit (Delete.ofTable { name := "users" }) [.inList false (.name "id") [.int 1, .int 2],
    .inList false (.term (.column (idIn "b"))) [.int 3]]).1

theorem lists_share_by_key_deleteTwoLists :
    (reach (Delete.ofTable { name := "users" }) []).resolve (.name "id") =
      .column { name := "id", table := some { name := "users" } } ∧
    (reach (Delete.ofTable { name := "users" }) []).resolve (.term (.column (idIn "b"))) =
      .column (idIn "b") ∧
    [Value.int 1, .int 2] ≠ [] ∧ [Value.int 3] ≠ [] ∧
    ∃ sql, Renderable.buildWith {} deleteTwoLists = .ok ⟨sql, [.int 1, .int 2, .int 3]⟩ ∧
      sql = "DELETE FROM users WHERE (users.id IN ($1, $2)) AND (b.users.id IN ($3))" ∧
      ∃ both : List (InList Select), (both.map InList.key).Perm [some "id", some "users.id"] ∧
        InOrder (both.map InList.values) [.int 1, .int 2, .int 3] := by
  refine ⟨rfl, rfl, List.cons_ne_nil _ _, List.cons_ne_nil _ _, _, rfl, rfl, ?_⟩
  obtain ⟨-, apart, -⟩ := lists_share_by_key (Delete.ofTable { name := "users" }) [] false
    (.name "id") (.term (.column (idIn "b"))) rfl rfl
    (List.cons_ne_nil (Value.int 1) [.int 2]) (List.cons_ne_nil (Value.int 3) [])
  obtain ⟨c, both, run, perm, -, built⟩ := apart (by decide)
  cases run
  obtain ⟨-, -, -, params⟩ := built {} _ rfl
  exact ⟨both, perm.map InList.key, params⟩

/-- Two columns that are written differently and have one key: the condition on the first is lost
when one on the second is put. -/
theorem lists_in_two_schemas_collide :
    (idIn "a").text {} = "a.users.id" ∧ (idIn "b").text {} = "b.users.id" ∧
    (edit (Select.ofTable { name := "users" })
      [.inList false (.term (.column (idIn "a"))) [.int 1],
        .inList false (.term (.column (idIn "b"))) [.int 2]]).2 = .ok () ∧
    (reach (Select.ofTable { name := "users" })
      [.inList false (.term (.column (idIn "a"))) [.int 1],
        .inList false (.term (.column (idIn "b"))) [.int 2]]).node.own.among.length = 1 ∧
    Renderable.buildWith {} (edit (Select.ofTable { name := "users" })
      [.inList false (.term (.column (idIn "a"))) [.int 1],
        .inList false (.term (.column (idIn "b"))) [.int 2]]).1 =
      .ok ⟨"SELECT * FROM users WHERE (b.users.id IN ($1))", [.int 2]⟩ :=
  ⟨rfl, rfl, rfl, rfl, rfl⟩

end Filtered

end SqlBuilder
