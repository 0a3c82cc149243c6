import SqlBuilder.Proofs.Codecs
import SqlBuilder.Serial.Statement

/-!
# The serial forms of all types are lawful

One law for each type, which follows the definition of its form, and beside it the doubles and the
instants in a value of the type, in the order of writing.  The forms of types that leave nested
SELECTs open are lawful if the form of these is.  `Predicate.lawful` and `Select.lawful` close the
knots: by induction on the number of levels that may be read, every level takes up some of the
depth.
-/

namespace SqlBuilder

open Codec Layout

/-! ## Documents -/

namespace Json

/-- A member goes in front of others with greater keys. -/
theorem insertMember_of_lt {k : String} {j : Json} {ms : List (String × Json)}
    (h : ∀ m ∈ ms, k < m.1) : insertMember k j ms = (k, j) :: ms := by
  cases ms with
  | nil => rfl
  | cons m ms =>
    obtain ⟨k', j'⟩ := m
    have less : k < k' := h (k', j') List.mem_cons_self
    have differs : k ≠ k' := by
      rintro rfl
      exact String.lt_irrefl k less
    rw [insertMember, if_neg differs, if_pos less]

mutual

theorem sort_of_isSorted : ∀ j : Json, j.IsSorted → j.sort = j
  | .null, _ | .bool _, _ | .number _, _ | .string _, _ => rfl
  | .array items, h => by
    rw [sort, sortItems_of_allSorted items h]
  | .object members, h => by
    rw [sort, sortMembers_of_membersSorted members h]

theorem sortItems_of_allSorted : ∀ items : List Json, AllSorted items → sortItems items = items
  | [], _ => rfl
  | j :: rest, h => by
    rw [sortItems, sort_of_isSorted j h.1, sortItems_of_allSorted rest h.2]

theorem sortMembers_of_membersSorted :
    ∀ members : List (String × Json), MembersSorted members → sortMembers members = members
  | [], _ => rfl
  | (k, j) :: rest, h => by
    rw [sortMembers, sort_of_isSorted j h.2.1, sortMembers_of_membersSorted rest h.2.2,
      insertMember_of_lt h.1]

end

end Json

theorem Document.of_json (d : Document) : Document.of d.json = d := by
  obtain ⟨j, sorted⟩ := d
  simp only [of, Json.sort_of_isSorted j sorted]

/-! ## Bind values -/

namespace Value

/-- The doubles and the instants in a value. -/
def parts : Value → List Part
  | float x => [.double x]
  | timestamp t => [.instant t]
  | json d => d.json.doubles.map .double
  | _ => []

theorem decode_kind (k : Kind) (d : Nat) : Kind.decode d (.string (some k.name)) = .ok k := by
  cases k <;> rfl

/-- The content of a value is read as the value, once its kind is known. -/
theorem content_outline (v : Value) {j : Json} (h : v.content? = some j) {d : Nat}
    (depth : j.nesting ≤ d) : Settles v.parts v (v.kind.content d j.reread.outline) := by
  have less : d < d + 1 := Nat.lt_succ_self d
  cases v with
  | null => cases h
  | bool b =>
    cases h
    exact (bool_lawful (d + 1) b d less depth).map Value.bool
  | int i =>
    cases h
    exact (int64_lawful (d + 1) i d less depth).map Value.int
  | float x =>
    cases h
    exact (double_lawful (d + 1) x d less depth).map Value.float
  | text s =>
    cases h
    exact (string_lawful (d + 1) s d less depth).map Value.text
  | bytes bs =>
    cases h
    exact (list_lawful_of_nil (byte_lawful (d + 1)) bs d less depth).map Value.bytes
  | uuid u =>
    cases h
    exact (parsed_lawful Uuid.read_write (d + 1) u d less depth).map Value.uuid
  | timestamp t =>
    cases h
    exact (instant_lawful (d + 1) t d less depth).map Value.timestamp
  | json doc =>
    cases h
    have read := (raw_lawful (d + 1) doc.json d less depth).map fun j => Value.json (.of j)
    rwa [Document.of_json] at read

/-- A value is read as its kind has its content read. -/
theorem decode_encode (v : Value) {j : Json} (h : v.content? = some j) (d : Nat) :
    codec.decode (d + 1) (codec.encode v).reread.outline = v.kind.content d j.reread.outline := by
  have tagged : readTagged d .closed
      [(some "type", .string (some v.kind.name)), (some "value", j.reread.outline)] =
      Kind.decode d (.string (some v.kind.name)) >>= fun kind =>
        readContent d kind .closed [(some "value", j.reread.outline)] := rfl
  have content : readContent d v.kind .closed [(some "value", j.reread.outline)] =
      id <$> v.kind.content d j.reread.outline := rfl
  show codec.decode (d + 1) (toJson v).reread.outline = _
  rw [toJson, h]
  refine tagged.trans ?_
  rw [decode_kind]
  exact content.trans (id_map _)

theorem lawful (n : Nat) : Value.codec.Lawful parts n := by
  intro v d hd depth
  cases d with
  | zero => simp [codec, toJson, Json.nesting] at depth
  | succ d =>
    cases content : v.content? with
    | none =>
      have null : v = .null := by
        cases v <;> first | rfl | cases content
      subst null
      exact settles_ok Value.null
    | some j =>
      have inner : j.nesting ≤ d := by
        simpa [codec, toJson, content, Json.nesting, Json.nestingMembers] using depth
      rw [decode_encode v content]
      exact content_outline v content inner

end Value

/-! ## Names -/

theorem Table.lawful (n : Nat) : Table.codec.Lawful (fun _ => []) n := by
  have optionalString := option_lawful_of_nil (string_lawful n) fun _ => Json.noConfusion
  exact Lawful.record (.required (string_lawful n) (.optional optionalString
    (.optional optionalString .nil))) (by simp) (fun _ => rfl) fun _ => rfl

theorem Column.lawful (n : Nat) : Column.codec.Lawful (fun _ => []) n := by
  have optionalString := option_lawful_of_nil (string_lawful n) fun _ => Json.noConfusion
  have optionalTable := option_lawful_of_nil (Table.lawful n) fun _ => Json.noConfusion
  exact Lawful.record (.required (string_lawful n) (.optional optionalString
    (.optional optionalTable .nil))) (by simp) (fun _ => rfl) fun _ => rfl

theorem Conjunction.lawful (n : Nat) : Conjunction.codec.Lawful (fun _ => []) n :=
  plainCase_lawful (by rintro ⟨⟩ <;> rfl) n

theorem Operator.lawful (n : Nat) : Operator.codec.Lawful (fun _ => []) n :=
  plainCase_lawful (by rintro ⟨⟩ <;> rfl) n

theorem MatchMode.lawful (n : Nat) : MatchMode.codec.Lawful (fun _ => []) n :=
  plainCase_lawful (by rintro ⟨⟩ <;> rfl) n

theorem Direction.lawful (n : Nat) : Direction.codec.Lawful (fun _ => []) n :=
  plainCase_lawful (by rintro ⟨⟩ <;> rfl) n

theorem SetOperator.lawful (n : Nat) : SetOperator.codec.Lawful (fun _ => []) n :=
  plainCase_lawful (by rintro ⟨⟩ <;> rfl) n

/-! ## Conditions -/

section Parts

variable {q : Type} (f : q → List Part)

/-- The parts in a nested SELECT; a column has none. -/
def Term.parts : Term q → List Part
  | column _ => []
  | subquery s => f s

/-- The parts in a value or in a nested SELECT. -/
def Operand.parts : Operand q → List Part
  | value v => v.parts
  | column _ => []
  | subquery s => f s

/-- The parts on both sides of a comparison. -/
def Comparison.parts (c : Comparison q) : List Part :=
  c.subject.parts f ++ c.target.parts f

/-- The parts in a comparison; literal text has none. -/
def Test.parts : Test q → List Part
  | comparison c => c.parts f
  | literal _ => []

/-- The parts in the subject and in the bounds. -/
def Range.parts (e : Range q) : List Part :=
  e.subject.parts f ++ e.lower.parts ++ e.upper.parts

/-- The parts in the subject and in the value. -/
def Flag.parts (e : Flag q) : List Part :=
  e.subject.parts f ++ e.value.parts

/-- The parts in the columns and in the terms of a search. -/
def TextMatch.parts (e : TextMatch q) : List Part :=
  e.columns.flatMap (Term.parts f) ++ e.values.flatMap Value.parts

/-- The parts in the subject and in the values. -/
def InList.parts (e : InList q) : List Part :=
  e.subject.parts f ++ e.values.flatMap Value.parts

/-- The parts of a node, in the order of its serial form. -/
def Conditions.parts (c : Conditions q) : List Part :=
  c.tests.flatMap (Test.parts f) ++ c.between.flatMap (Range.parts f) ++
    c.notBetween.flatMap (Range.parts f) ++ c.isNull.flatMap (Term.parts f) ++
    c.isNotNull.flatMap (Term.parts f) ++ c.flags.flatMap (Flag.parts f) ++
    c.matching.flatMap (TextMatch.parts f) ++ c.among.flatMap (InList.parts f) ++
    c.notAmong.flatMap (InList.parts f) ++ c.someRow.flatMap f ++ c.noRow.flatMap f

end Parts

section Conditions

variable {q : Type} {sub : Codec q} {f : q → List Part} {n : Nat}

theorem Term.lawful (h : sub.Lawful f n) : (Term.codec sub).Lawful (Term.parts f) n := by
  intro t d hd depth
  cases t with
  | column c => exact readCase_carry (Column.lawful n) rfl hd depth
  | subquery s => exact readCase_carry h rfl hd depth

theorem Operand.lawful (h : sub.Lawful f n) : (Operand.codec sub).Lawful (Operand.parts f) n := by
  intro o d hd depth
  cases o with
  | value v => exact readCase_carry (Value.lawful n) rfl hd depth
  | column c => exact readCase_carry (Column.lawful n) rfl hd depth
  | subquery s => exact readCase_carry h rfl hd depth

theorem Comparison.lawful (h : sub.Lawful f n) :
    (Comparison.codec sub).Lawful (Comparison.parts f) n := by
  refine Lawful.record (.required (Term.lawful h) (.required (Operator.lawful n)
    (.required (Operand.lawful h) .nil))) (by simp) (fun _ => rfl) fun c => ?_
  simp [Comparison.parts]

theorem Test.lawful (h : sub.Lawful f n) : (Test.codec sub).Lawful (Test.parts f) n := by
  intro t d hd depth
  cases t with
  | comparison c => exact readCase_carry (Comparison.lawful h) rfl hd depth
  | literal sql => exact readCase_carry (string_lawful n) rfl hd depth

theorem Range.lawful (h : sub.Lawful f n) : (Range.codec sub).Lawful (Range.parts f) n := by
  refine Lawful.record (.required (Term.lawful h) (.required (Value.lawful n)
    (.required (Value.lawful n) .nil))) (by simp) (fun _ => rfl) fun e => ?_
  simp [Range.parts]

theorem Term.nullTest_lawful (h : sub.Lawful f n) :
    (Term.nullTestCodec sub).Lawful (Term.parts f) n := by
  refine Lawful.record (.required (Term.lawful h) .nil) (by simp) (fun _ => rfl) fun t => ?_
  simp

theorem Flag.lawful (h : sub.Lawful f n) : (Flag.codec sub).Lawful (Flag.parts f) n := by
  refine Lawful.record (.required (Term.lawful h) (.required (Value.lawful n) .nil))
    (by simp) (fun _ => rfl) fun e => ?_
  simp [Flag.parts]

theorem TextMatch.lawful (h : sub.Lawful f n) :
    (TextMatch.codec sub).Lawful (TextMatch.parts f) n := by
  refine Lawful.record (.required (list_lawful (Term.lawful h))
    (.required (list_lawful (Value.lawful n)) (.required (MatchMode.lawful n) .nil)))
    (by simp) (fun _ => rfl) fun e => ?_
  simp [TextMatch.parts]

theorem InList.lawful (h : sub.Lawful f n) : (InList.codec sub).Lawful (InList.parts f) n := by
  have key := option_lawful_of_nil (string_lawful n) fun _ => Json.noConfusion
  refine Lawful.record (.required (Term.lawful h) (.optional key
    (.required (list_lawful (Value.lawful n)) .nil))) (by simp) (fun _ => rfl) fun e => ?_
  simp [InList.parts]

/-- A node with its sub-groups, given the law of these, is lawful at one level more. -/
theorem Conditions.lawful {g : Type} {group : Codec g} {e : g → List Part} (h : sub.Lawful f n)
    (hg : group.Lawful e n) :
    (codecWith sub group).Lawful (fun p => p.1.parts f ++ p.2.flatMap e) (n + 1) := by
  have ranges := list_lawful (Range.lawful h)
  have terms := list_lawful (Term.nullTest_lawful h)
  have lists := list_lawful (InList.lawful h)
  have selects := list_lawful h
  have table := option_lawful_of_nil (Table.lawful n) fun _ => Json.noConfusion
  refine Lawful.record_succ (.required (Conjunction.lawful n)
    (.required (list_lawful (Test.lawful h)) (.required ranges (.required ranges
    (.required terms (.required terms (.required (list_lawful (Flag.lawful h))
    (.required (list_lawful (TextMatch.lawful h)) (.required lists (.required lists
    (.required selects (.required selects (.required (list_lawful hg)
    (.optional table .nil))))))))))))))
    (by simp [Conditions.layout]) (fun _ => rfl) fun p => ?_
  simp [Conditions.parts]

end Conditions

/-! ## Predicates -/

namespace Predicate

variable {q : Type}

mutual

/-- The parts of a predicate. -/
def parts (f : q → List Part) : Predicate q → List Part
  | node own groups => own.parts f ++ partsGroups f groups

/-- The parts in some sub-groups, one after the other. -/
def partsGroups (f : q → List Part) : List (Predicate q) → List Part
  | [] => []
  | p :: rest => parts f p ++ partsGroups f rest

end

theorem partsGroups_eq (f : q → List Part) (ps : List (Predicate q)) :
    partsGroups f ps = ps.flatMap (parts f) := by
  induction ps with
  | nil => rfl
  | cons p ps ih => rw [partsGroups, ih, List.flatMap_cons]

theorem groupsToJson_eq (sub : Codec q) (ps : List (Predicate q)) :
    groupsToJson sub ps = ps.map (toJson sub) := by
  induction ps with
  | nil => rfl
  | cons p ps ih => rw [groupsToJson, ih, List.map_cons]

/-- A node is written as a record of its conditions and its sub-groups. -/
theorem toJson_node (sub : Codec q) (r : Reader (Predicate q)) (own : Conditions q)
    (groups : List (Predicate q)) :
    toJson sub (node own groups) =
      (Conditions.codecWith sub ⟨toJson sub, r⟩).encode (own, groups) := by
  rw [toJson, groupsToJson_eq]
  simp [Conditions.codecWith, Conditions.layout, Layout.record, Layout.members, Layout.required,
    Layout.optional, Codec.list, Codec.raw]

variable {sub : Codec q} {f : q → List Part} {n : Nat}

/-- Reading some number of levels gives back the predicates that have no more. -/
theorem lawful_decodeLevels (h : sub.Lawful f n) (m : Nat) (le : m ≤ n) :
    (⟨toJson sub, decodeLevels sub m⟩ : Codec (Predicate q)).Lawful (parts f) m := by
  induction m with
  | zero => exact lawful_zero
  | succ m ih =>
    have record := Conditions.lawful (h.mono (Nat.le_of_succ_le le)) (ih (Nat.le_of_succ_le le))
    rintro ⟨own, groups⟩ d hd depth
    simp only [toJson_node sub (decodeLevels sub m)] at depth ⊢
    rw [parts, partsGroups_eq]
    exact (record (own, groups) d hd depth).map fun p => node p.1 p.2

theorem lawful (h : sub.Lawful f n) : (codec sub).Lawful (parts f) n :=
  fun p d hd depth => lawful_decodeLevels h (d + 1) hd p d (Nat.lt_succ_self d) depth

end Predicate

/-! ## SELECTs -/

section SelectOver

variable {q : Type}

/-- The parts in the term of a sort key. -/
def SortKey.parts (f : q → List Part) (k : SortKey q) : List Part :=
  k.term.parts f

/-- The parts of a SELECT, given those in nested ones. -/
def SelectOver.parts (f : q → List Part) (s : SelectOver q) : List Part :=
  s.columns.flatMap (Term.parts f) ++ s.filter.elim [] (Predicate.parts f) ++
    s.orderBy.flatMap (SortKey.parts f)

variable {sub : Codec q} {f : q → List Part} {n : Nat}

theorem SortKey.lawful (h : sub.Lawful f n) : (SortKey.codec sub).Lawful (SortKey.parts f) n := by
  refine Lawful.record (.required (Term.lawful h) (.required (Direction.lawful n) .nil))
    (by simp) (fun _ => rfl) fun k => ?_
  simp [SortKey.parts]

theorem Predicate.toJson_ne_null (p : Predicate q) : (Predicate.codec sub).encode p ≠ .null := by
  cases p
  exact Json.noConfusion

/-- A SELECT, given the law of nested ones, is lawful at one level more. -/
theorem SelectOver.lawful (h : sub.Lawful f n) :
    (SelectOver.codec sub).Lawful (SelectOver.parts f) (n + 1) := by
  have table := option_lawful_of_nil (Table.lawful n) fun _ => Json.noConfusion
  have filter := option_lawful (Predicate.lawful h) Predicate.toJson_ne_null
  have count := option_lawful_of_nil (uint64_lawful n) fun _ => Json.noConfusion
  refine Lawful.record_succ (.optional table (.required (list_lawful (Term.lawful h))
    (.optional filter (.required (list_lawful (SortKey.lawful h)) (.optional count
    (.optional count .nil)))))) (by simp) (fun _ => rfl) fun s => ?_
  simp [SelectOver.parts]

end SelectOver

/-! ### Nested SELECTs that have been dealt with

Writing a SELECT, and listing its parts, are folds, in which nested SELECTs have become JSON or
lists of parts before the SELECT itself is dealt with.  The lemmas here say that it makes no
difference. -/

section Map

variable {q r : Type} (f : r → List Part) (g : q → r)

theorem Term.parts_map (t : Term q) : (t.map g).parts f = t.parts fun s => f (g s) := by
  cases t <;> rfl

theorem Operand.parts_map (o : Operand q) :
    (o.map g).parts f = o.parts fun s => f (g s) := by
  cases o <;> rfl

theorem Test.parts_map (t : Test q) : (t.map g).parts f = t.parts fun s => f (g s) := by
  cases t with
  | comparison c =>
    simp [map, parts, Comparison.map, Comparison.parts, Term.parts_map, Operand.parts_map]
  | literal sql => rfl

theorem Range.parts_map (e : Range q) : (e.map g).parts f = e.parts fun s => f (g s) := by
  simp [map, parts, Term.parts_map]

theorem Flag.parts_map (e : Flag q) : (e.map g).parts f = e.parts fun s => f (g s) := by
  simp [map, parts, Term.parts_map]

theorem TextMatch.parts_map (e : TextMatch q) :
    (e.map g).parts f = e.parts fun s => f (g s) := by
  simp [map, parts, List.flatMap_map, Term.parts_map]

theorem InList.parts_map (e : InList q) : (e.map g).parts f = e.parts fun s => f (g s) := by
  simp [map, parts, Term.parts_map]

theorem Conditions.parts_map (c : Conditions q) :
    (c.map g).parts f = c.parts fun s => f (g s) := by
  simp [map, parts, List.flatMap_map, Range.parts_map, Flag.parts_map,
    TextMatch.parts_map, InList.parts_map, Test.parts_map, Term.parts_map]

mutual

theorem Predicate.parts_map : ∀ p : Predicate q,
    (p.map g).parts f = p.parts fun s => f (g s)
  | .node own groups => by
    rw [Predicate.map, Predicate.parts, Conditions.parts_map,
      Predicate.partsGroups_map groups, Predicate.parts]

theorem Predicate.partsGroups_map : ∀ ps : List (Predicate q),
    partsGroups f (mapGroups g ps) = partsGroups (fun s => f (g s)) ps
  | [] => rfl
  | p :: rest => by
    rw [Predicate.mapGroups, Predicate.partsGroups, Predicate.parts_map p,
      Predicate.partsGroups_map rest, Predicate.partsGroups]

end

theorem SortKey.parts_map (k : SortKey q) : (k.map g).parts f = k.parts fun s => f (g s) := by
  simp [map, parts, Term.parts_map]

theorem SelectOver.parts_map (s : SelectOver q) :
    (s.map g).parts f = s.parts fun s => f (g s) := by
  obtain ⟨table, columns, filter, orderBy, limit, offset⟩ := s
  cases filter <;>
    simp [map, parts, List.flatMap_map, SortKey.parts_map, Term.parts_map,
      Predicate.parts_map]

end Map

section Map

variable {q : Type} (e : q → Json) (r : Reader q)

theorem Term.encode_map (t : Term q) :
    (Term.codec raw).encode (t.map e) = (Term.codec ⟨e, r⟩).encode t := by
  cases t <;> rfl

theorem Operand.encode_map (o : Operand q) :
    (Operand.codec raw).encode (o.map e) = (Operand.codec ⟨e, r⟩).encode o := by
  cases o <;> rfl

theorem Comparison.encode_map (c : Comparison q) :
    (Comparison.codec raw).encode (c.map e) = (Comparison.codec ⟨e, r⟩).encode c := by
  simp [codec, Layout.record, members, required, map, Term.encode_map e r, Operand.encode_map e r]

theorem Test.encode_map (t : Test q) :
    (Test.codec raw).encode (t.map e) = (Test.codec ⟨e, r⟩).encode t := by
  cases t with
  | comparison c => simp [map, codec, carry, Comparison.encode_map e r]
  | literal sql => rfl

theorem Range.encode_map (x : Range q) :
    (Range.codec raw).encode (x.map e) = (Range.codec ⟨e, r⟩).encode x := by
  simp [codec, Layout.record, members, required, map, Term.encode_map e r]

theorem Term.encode_nullTest_map (t : Term q) :
    (Term.nullTestCodec raw).encode (t.map e) = (Term.nullTestCodec ⟨e, r⟩).encode t := by
  simp [nullTestCodec, Layout.record, members, required, Term.encode_map e r]

theorem Flag.encode_map (x : Flag q) :
    (Flag.codec raw).encode (x.map e) = (Flag.codec ⟨e, r⟩).encode x := by
  simp [codec, Layout.record, members, required, map, Term.encode_map e r]

/-- The items of a list are written one by one. -/
theorem list_encode_map {α β : Type} {c : Codec α} {c' : Codec β} {g : β → α}
    (h : ∀ b, c.encode (g b) = c'.encode b) (bs : List β) :
    c.list.encode (bs.map g) = c'.list.encode bs := by
  simp [Codec.list, h]

theorem TextMatch.encode_map (x : TextMatch q) :
    (TextMatch.codec raw).encode (x.map e) = (TextMatch.codec ⟨e, r⟩).encode x := by
  simp [codec, Layout.record, members, required, map, list_encode_map (Term.encode_map e r)]

theorem InList.encode_map (x : InList q) :
    (InList.codec raw).encode (x.map e) = (InList.codec ⟨e, r⟩).encode x := by
  simp [codec, Layout.record, members, required, Layout.optional, map, Term.encode_map e r]

theorem Conditions.encode_map {g : Type} (group : Codec g) (c : Conditions q) (groups : List g) :
    (codecWith raw group).encode (c.map e, groups) =
      (codecWith ⟨e, r⟩ group).encode (c, groups) := by
  have selects : ∀ ss : List q, raw.list.encode (ss.map e) = (Codec.list ⟨e, r⟩).encode ss :=
    list_encode_map fun _ => rfl
  simp [codecWith, layout, Layout.record, required, Layout.optional, members, map, selects,
    list_encode_map (Test.encode_map e r), list_encode_map (Range.encode_map e r),
    list_encode_map (Term.encode_nullTest_map e r), list_encode_map (Flag.encode_map e r),
    list_encode_map (TextMatch.encode_map e r), list_encode_map (InList.encode_map e r)]

mutual

theorem Predicate.toJson_map : ∀ p : Predicate q, toJson raw (p.map e) = toJson ⟨e, r⟩ p
  | .node own groups => by
    rw [Predicate.map, Predicate.toJson, Predicate.groupsToJson_map groups,
      Conditions.encode_map e r, Predicate.toJson]

theorem Predicate.groupsToJson_map : ∀ ps : List (Predicate q),
    groupsToJson raw (mapGroups e ps) = groupsToJson ⟨e, r⟩ ps
  | [] => rfl
  | p :: rest => by
    rw [Predicate.mapGroups, Predicate.groupsToJson, Predicate.toJson_map p,
      Predicate.groupsToJson_map rest, Predicate.groupsToJson]

end

theorem SortKey.encode_map (k : SortKey q) :
    (SortKey.codec raw).encode (k.map e) = (SortKey.codec ⟨e, r⟩).encode k := by
  simp [codec, Layout.record, members, required, map, Term.encode_map e r]

theorem SelectOver.encode_map (s : SelectOver q) :
    (SelectOver.codec raw).encode (s.map e) = (SelectOver.codec ⟨e, r⟩).encode s := by
  have filter : (Predicate.codec raw).option.encode (s.filter.map (Predicate.map e)) =
      (Predicate.codec ⟨e, r⟩).option.encode s.filter := by
    cases s.filter with
    | none => rfl
    | some p => exact Predicate.toJson_map e r p
  simp [codec, Layout.record, members, required, Layout.optional, map, filter,
    list_encode_map (Term.encode_map e r), list_encode_map (SortKey.encode_map e r)]

end Map

namespace Select

/-- The parts of a SELECT, at every depth. -/
def parts : Select → List Part :=
  fold (SelectOver.parts id)

theorem parts_of (s : SelectOver Select) : parts (of s) = s.parts parts := by
  rw [parts, fold_of, SelectOver.parts_map]
  rfl

theorem toJson_of (r : Reader Select) (s : SelectOver Select) :
    toJson (of s) = (SelectOver.codec ⟨toJson, r⟩).encode s := by
  rw [toJson, fold_of, SelectOver.encode_map _ r]

/-- Reading some number of levels gives back the SELECTs that have no more. -/
theorem lawful_decodeLevels (n : Nat) :
    (⟨toJson, decodeLevels n⟩ : Codec Select).Lawful parts n := by
  induction n with
  | zero => exact lawful_zero
  | succ n ih =>
    have layer := SelectOver.lawful ih
    rintro ⟨s⟩ d hd depth
    simp only [toJson_of (decodeLevels n)] at depth ⊢
    rw [parts_of]
    exact (layer s d hd depth).map of

theorem lawful (n : Nat) : Select.codec.Lawful parts n :=
  fun s d _ depth => lawful_decodeLevels (d + 1) s d (Nat.lt_succ_self d) depth

end Select

/-! ## Statements -/

theorem Predicate.treeCodec_lawful (n : Nat) :
    Predicate.treeCodec.Lawful (Predicate.parts Select.parts) n :=
  Predicate.lawful (Select.lawful n)

/-- The parts in the value that is assigned. -/
def Assignment.parts (a : Assignment) : List Part :=
  a.value.parts

theorem Assignment.lawful (n : Nat) : Assignment.codec.Lawful Assignment.parts n := by
  refine Lawful.record (.required (string_lawful n) (.required (Value.lawful n) .nil))
    (by simp) (fun _ => rfl) fun a => ?_
  simp [parts]

/-- The parts in the assignments of an INSERT. -/
def Insert.parts (s : Insert) : List Part :=
  s.values.flatMap Assignment.parts

theorem Insert.lawful (n : Nat) : Insert.codec.Lawful Insert.parts n := by
  refine Lawful.record (.required (Table.lawful n) (.required (list_lawful (Assignment.lawful n))
    (.required (bool_lawful n) .nil))) (by simp) (fun _ => rfl) fun s => ?_
  simp [parts]

/-- The parts in the assignments of an UPDATE, and in its predicate. -/
def Update.parts (s : Update) : List Part :=
  s.values.flatMap Assignment.parts ++ s.filter.elim [] (Predicate.parts Select.parts)

theorem Update.lawful (n : Nat) : Update.codec.Lawful Update.parts n := by
  have table := option_lawful_of_nil (Table.lawful n) fun _ => Json.noConfusion
  have filter := option_lawful (Predicate.treeCodec_lawful n) Predicate.toJson_ne_null
  refine Lawful.record (.optional table (.required (list_lawful (Assignment.lawful n))
    (.optional filter .nil))) (by simp) (fun _ => rfl) fun s => ?_
  simp [parts]

/-- The parts in the predicate of a DELETE. -/
def Delete.parts (s : Delete) : List Part :=
  s.filter.elim [] (Predicate.parts Select.parts)

theorem Delete.lawful (n : Nat) : Delete.codec.Lawful Delete.parts n := by
  have table := option_lawful_of_nil (Table.lawful n) fun _ => Json.noConfusion
  have filter := option_lawful (Predicate.treeCodec_lawful n) Predicate.toJson_ne_null
  refine Lawful.record (.optional table (.optional filter (.required (bool_lawful n) .nil)))
    (by simp) (fun _ => rfl) fun s => ?_
  simp [parts]

/-- The parts in the members, one after the other. -/
def SetOperation.parts (o : SetOperation) : List Part :=
  o.members.flatMap Select.parts

theorem SetOperation.lawful (n : Nat) : SetOperation.codec.Lawful SetOperation.parts n := by
  refine Lawful.record (.required (SetOperator.lawful n)
    (.required (list_lawful (Select.lawful n)) .nil)) (by simp) (fun _ => rfl) fun o => ?_
  simp [parts]

end SqlBuilder
