import SqlBuilder.Proofs.Instants
import SqlBuilder.Proofs.JsonText
import SqlBuilder.Serial.Codec

/-!
# Laws of serial forms

A form is lawful (`Codec.Lawful`) if reading what it writes ends as `Codec.Settles` says: with a
mismatch if some double in the value is not finite, since that is written as null, and otherwise
with a value, which is the one that was written if the texts of all its doubles and instants are
read as these (`Part.Kept`).  There is one rule for each way to make a form, so that the law of a
type follows the definition of its form.  Forms are lawful up to a number of levels: the depth that
is left when reading must be smaller.
-/

namespace SqlBuilder

variable {α β : Type}

/-! ## Numbers and depth -/

namespace Json

mutual

theorem isFinite_of_mem_doubles : ∀ (j : Json), ∀ x ∈ j.doubles, x.isFinite = true
  | .null, x, h | .bool _, x, h | .string _, x, h => by simp [doubles] at h
  | .number (.integer ..), x, h => by simp [doubles] at h
  | .number (.double y finite), x, h => by
    obtain rfl : x = y := by simpa [doubles] using h
    exact finite
  | .array items, x, h => isFinite_of_mem_doublesItems items x h
  | .object members, x, h => isFinite_of_mem_doublesMembers members x h

theorem isFinite_of_mem_doublesItems :
    ∀ (items : List Json), ∀ x ∈ doublesItems items, x.isFinite = true
  | [], x, h => by simp [doublesItems] at h
  | j :: rest, x, h => by
    rcases List.mem_append.1 h with h | h
    · exact isFinite_of_mem_doubles j x h
    · exact isFinite_of_mem_doublesItems rest x h

theorem isFinite_of_mem_doublesMembers :
    ∀ (members : List (String × Json)), ∀ x ∈ doublesMembers members, x.isFinite = true
  | [], x, h => by simp [doublesMembers] at h
  | (_, j) :: rest, x, h => by
    rcases List.mem_append.1 h with h | h
    · exact isFinite_of_mem_doubles j x h
    · exact isFinite_of_mem_doublesMembers rest x h

end

mutual

/-- A value is read from its outline if it is not nested too deep. -/
theorem json_outline : ∀ (j : Json) (d : Nat),
    j.outline.json d = if j.nesting ≤ d then .ok j else .error .malformed
  | .null, d | .bool _, d | .string _, d | .number _, d => by
    simp [outline, Outline.json, nesting]
  | .array items, 0 | .object items, 0 => by
    simp [outline, Outline.json, nesting]
  | .array items, d + 1 => by
    have read := jsonItems_outline items d
    by_cases shallow : nestingItems items ≤ d
    · simp [outline, Outline.json, nesting, read, shallow, bind, Except.bind, Ending.finish, pure,
        Except.pure]
    · simp [outline, Outline.json, nesting, read, shallow, bind, Except.bind]
  | .object members, d + 1 => by
    have read := jsonMembers_outline members d
    by_cases shallow : nestingMembers members ≤ d
    · simp [outline, Outline.json, nesting, read, shallow, bind, Except.bind, Ending.finish, pure,
        Except.pure]
    · simp [outline, Outline.json, nesting, read, shallow, bind, Except.bind]

theorem jsonItems_outline : ∀ (items : List Json) (d : Nat),
    Outline.jsonItems d (outlineItems items) =
      if nestingItems items ≤ d then .ok items else .error .malformed
  | [], d => by simp [outlineItems, Outline.jsonItems, nestingItems]
  | j :: rest, d => by
    have first := json_outline j d
    have others := jsonItems_outline rest d
    simp only [outlineItems, Outline.jsonItems, nestingItems, first, others, Nat.max_le]
    by_cases shallow : j.nesting ≤ d
    · by_cases shallow' : nestingItems rest ≤ d
      · simp [shallow, shallow', bind, Except.bind, pure, Except.pure]
      · simp [shallow, shallow', bind, Except.bind]
    · simp [shallow, bind, Except.bind]

theorem jsonMembers_outline : ∀ (members : List (String × Json)) (d : Nat),
    Outline.jsonMembers d (outlineMembers members) =
      if nestingMembers members ≤ d then .ok members else .error .malformed
  | [], d => by simp [outlineMembers, Outline.jsonMembers, nestingMembers]
  | (k, j) :: rest, d => by
    have first := json_outline j d
    have others := jsonMembers_outline rest d
    simp only [outlineMembers, Outline.jsonMembers, Outline.wholeString, nestingMembers, first,
      others, Nat.max_le]
    by_cases shallow : j.nesting ≤ d
    · by_cases shallow' : nestingMembers rest ≤ d
      · simp [shallow, shallow', bind, Except.bind, pure, Except.pure]
      · simp [shallow, shallow', bind, Except.bind]
    · simp [shallow, bind, Except.bind]

end

end Json

/-! ## Parts -/

/-- A part of a value whose text may be read as something else. -/
inductive Part where
  | double (x : Double)
  | instant (t : Timestamp)

namespace Part

/-- Whether the part has a text of its own. -/
def isWritten : Part → Bool
  | double x => x.isFinite
  | instant _ => true

/-- The text of the part is read as the part. -/
def Kept : Part → Prop
  | double x => x.Recovered
  | instant t => t.Regular

theorem Kept.isWritten {p : Part} (h : p.Kept) : p.isWritten = true := by
  cases p with
  | double x =>
    obtain ⟨finite, -⟩ := h
    exact finite
  | instant t => rfl

end Part

namespace Codec

/-! ## Lawful forms -/

/-- What reading back ends with: a value if all parts have been written, and otherwise a
mismatch. -/
def settled (ps : List Part) (a : α) : Except Fault α :=
  if ps.all Part.isWritten then .ok a else .error .mismatch

/-- Reading ends with a value if all parts of a given one have been written, and that is the given
one if all parts are kept. -/
def Settles (ps : List Part) (a : α) (r : Except Fault α) : Prop :=
  ∃ b, ((∀ p ∈ ps, p.Kept) → b = a) ∧ r = settled ps b

theorem settles_ok (a : α) : Settles [] a (.ok a) :=
  ⟨a, fun _ => rfl, rfl⟩

theorem Settles.map {ps : List Part} {a : α} {r : Except Fault α} (h : Settles ps a r)
    (f : α → β) : Settles ps (f a) (f <$> r) := by
  obtain ⟨b, kept, rfl⟩ := h
  refine ⟨f b, fun all => congrArg f (kept all), ?_⟩
  unfold settled
  split <;> rfl

/-- One thing is read after another, and the first that is not settled decides. -/
theorem Settles.seq {γ : Type} {ps qs : List Part} {a : α} {b : β} {r : Except Fault α}
    {s : Except Fault β} (h : Settles ps a r) (k : Settles qs b s) (f : α → β → γ) :
    Settles (ps ++ qs) (f a b) (r >>= fun a => f a <$> s) := by
  obtain ⟨a', keptFirst, rfl⟩ := h
  obtain ⟨b', keptRest, rfl⟩ := k
  refine ⟨f a' b', fun all => ?_, ?_⟩
  · rw [keptFirst fun p hp => all p (List.mem_append_left _ hp),
      keptRest fun p hp => all p (List.mem_append_right _ hp)]
  · unfold settled
    rw [List.all_append]
    cases ps.all Part.isWritten <;> cases qs.all Part.isWritten <;> rfl

/-- A form whose values, of which some parts are given, are read from the outlines of their texts
where fewer than some number of levels are left. -/
def Lawful (c : Codec α) (parts : α → List Part) (levels : Nat) : Prop :=
  ∀ a d, d < levels → (c.encode a).nesting ≤ d →
    Settles (parts a) a (c.decode d (c.encode a).reread.outline)

variable {c : Codec α} {f : α → List Part} {n : Nat}

theorem Lawful.mono (h : c.Lawful f n) {m : Nat} (le : m ≤ n) : c.Lawful f m :=
  fun a d hd => h a d (Nat.lt_of_lt_of_le hd le)

/-- Every form is lawful up to no level at all. -/
theorem lawful_zero : c.Lawful f 0 :=
  fun _ _ hd => absurd hd (Nat.not_lt_zero _)

/-- A form without parts is lawful if it reads back what it writes. -/
theorem lawful_of_read
    (h : ∀ a d, (c.encode a).nesting ≤ d → c.decode d (c.encode a).reread.outline = .ok a)
    (n : Nat) : c.Lawful (fun _ => []) n := by
  intro a d _ depth
  rw [h a d depth]
  exact settles_ok a

/-- Reading a document is reading the outline of its value. -/
theorem read_document (c : Codec α) {text : String} {o : Outline} (h : IsDocument text o) :
    c.read text = c.decode maxDepth o := by
  obtain ⟨rest, scanned, blank⟩ := h
  simp only [read, scanned, blank]
  cases c.decode maxDepth o <;> rfl

theorem read_write (c : Codec α) (a : α) :
    c.read (c.write a) = c.decode maxDepth (c.encode a).reread.outline :=
  c.read_document (Json.isDocument_compact _)

theorem Lawful.read_write {a : α} (h : c.Lawful f (maxDepth + 1))
    (depth : (c.encode a).nesting ≤ maxDepth) : Settles (f a) a (c.read (c.write a)) := by
  rw [Codec.read_write]
  exact h a maxDepth (Nat.lt_succ_self _) depth

/-! ### Scalars -/

theorem string_lawful (n : Nat) : string.Lawful (fun _ => []) n :=
  lawful_of_read (fun _ _ _ => rfl) n

theorem bool_lawful (n : Nat) : bool.Lawful (fun _ => []) n :=
  lawful_of_read (fun _ _ _ => rfl) n

theorem intWithin_integer {low high i : Int} (hlow : low ≤ i) (hhigh : i ≤ high) (l h) :
    intWithin low high (.integer i l h) = some i := by
  simp [intWithin, Json.Number.int?, hlow, hhigh]

theorem int64_lawful (n : Nat) : int64.Lawful (fun _ => []) n := by
  refine lawful_of_read (fun i d _ => ?_) n
  have low : -(twoTo 63 : Int) ≤ i.toInt := i.le_toInt
  have high : i.toInt ≤ twoTo 63 - 1 := by
    have := i.toInt_lt
    show i.toInt ≤ 2 ^ 63 - 1
    omega
  simp only [int64, Json.reread, Json.outline, Json.Number.ofInt64, Json.Number.reread_integer,
    readNumber, intWithin_integer low high, Option.map_some, Int64.ofInt_toInt]

theorem uint64_lawful (n : Nat) : uint64.Lawful (fun _ => []) n := by
  refine lawful_of_read (fun i d _ => ?_) n
  have low : (0 : Int) ≤ i.toNat := by omega
  have high : (i.toNat : Int) ≤ twoTo 64 - 1 := by
    have := i.toNat_lt
    show (i.toNat : Int) ≤ 2 ^ 64 - 1
    omega
  simp only [uint64, Json.reread, Json.outline, Json.Number.ofUInt64, Json.Number.reread_integer,
    readNumber, intWithin_integer low high, Option.map_some, Int.toNat_natCast,
    UInt64.ofNat_toNat]

theorem byte_lawful (n : Nat) : byte.Lawful (fun _ => []) n := by
  refine lawful_of_read (fun b d _ => ?_) n
  have low : (0 : Int) ≤ b.toNat := by omega
  have high : (b.toNat : Int) ≤ 255 := by
    have := b.toNat_lt
    omega
  simp only [byte, Json.reread, Json.outline, Json.Number.ofByte, Json.Number.reread_integer,
    readNumber, intWithin_integer low high, Option.map_some, Int.toNat_natCast, UInt8.ofNat_toNat]

theorem double_lawful (n : Nat) : double.Lawful (fun x => [.double x]) n := by
  intro x d _ _
  by_cases finite : x.isFinite = true
  · refine ⟨(Json.Number.double x finite).reread.toDouble, fun kept => ?_, ?_⟩
    · obtain ⟨_, recovered⟩ := kept _ List.mem_cons_self
      rw [Json.Number.reread_of_recovered recovered]
      rfl
    · simp [double, finite, Json.reread, Json.outline, readNumber, settled, Part.isWritten]
  · refine ⟨x, fun _ => rfl, ?_⟩
    simp [double, finite, Json.reread, Json.outline, readNumber, Outline.unexpected, settled,
      Part.isWritten]

theorem parsed_lawful {write : α → List Char} {read : String → Option α}
    (h : ∀ a, read (String.ofList (write a)) = some a) (n : Nat) :
    (parsed write read).Lawful (fun _ => []) n := by
  refine lawful_of_read (fun a d _ => ?_) n
  simp [parsed, Json.reread, Json.outline, h]

theorem instant_lawful (n : Nat) :
    (parsed Timestamp.write Timestamp.read).Lawful (fun t => [.instant t]) n := by
  intro t d _ _
  refine ⟨t.reread, fun kept => Timestamp.reread_of_regular (kept _ List.mem_cons_self), ?_⟩
  simp [parsed, Json.reread, Json.outline, Timestamp.read_write, settled, Part.isWritten]

theorem raw_lawful (n : Nat) : raw.Lawful (fun j => j.doubles.map .double) n := by
  intro j d _ depth
  refine ⟨j.reread, fun kept => ?_, ?_⟩
  · exact Json.reread_of_recovered j fun x hx => kept _ (List.mem_map_of_mem hx)
  · have written : (j.doubles.map Part.double).all Part.isWritten = true := by
      rw [List.all_map]
      exact List.all_eq_true.2 (Json.isFinite_of_mem_doubles j)
    rw [settled, if_pos written]
    exact (Json.json_outline j.reread d).trans (if_pos (j.nesting_reread.symm ▸ depth))

/-! ### Compounds -/

theorem option_lawful (h : c.Lawful f n) (notNull : ∀ a, c.encode a ≠ .null) :
    c.option.Lawful (fun o => o.elim [] f) n := by
  intro o d hd depth
  cases o with
  | none => exact settles_ok none
  | some a =>
    have some : c.option.decode d (c.encode a).reread.outline =
        some <$> c.decode d (c.encode a).reread.outline := by
      have := notNull a
      cases he : c.encode a <;> first | rfl | contradiction
    show Settles _ _ (c.option.decode d (c.encode a).reread.outline)
    rw [some]
    exact (h a d hd depth).map _

theorem option_lawful_of_nil (h : c.Lawful (fun _ => []) n) (notNull : ∀ a, c.encode a ≠ .null) :
    c.option.Lawful (fun _ => []) n := by
  have none : (fun o : Option α => o.elim ([] : List Part) fun _ => []) = fun _ => [] := by
    funext o
    cases o <;> rfl
  have lawful := option_lawful h notNull
  rwa [none] at lawful

/-- The items of a list are read one after another. -/
theorem mapM_outlineItems (h : c.Lawful f n) (as : List α) {d : Nat} (hd : d < n)
    (depth : Json.nestingItems (as.map c.encode) ≤ d) :
    Settles (as.flatMap f) as
      ((Json.outlineItems (Json.rereadItems (as.map c.encode))).mapM (c.decode d)) := by
  induction as with
  | nil => exact settles_ok []
  | cons a as ih =>
    simp only [List.map_cons, Json.nestingItems] at depth
    have first := h a d hd (by omega)
    have others := ih (by omega)
    rw [List.map_cons, Json.rereadItems, Json.outlineItems, List.mapM_cons, List.flatMap_cons]
    exact first.seq others List.cons

theorem list_lawful (h : c.Lawful f n) : c.list.Lawful (fun as => as.flatMap f) n := by
  intro as d hd depth
  cases d with
  | zero => simp [list, Json.nesting] at depth
  | succ d =>
    have read := mapM_outlineItems h as (d := d) (by omega)
      (by simpa [list, Json.nesting] using depth)
    exact read.map id

theorem list_lawful_of_nil (h : c.Lawful (fun _ => []) n) : c.list.Lawful (fun _ => []) n := by
  have none : (fun as : List α => as.flatMap fun _ => ([] : List Part)) = fun _ => [] := by
    funext as
    simp [List.flatMap_eq_nil_iff]
  have lawful := list_lawful h
  rwa [none] at lawful

/-! ### Named cases -/

theorem plainCase_lawful {name : α → String} {cases : List α}
    (h : ∀ a, (cases.map fun a => (name a, a)).lookup (name a) = some a) (n : Nat) :
    (plainCase name cases).Lawful (fun _ => []) n := by
  refine lawful_of_read (fun a d _ => ?_) n
  simp [plainCase, Json.reread, Json.outline, readCase, h]

theorem readCase_member {plain : List (String × β)} {carrying : List (String × Reader β)}
    {name : String} {r : Reader β} (found : carrying.lookup name = some r) (d : Nat) (o : Outline) :
    readCase plain carrying (d + 1) (.object [(some name, o)] .closed) = r d o := by
  simp only [readCase, nested, Outline.wholeString, found, bind, Except.bind]
  cases r d o <;> rfl

/-- A case that carries something is read as that case. -/
theorem readCase_carry (h : c.Lawful f n) {plain : List (String × β)}
    {carrying : List (String × Reader β)} {name : String} {make : α → β}
    (found : carrying.lookup name = some fun d o => make <$> c.decode d o) {a : α} {d : Nat}
    (hd : d < n) (depth : (carry name c a).nesting ≤ d) :
    Settles (f a) (make a) (readCase plain carrying d (carry name c a).reread.outline) := by
  cases d with
  | zero => simp [carry, Json.nesting] at depth
  | succ d =>
    have inner : (c.encode a).nesting ≤ d := by
      simpa [carry, Json.nesting, Json.nestingMembers] using depth
    show Settles _ _ (readCase plain carrying (d + 1)
      (.object [(some name, (c.encode a).reread.outline)] .closed))
    rw [readCase_member found]
    exact (h a d (by omega) inner).map make

end Codec

namespace Layout

open Codec

/-! ## Records -/

/-- The names of the fields. -/
def names : {σ γ : Type} → Layout σ γ → List String
  | _, _, nil => []
  | _, _, cons name _ _ rest => name :: rest.names

/-- All fields have been read. -/
def filled : {σ γ : Type} → Layout σ γ → γ → σ
  | _, _, nil, () => ()
  | _, _, cons _ _ _ rest, (a, b) => (some a, rest.filled b)

@[simp]
theorem names_nil : nil.names = [] := rfl

@[simp]
theorem names_required {α σ γ : Type} (name : String) (c : Codec α) (rest : Layout σ γ) :
    (required name c rest).names = name :: rest.names := rfl

@[simp]
theorem names_optional {α σ γ : Type} (name : String) (c : Codec α) (rest : Layout σ γ) :
    (optional name c rest).names = name :: rest.names := rfl

/-- Fields of lawful forms, and the parts of their values, in their order. -/
inductive Lawful (n : Nat) : {σ γ : Type} → Layout σ γ → (γ → List Part) → Prop where
  | nil : Lawful n nil fun _ => []
  | cons {α σ γ : Type} {name : String} {c : Codec α} {absent : Option α} {rest : Layout σ γ}
    {f : α → List Part} {g : γ → List Part} (field : c.Lawful f n)
    (others : Lawful n rest g) :
    Lawful n (cons name c absent rest) fun p => f p.1 ++ g p.2

section

variable {α σ γ : Type} {n : Nat} {name : String} {c : Codec α} {rest : Layout σ γ}
  {f : α → List Part} {g : γ → List Part}

theorem Lawful.required (field : c.Lawful f n) (others : rest.Lawful n g) :
    (required name c rest).Lawful n fun p => f p.1 ++ g p.2 :=
  .cons field others

theorem Lawful.optional {f : Option α → List Part} (field : c.option.Lawful f n)
    (others : rest.Lawful n g) : (optional name c rest).Lawful n fun p => f p.1 ++ g p.2 :=
  .cons field others

end

theorem complete_filled : ∀ {σ γ : Type} (l : Layout σ γ) (b : γ), l.complete (l.filled b) = .ok b
  | _, _, nil, () => rfl
  | _, _, cons _ _ _ rest, (a, b) => by
    simp only [filled, complete, Option.or, complete_filled rest b]
    rfl

theorem key_of_mem_members : ∀ {σ γ : Type} (l : Layout σ γ) (b : γ),
    ∀ m ∈ Json.outlineMembers (Json.rereadMembers (l.members b)), ∃ k ∈ l.names, m.1 = some k
  | _, _, nil, (), m, h => by simp [members, Json.rereadMembers, Json.outlineMembers] at h
  | _, _, cons name c _ rest, (a, b), m, h => by
    simp only [members, Json.rereadMembers, Json.outlineMembers, List.mem_cons] at h
    rcases h with rfl | h
    · exact ⟨name, List.mem_cons_self, rfl⟩
    · obtain ⟨k, mem, key⟩ := key_of_mem_members rest b m h
      exact ⟨k, List.mem_cons_of_mem _ mem, key⟩

section

variable {α σ γ : Type} {name : String} {c : Codec α} {absent : Option α} {rest : Layout σ γ}

/-- Members under other names are read as if the first field were not there. -/
theorem readMembers_others (d : Nat) (slot : Option α) (ms : List (Option String × Outline))
    (slots : σ) (others : ∀ m ∈ ms, m.1 ≠ some name) :
    (cons name c absent rest).readMembers d ms (slot, slots) =
      (fun slots => (slot, slots)) <$> rest.readMembers d ms slots := by
  induction ms generalizing slots with
  | nil => rfl
  | cons m ms ih =>
    obtain ⟨key, o⟩ := m
    have others' : ∀ m ∈ ms, m.1 ≠ some name := fun m hm => others m (List.mem_cons_of_mem _ hm)
    cases key with
    | none => rfl
    | some k =>
      have differs : k ≠ name := fun h => others (some k, o) List.mem_cons_self (congrArg some h)
      have passed : (cons name c absent rest).store d k o (slot, slots) =
          (rest.store d k o slots).map fun r => (fun slots => (slot, slots)) <$> r := by
        rw [store, if_neg differs]
      simp only [readMembers, Outline.wholeString, passed, bind, Except.bind]
      cases rest.store d k o slots with
      | none =>
        simp only [Option.map_none]
        cases o.skip with
        | error e => rfl
        | ok u => exact ih slots others'
      | some r =>
        simp only [Option.map_some]
        cases r with
        | error e => rfl
        | ok slots' => exact ih slots' others'

/-- The first field is read from its member. -/
theorem readMembers_first (d : Nat) (o : Outline) (ms : List (Option String × Outline))
    (slots : σ) :
    (cons name c absent rest).readMembers d ((some name, o) :: ms) (none, slots) =
      c.decode d o >>= fun a => (cons name c absent rest).readMembers d ms (some a, slots) := by
  have stored : (cons name c absent rest).store d name o (none, slots) =
      some ((fun a => (some a, slots)) <$> c.decode d o) := by
    rw [store, if_pos rfl]
    rfl
  simp only [readMembers, Outline.wholeString, stored, bind, Except.bind]
  cases c.decode d o <;> rfl

end

variable {n : Nat}

/-- The written members of a record are read into all of its fields. -/
theorem Lawful.readMembers : ∀ {σ γ : Type} {l : Layout σ γ} {f : γ → List Part},
    l.Lawful n f → l.names.Nodup → ∀ b d, d < n → Json.nestingMembers (l.members b) ≤ d →
    ∃ r, Settles (f b) b r ∧
      l.readMembers d (Json.outlineMembers (Json.rereadMembers (l.members b))) l.vacant =
        l.filled <$> r
  | _, _, _, _, nil, _, (), d, _, _ => ⟨.ok (), settles_ok (), rfl⟩
  | _, _, .cons name c absent rest, _, cons field others, distinct, (a, b), d, hd, depth => by
    obtain ⟨fresh, distinct⟩ := List.nodup_cons.1 distinct
    simp only [members, Json.nestingMembers] at depth
    have first := field a d hd (by omega)
    obtain ⟨r, settles, more⟩ := others.readMembers distinct b d hd (by omega)
    have names : ∀ m ∈ Json.outlineMembers (Json.rereadMembers (rest.members b)),
        m.1 ≠ some name := by
      intro m hm same
      obtain ⟨k, mem, key⟩ := key_of_mem_members rest b m hm
      obtain rfl : k = name := Option.some.inj (key.symm.trans same)
      exact fresh mem
    refine ⟨_, first.seq settles Prod.mk, ?_⟩
    rw [members, Json.rereadMembers, Json.outlineMembers, vacant, readMembers_first]
    simp only [readMembers_others d _ _ _ names, more]
    cases c.decode d (c.encode a).reread.outline with
    | error e => rfl
    | ok a => cases r <;> rfl

/-- A record whose fields are lawful and have different names is lawful at one level more. -/
theorem Lawful.record_succ {σ γ α : Type} {l : Layout σ γ} {f : γ → List Part}
    {toFields : α → γ} {ofFields : γ → α} {parts : α → List Part} (h : l.Lawful n f)
    (distinct : l.names.Nodup) (inverse : ∀ a, ofFields (toFields a) = a)
    (same : ∀ a, parts a = f (toFields a)) :
    (l.record toFields ofFields).Lawful parts (n + 1) := by
  intro a d hd depth
  cases d with
  | zero => simp [record, Json.nesting] at depth
  | succ d =>
    have inner : Json.nestingMembers (l.members (toFields a)) ≤ d := by
      simpa [record, Json.nesting] using depth
    obtain ⟨r, settles, read⟩ := h.readMembers distinct (toFields a) d (by omega) inner
    have whole : (l.record toFields ofFields).decode (d + 1)
        ((l.record toFields ofFields).encode a).reread.outline = ofFields <$> r := by
      show (l.readMembers d (Json.outlineMembers (Json.rereadMembers (l.members (toFields a))))
        l.vacant >>= fun slots => ofFields <$> l.complete slots) = _
      rw [read]
      cases r with
      | error e => rfl
      | ok b =>
        show ofFields <$> l.complete (l.filled b) = _
        rw [complete_filled]
    rw [whole, same]
    have read := settles.map ofFields
    rwa [inverse] at read

theorem Lawful.record {σ γ α : Type} {l : Layout σ γ} {f : γ → List Part}
    {toFields : α → γ} {ofFields : γ → α} {parts : α → List Part} (h : l.Lawful n f)
    (distinct : l.names.Nodup) (inverse : ∀ a, ofFields (toFields a) = a)
    (same : ∀ a, parts a = f (toFields a)) :
    (l.record toFields ofFields).Lawful parts n :=
  (h.record_succ distinct inverse same).mono (Nat.le_succ n)

end Layout

end SqlBuilder
