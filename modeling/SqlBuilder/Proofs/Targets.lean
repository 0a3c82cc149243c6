import SqlBuilder.Proofs.Names
import SqlBuilder.Proofs.Occurrence

/-!
# The name of the target

SELECT, UPDATE and DELETE write the path of their table where they name it, and INSERT writes the
name alone.  That a text names the target means that it begins with the words before the target and
the name, and that nothing of what follows belongs to the name (`IsApart`).  Main statement:
`insert_alone_drops_schema`.
-/

namespace SqlBuilder

/-! ## Texts that are apart from what stands before them -/

/-- The text is empty or begins with a blank. -/
def IsApart (text : String) : Prop :=
  text = "" ∨ ∃ more, text = " " ++ more

theorem isApart_append {a b : String} (ha : IsApart a) (hb : IsApart b) : IsApart (a ++ b) := by
  rcases ha with rfl | ⟨more, rfl⟩
  · rwa [String.empty_append]
  · exact .inr ⟨more ++ b, String.append_assoc⟩

theorem isApart_blank_append (more b : String) : IsApart (" " ++ more ++ b) :=
  .inr ⟨more ++ b, String.append_assoc⟩

/-- What the script writes is empty or begins with a blank. -/
def Script.IsApart (s : Script) : Prop :=
  ∀ style n, SqlBuilder.IsApart (Piece.print style n s.pieces)

namespace Script

theorem isApart_empty : (∅ : Script).IsApart :=
  fun _ _ => .inl rfl

theorem isApart_text_append {t : String} (ht : ∃ more, t = " " ++ more) (s : Script) :
    (text t ++ s).IsApart := by
  intro style n
  obtain ⟨more, rfl⟩ := ht
  rw [append_of_ok rfl, Piece.print_append, text, Piece.print_singleton]
  exact isApart_blank_append more _

theorem isApart_text {t : String} (ht : ∃ more, t = " " ++ more) : (text t).IsApart := by
  intro style n
  rw [text, Piece.print_singleton]
  exact .inr ht

theorem IsApart.append {a b : Script} (ha : a.IsApart) (hb : b.IsApart) : (a ++ b).IsApart := by
  intro style n
  rcases ho : a.outcome with e | ⟨⟩
  · rw [append_of_error ho]
    exact ha style n
  · rw [append_of_ok ho, Piece.print_append]
    exact isApart_append (ha style n) (hb style _)

theorem IsApart.ite {c : Prop} [Decidable c] {a b : Script} (ha : a.IsApart) (hb : b.IsApart) :
    (if c then a else b).IsApart := by
  split_ifs
  · exact ha
  · exact hb

end Script

theorem Predicate.isApart_whereScript (p : Option (Predicate Script)) {s : Script}
    (hs : s.IsApart) : (whereScript p s).IsApart := by
  unfold whereScript
  cases p.filter hasClauses with
  | some p => exact Script.isApart_text_append ⟨"WHERE ", rfl⟩ _
  | none => exact hs

theorem isApart_countScript (keyword : String) (n : Option UInt64) :
    (countScript keyword n).IsApart := by
  cases n with
  | some n => exact Script.isApart_text_append ⟨keyword ++ " ", String.append_assoc⟩ _
  | none => exact Script.isApart_empty

/-! ## Targets -/

/-- The text begins with the opening and then the name, which ends there. -/
def NamesTarget (opening name sql : String) : Prop :=
  ∃ rest, sql = opening ++ name ++ rest ∧ IsApart rest

namespace Renderable

variable {σ : Type} [Renderable σ]

/-- What is written begins with an opening, a name and more that is apart from it. -/
theorem namesTarget_of_emits {s : σ} {a m r : Script} (h : Emits (write s) (a ++ m ++ r))
    {style : Style} {name more : String} (hm : ∀ n, Piece.print style n m.pieces = name ++ more)
    (apart : IsApart more) (hr : r.IsApart) {b : Built} (hb : buildWith style s = .ok b) :
    NamesTarget (Piece.print style 0 a.pieces) name b.sql := by
  obtain ⟨outcome, rfl⟩ := (buildWith_eq_ok_iff h).1 hb
  obtain ⟨okam, -⟩ := Script.outcome_append_eq_ok.1 outcome
  obtain ⟨oka, -⟩ := Script.outcome_append_eq_ok.1 okam
  rw [Script.append_of_ok okam, Piece.print_append, Script.append_of_ok oka, Piece.print_append,
    hm, ← String.append_assoc, String.append_assoc]
  exact ⟨_, rfl, isApart_append apart (hr style _)⟩

end Renderable

namespace Filtered

variable {σ : Type} [Filtered σ] [Renderable σ] [Parted σ]

/-- A statement that introduces a table before its predicate names it there by its path. -/
theorem namesTarget_of_head {s : σ} {a r : Script} {t : Table}
    (h : Parted.head s = a ++ .table t ++ r) (hr : r.IsApart)
    (otherwise : (Parted.otherwise s).IsApart) (tail : (Parted.tail s).IsApart) {style : Style}
    {b : Built} (hb : Renderable.buildWith style s = .ok b) :
    NamesTarget (Piece.print style 0 a.pieces) (t.path style) b.sql := by
  have emits := Parted.emits_write s
  rw [h, Script.append_assoc, Script.append_assoc] at emits
  have name : ∀ n, Piece.print style n (Script.table t).pieces =
      t.path style ++ t.aliasName.elim "" fun a => " AS " ++ style.name a :=
    fun n => (Script.print_table style n t).trans (t.reference_eq style)
  refine Renderable.namesTarget_of_emits emits name ?_
    (hr.append ((Predicate.isApart_whereScript _ otherwise).append tail)) hb
  cases t.aliasName with
  | none => exact .inl rfl
  | some a => exact isApart_blank_append "AS " (style.name a)

end Filtered

/-- The text of the list of a SELECT. -/
def Select.listText (style : Style) (s : Select) : String :=
  Piece.print style 0 s.listScript.pieces

theorem Select.namesTarget {s : Select} {t : Table} (ht : s.form.table = some t) {style : Style}
    {b : Built} (hb : Renderable.buildWith style s = .ok b) :
    NamesTarget ("SELECT " ++ s.listText style ++ " FROM ") (t.path style) b.sql := by
  have head : Parted.head s =
      .text "SELECT " ++ s.listScript ++ .text " FROM " ++ .table t ++ ∅ := by
    change Script.withTable "SELECT" s.form.table _ = _
    rw [ht, Script.append_empty]
    rfl
  have list : s.listScript.outcome = .ok () := by
    have emits := Parted.emits_write s
    rw [head] at emits
    obtain ⟨outcome, -⟩ := (Renderable.buildWith_eq_ok_iff emits).1 hb
    simp only [Script.outcome_append_eq_ok] at outcome
    exact outcome.1.1.1.1.1.2
  have ordered : (Parted.tail s).IsApart :=
    ((Script.isApart_empty.ite (Script.isApart_text_append ⟨"ORDER BY ", rfl⟩ _)).append
      (isApart_countScript _ _)).append (isApart_countScript _ _)
  have named := Filtered.namesTarget_of_head head Script.isApart_empty Script.isApart_empty ordered
    hb
  have opening : (Script.text "SELECT " ++ s.listScript).outcome = .ok () :=
    Script.outcome_append_eq_ok.2 ⟨rfl, list⟩
  rw [Script.append_of_ok opening, Script.append_of_ok rfl, Piece.print_append, Piece.print_append,
    Script.text, Script.text, Piece.print_singleton, Piece.print_singleton] at named
  exact named

theorem Update.namesTarget {s : Update} {t : Table} (ht : s.table = some t) {style : Style}
    {b : Built} (hb : Renderable.buildWith style s = .ok b) :
    NamesTarget "UPDATE " (t.path style) b.sql := by
  have head : Parted.head s = if s.values.isEmpty then .fail (.validation .nothingToSet)
      else .text "UPDATE " ++ .table t ++ (.text " SET " ++
        .separated ", " (s.values.map Assignment.script)) := by
    change Script.withTable "UPDATE" s.table _ = _
    rw [ht, ← Script.append_assoc]
    rfl
  by_cases none : s.values.isEmpty
  · have emits := Parted.emits_write s
    rw [head, if_pos none, Script.fail_append, Script.fail_append] at emits
    cases ((Renderable.buildWith_eq_ok_iff emits).1 hb).1
  · rw [if_neg none] at head
    have named := Filtered.namesTarget_of_head head
      (Script.isApart_text_append ⟨"SET ", rfl⟩ _) Script.isApart_empty Script.isApart_empty hb
    rwa [Script.text, Piece.print_singleton] at named

theorem Delete.namesTarget {s : Delete} {t : Table} (ht : s.table = some t) {style : Style}
    {b : Built} (hb : Renderable.buildWith style s = .ok b) :
    NamesTarget "DELETE FROM " (t.path style) b.sql := by
  have head : Parted.head s = .text "DELETE FROM " ++ .table t ++ ∅ := by
    change Script.withTable "DELETE" s.table _ = _
    rw [ht, Script.append_empty]
    rfl
  have named := Filtered.namesTarget_of_head head Script.isApart_empty
    (Script.isApart_empty.ite (Script.isApart_text ⟨"WHERE 1=0", rfl⟩)) Script.isApart_empty hb
  rwa [Script.text, Piece.print_singleton] at named

theorem Insert.namesTarget {s : Insert} {style : Style} {b : Built}
    (hb : Renderable.buildWith style s = .ok b) :
    NamesTarget "INSERT INTO " (style.name s.table.name) b.sql := by
  have emits : Emits (Renderable.write s) s.script := s.emits_write
  rw [Insert.script] at emits
  by_cases none : s.values.isEmpty
  · rw [if_pos none] at emits
    cases ((Renderable.buildWith_eq_ok_iff emits).1 hb).1
  · simp only [if_neg none, Script.append_assoc] at emits
    rw [← Script.append_assoc] at emits
    have name : ∀ n, Piece.print style n (Script.ident s.table.name).pieces =
        style.name s.table.name ++ "" := by
      intro n
      rw [Script.ident, Piece.print_singleton, String.append_empty]
      rfl
    have named := Renderable.namesTarget_of_emits emits name (.inl rfl)
      (Script.isApart_text_append ⟨"(", rfl⟩ _) hb
    rwa [Script.text, Piece.print_singleton] at named

/-- Whatever the table and the style, a SELECT, an UPDATE and a DELETE that are built name their
table by its path, with the schema if there is one, and an INSERT names it without schema; so an
INSERT agrees with the others only where the table has no schema. -/
theorem insert_alone_drops_schema (t : Table) (style : Style) (b : Built) :
    (∀ s : Select, s.form.table = some t → Renderable.buildWith style s = .ok b →
      NamesTarget ("SELECT " ++ s.listText style ++ " FROM ") (t.path style) b.sql) ∧
    (∀ s : Update, s.table = some t → Renderable.buildWith style s = .ok b →
      NamesTarget "UPDATE " (t.path style) b.sql) ∧
    (∀ s : Delete, s.table = some t → Renderable.buildWith style s = .ok b →
      NamesTarget "DELETE FROM " (t.path style) b.sql) ∧
    (∀ s : Insert, s.table = t → Renderable.buildWith style s = .ok b →
      NamesTarget "INSERT INTO " (style.name t.name) b.sql) ∧
    (style.name t.name = t.path style ↔ t.schema = none) := by
  refine ⟨fun s ht => Select.namesTarget ht, fun s ht => Update.namesTarget ht,
    fun s ht => Delete.namesTarget ht, ?_, t.name_eq_path_iff style⟩
  rintro s rfl
  exact Insert.namesTarget

/-- A table in a schema. -/
def usersInApp : Table :=
  { name := "users", schema := some "app" }

/-- An INSERT into a table in a schema. -/
def insertInApp : Insert :=
  (Insert.ofTable usersInApp).set "id" (.int 1)

/-- An UPDATE and an INSERT of one column of one table. -/
theorem insert_alone_drops_schema_usersInApp :
    (Renderable.buildWith {} ((Update.ofTable usersInApp).set "id" (.int 1)) =
        .ok ⟨"UPDATE app.users SET id = $1", [.int 1]⟩ ∧
      NamesTarget "UPDATE " "app.users" "UPDATE app.users SET id = $1") ∧
    Renderable.buildWith {} insertInApp = .ok ⟨"INSERT INTO users (id) VALUES ($1)", [.int 1]⟩ ∧
    NamesTarget "INSERT INTO " "users" "INSERT INTO users (id) VALUES ($1)" ∧
    ({} : Style).name "users" ≠ usersInApp.path {} := by
  have updated : Renderable.buildWith {} ((Update.ofTable usersInApp).set "id" (.int 1)) =
      .ok ⟨"UPDATE app.users SET id = $1", [.int 1]⟩ := by rfl
  have inserted : Renderable.buildWith {} insertInApp =
      .ok ⟨"INSERT INTO users (id) VALUES ($1)", [.int 1]⟩ := by rfl
  obtain ⟨-, update, -⟩ := insert_alone_drops_schema usersInApp {} _
  obtain ⟨-, -, -, insert, agree⟩ := insert_alone_drops_schema usersInApp {} _
  exact ⟨⟨updated, update _ rfl updated⟩, inserted, insert _ rfl inserted,
    fun same => Option.some_ne_none _ (agree.1 same)⟩

/-- The text of the INSERT does not begin with the path of its table. -/
theorem not_namesTarget_insertInApp :
    Renderable.buildWith {} insertInApp = .ok ⟨"INSERT INTO users (id) VALUES ($1)", [.int 1]⟩ ∧
      usersInApp.path {} = "app.users" ∧
      ¬ NamesTarget "INSERT INTO " "app.users" "INSERT INTO users (id) VALUES ($1)" := by
  refine ⟨rfl, rfl, ?_⟩
  rintro ⟨rest, text, -⟩
  have start := congrArg (fun s : String => s.toList.take 13) text
  rw [String.toList_append] at start
  cases start

end SqlBuilder
