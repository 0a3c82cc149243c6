import SqlBuilder.Proofs.Contents
import SqlBuilder.Proofs.Injection

/-!
# How the server reads names

The server takes a name between quotes as it is, and folds a bare word to lower case.  So a text in
which every name stands between quotes says the names of the statement, and a text in which plain
words stand bare says them with these folded.  Where the names stand among the tokens does not
depend on the style (`Statement.places`), and the tokens at all other places are the same.  Main
statement: `Statement.names_read_by_quoting`.
-/

namespace SqlBuilder

/-! ## Reading one name -/

namespace Token

/-- The name that a token carries, without its quotes; the star is the wildcard. -/
def unquoted : Token → Option String
  | word s => some s
  | quoted name => some name
  | symbol s => if s = "*" then some s else none
  | _ => none

/-- The name that the server reads: it folds a bare word to lower case. -/
def serverName : Token → Option String
  | word s => some (String.ofList (s.toList.map Char.toLower))
  | t => t.unquoted

theorem unquoted_ofName (always : Bool) (name : String) :
    (ofName always name).unquoted = some name := by
  unfold ofName
  split_ifs with star
  · rw [star]
    rfl
  · rfl
  · rfl

end Token

theorem map_eq_self_iff {α : Type} {f : α → α} {l : List α} : l.map f = l ↔ ∀ a ∈ l, f a = a := by
  have pointwise := List.map_inj_left (l := l) (f := f) (g := id)
  rwa [List.map_id] at pointwise

theorem toLower_eq_self_iff {c : Char} : c.toLower = c ↔ c.isUpper = false := by
  unfold Char.toLower Char.isUpper
  split_ifs with upper
  · refine iff_of_false (fun same => ?_) fun h => of_decide_eq_false h upper
    -- a capital is moved by 32
    have value := congrArg Char.val same
    simp at value
  · exact iff_of_true rfl (decide_eq_false upper)

namespace Identifier

/-- A name as the server reads it where plain words stand bare. -/
def folded (name : String) : String :=
  if isPlain name then String.ofList (name.toList.map Char.toLower) else name

/-- Only capitals in a plain word are lost. -/
theorem folded_eq_self_iff {name : String} :
    folded name = name ↔ (isPlain name → ∀ c ∈ name.toList, c.isUpper = false) := by
  unfold folded
  split_ifs with plain
  · rw [← String.toList_inj, String.toList_ofList, map_eq_self_iff]
    simp only [plain, toLower_eq_self_iff, forall_const]
  · exact iff_of_true rfl fun h => absurd h plain

end Identifier

/-- A name as the server reads it from a text in a style. -/
def Style.serverName (style : Style) (name : String) : String :=
  match style.quoting with
  | .asNeeded => Identifier.folded name
  | .always => name

theorem Token.serverName_ofName (style : Style) (name : String) :
    (ofName (style.quoting = .always) name).serverName = some (style.serverName name) := by
  obtain ⟨placeholder, quoting, maxLogged⟩ := style
  by_cases star : name = "*"
  · subst star
    cases quoting <;> rfl
  · unfold ofName Style.serverName Identifier.folded
    rw [if_neg star]
    cases quoting with
    | asNeeded =>
      by_cases plain : Identifier.isPlain name
      · simp [plain, serverName]
      · simp [plain, serverName, unquoted]
    | always => rfl

/-! ## Where the names stand -/

namespace Token

/-- The tokens at the places with a mark. -/
def marked (mark : Bool) (marks : List Bool) (ts : List Token) : List Token :=
  ((marks.zip ts).filter fun x => x.1 == mark).map Prod.snd

theorem marked_append {mark : Bool} {marks : List Bool} {ts : List Token}
    (h : marks.length = ts.length) (marks' : List Bool) (us : List Token) :
    marked mark (marks ++ marks') (ts ++ us) = marked mark marks ts ++ marked mark marks' us := by
  rw [marked, List.zip_append h, List.filter_append, List.map_append]
  rfl

/-- No token of a fixed text is marked as a name. -/
theorem marked_true_map_false (ts : List Token) : marked true (ts.map fun _ => false) ts = [] := by
  induction ts with
  | nil => rfl
  | cons t ts ih => exact ih

end Token

namespace Piece

/-- For each token of a piece, whether it is a name. -/
def places : Piece → List Bool
  | text s => (fixedTokens s).map fun _ => false
  | number _ => [false]
  | literal _ => []
  | ident _ => [true]
  | param _ => [false]

theorem length_places (p : Piece) (style : Style) (n : Nat) :
    p.places.length = (p.tokens style n).length := by
  cases p with
  | text s => exact List.length_map _
  | _ => rfl

theorem length_allPlaces (ps : List Piece) (style : Style) (n : Nat) :
    (ps.flatMap places).length = (allTokens style n ps).length := by
  induction ps generalizing n with
  | nil => rfl
  | cons p ps ih =>
    rw [List.flatMap_cons, allTokens, List.length_append, List.length_append,
      length_places p style (n + 1), ih]

theorem marked_tokens (p : Piece) (style : Style) (n : Nat) :
    Token.marked true p.places (p.tokens style n) =
      (names [p]).map (Token.ofName (style.quoting = .always)) := by
  cases p with
  | text s => exact Token.marked_true_map_false _
  | _ => rfl

/-- The tokens at the places of the names are those of the names. -/
theorem marked_allTokens (ps : List Piece) (style : Style) (n : Nat) :
    Token.marked true (ps.flatMap places) (allTokens style n ps) =
      (names ps).map (Token.ofName (style.quoting = .always)) := by
  induction ps generalizing n with
  | nil => rfl
  | cons p ps ih =>
    have split : names (p :: ps) = names [p] ++ names ps := names_append [p] ps
    rw [List.flatMap_cons, allTokens, Token.marked_append (length_places p style (n + 1)),
      marked_tokens, ih, split, List.map_append]

/-- The tokens at all other places do not depend on how names are quoted. -/
theorem marked_false_allTokens (style style' : Style)
    (h : style.placeholder = style'.placeholder) (ps : List Piece) (n : Nat) :
    Token.marked false (ps.flatMap places) (allTokens style n ps) =
      Token.marked false (ps.flatMap places) (allTokens style' n ps) := by
  induction ps generalizing n with
  | nil => rfl
  | cons p ps ih =>
    have here : Token.marked false p.places (p.tokens style (n + 1)) =
        Token.marked false p.places (p.tokens style' (n + 1)) := by
      cases p with
      | param v => rw [tokens, tokens, h]
      | _ => rfl
    rw [List.flatMap_cons, allTokens, allTokens,
      Token.marked_append (length_places p style (n + 1)),
      Token.marked_append (length_places p style' (n + 1)), here, ih]

end Piece

/-! ## Reading a statement -/

namespace Statement

/-- For each token of a statement, whether it is a name. -/
def places (s : Statement) : List Bool :=
  s.script.pieces.flatMap Piece.places

/-- The names that the server reads in a text where the statement has names. -/
def namesRead (s : Statement) (sql : String) : Option (List String) :=
  (lex sql).bind fun ts => (Token.marked true s.places ts).mapM Token.serverName

/-- The tokens of a text at all other places. -/
def otherTokens (s : Statement) (sql : String) : Option (List Token) :=
  (lex sql).map (Token.marked false s.places)

variable {s : Statement} {style : Style} {b : Built}

theorem lex_of_built (free : s.LiteralFree) (hb : Renderable.buildWith style s = .ok b) :
    lex b.sql = some (Piece.allTokens style 0 s.script.pieces) := by
  obtain ⟨-, rfl⟩ := (Renderable.buildWith_eq_ok_iff s.emits_write).1 hb
  exact Piece.lex_print free.sealed_script.apart free.sealed_script.known style 0

theorem length_tokens_of_built (free : s.LiteralFree)
    (hb : Renderable.buildWith style s = .ok b) :
    (lex b.sql).map List.length = some s.places.length := by
  rw [lex_of_built free hb, Option.map_some, places, Piece.length_allPlaces _ style 0]

/-- The names read are those of the statement, each as the style makes the server read it. -/
theorem namesRead_of_built (free : s.LiteralFree) (hb : Renderable.buildWith style s = .ok b) :
    s.namesRead b.sql = some (s.names.map style.serverName) := by
  have outcome := ((Renderable.buildWith_eq_ok_iff s.emits_write).1 hb).1
  -- the tokens at the places of names are those of the names of the statement, read one by one
  rw [namesRead, lex_of_built free hb, Option.bind_some, places, Piece.marked_allTokens,
    s.holds_script.names outcome, ← Statement.names, List.mapM_map]
  have each : Token.serverName ∘ Token.ofName (style.quoting = .always) =
      fun name => pure (style.serverName name) :=
    funext (Token.serverName_ofName style)
  rw [each, List.mapM_pure]
  rfl

/-- Whether a build succeeds does not depend on the style. -/
theorem exists_built (hb : Renderable.buildWith style s = .ok b) (style' : Style) :
    ∃ b', Renderable.buildWith style' s = .ok b' :=
  ⟨_, (Renderable.buildWith_eq_ok_iff s.emits_write).2
    ⟨((Renderable.buildWith_eq_ok_iff s.emits_write).1 hb).1, rfl⟩⟩

/-- The two quotings differ in the names alone.  With quotes around all names the server reads the
names of the statement; with quotes only where they are needed it reads the same names but for the
plain words, which it folds to lower case.  So both are read alike if and only if there is no
capital in a plain word. -/
theorem names_read_by_quoting (free : s.LiteralFree)
    (hb : Renderable.buildWith style s = .ok b) :
    ∃ bare quoted : Built,
      Renderable.buildWith { style with quoting := .asNeeded } s = .ok bare ∧
      Renderable.buildWith { style with quoting := .always } s = .ok quoted ∧
      (lex bare.sql).map List.length = some s.places.length ∧
      (lex quoted.sql).map List.length = some s.places.length ∧
      s.otherTokens bare.sql = s.otherTokens quoted.sql ∧
      s.namesRead quoted.sql = some s.names ∧
      s.namesRead bare.sql = some (s.names.map Identifier.folded) ∧
      (s.namesRead bare.sql = s.namesRead quoted.sql ↔
        ∀ name ∈ s.names, Identifier.isPlain name → ∀ c ∈ name.toList, c.isUpper = false) := by
  obtain ⟨bare, hbare⟩ := exists_built hb { style with quoting := .asNeeded }
  obtain ⟨quoted, hquoted⟩ := exists_built hb { style with quoting := .always }
  have readBare : s.namesRead bare.sql = some (s.names.map Identifier.folded) :=
    namesRead_of_built free hbare
  have readQuoted : s.namesRead quoted.sql = some s.names := by
    rw [namesRead_of_built free hquoted, Option.some_inj, map_eq_self_iff]
    exact fun _ _ => rfl
  refine ⟨bare, quoted, hbare, hquoted, length_tokens_of_built free hbare,
    length_tokens_of_built free hquoted, ?_, readQuoted, readBare, ?_⟩
  · rw [otherTokens, otherTokens, lex_of_built free hbare, lex_of_built free hquoted,
      Option.map_some, Option.map_some, places, Piece.marked_false_allTokens
        { style with quoting := .asNeeded } { style with quoting := .always } rfl]
  · rw [readBare, readQuoted, Option.some_inj, map_eq_self_iff]
    exact forall₂_congr fun _ _ => Identifier.folded_eq_self_iff

/-- A SELECT with a wildcard, capitals in plain words and in others, and a quote in an alias. -/
def mixedNames : Statement :=
  .select (.of
    { table := some { name := "users", aliasName := some "U", schema := some "app" }
      columns := [.column { name := "*" },
        .column { name := "Full name", aliasName := some "n\"1" }]
      filter := some (.node
        { isNull := [.column
            { name := "Id", table := some { name := "users", aliasName := some "U" } }]
          noRow := [.of { table := some { name := "orders" }, limit := some 1 }] } []) })

theorem names_read_by_quoting_mixedNames :
    mixedNames.LiteralFree ∧ ∃ b, Renderable.buildWith {} mixedNames = .ok b ∧
      mixedNames.names =
        ["*", "Full name", "n\"1", "app", "users", "U", "U", "Id", "orders"] ∧
      ∃ bare quoted : Built,
        Renderable.buildWith { quoting := .asNeeded } mixedNames = .ok bare ∧
        Renderable.buildWith { quoting := .always } mixedNames = .ok quoted ∧
        mixedNames.otherTokens bare.sql = mixedNames.otherTokens quoted.sql ∧
        mixedNames.namesRead quoted.sql = some mixedNames.names ∧
        mixedNames.namesRead bare.sql =
          some ["*", "Full name", "n\"1", "app", "users", "u", "u", "id", "orders"] := by
  have free : mixedNames.LiteralFree := by
    refine .of (fun p hp => ?_) (fun s hs => ?_)
    · obtain rfl := Option.some.inj hp
      exact .node (List.forall_mem_nil _) (List.forall_mem_nil _)
    · obtain rfl := List.mem_singleton.1 hs
      exact .of (fun p hp => nomatch hp) (List.forall_mem_nil _)
  have built : Renderable.buildWith {} mixedNames = .ok _ :=
    (Renderable.buildWith_eq_ok_iff mixedNames.emits_write).2 ⟨rfl, rfl⟩
  obtain ⟨bare, quoted, hbare, hquoted, -, -, others, readQuoted, readBare, -⟩ :=
    names_read_by_quoting free built
  refine ⟨free, _, built, by decide, bare, quoted, hbare, hquoted, others, readQuoted, ?_⟩
  rw [readBare]
  decide

/-- A SELECT from a table whose name has a capital. -/
def selectUsers : Statement :=
  .select (.ofTable { name := "Users" })

/-- Without quotes the server looks for another table than with them. -/
theorem namesRead_selectUsers :
    selectUsers.LiteralFree ∧ selectUsers.names = ["Users"] ∧ ∃ bare quoted : Built,
      Renderable.buildWith { quoting := .asNeeded } selectUsers = .ok bare ∧
      Renderable.buildWith { quoting := .always } selectUsers = .ok quoted ∧
      bare.sql = "SELECT * FROM Users" ∧ quoted.sql = "SELECT * FROM \"Users\"" ∧
      selectUsers.namesRead bare.sql = some ["users"] ∧
      selectUsers.namesRead quoted.sql = some ["Users"] ∧
      selectUsers.namesRead bare.sql ≠ selectUsers.namesRead quoted.sql := by
  have free : selectUsers.LiteralFree := .of (fun p hp => nomatch hp) (List.forall_mem_nil _)
  have bare : Renderable.buildWith { quoting := .asNeeded } selectUsers = .ok _ :=
    (Renderable.buildWith_eq_ok_iff selectUsers.emits_write).2 ⟨rfl, rfl⟩
  have quoted : Renderable.buildWith { quoting := .always } selectUsers = .ok _ :=
    (Renderable.buildWith_eq_ok_iff selectUsers.emits_write).2 ⟨rfl, rfl⟩
  refine ⟨free, by decide, _, _, bare, quoted, by decide, by decide, ?_⟩
  rw [namesRead_of_built free bare, namesRead_of_built free quoted]
  decide

end Statement

end SqlBuilder
