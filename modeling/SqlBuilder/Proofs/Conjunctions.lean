import Mathlib.Data.List.Forall2
import SqlBuilder.Keyword
import SqlBuilder.Proofs.BlankWords

/-!
# The texts of a conjunction

`Conjunction.HasText` is the grammar: the words of a conjunction in any case, with any blanks around
them and some between two.  Reading accepts exactly this (`parse_eq_ok_iff`): the words of a text
are joined again and compared with a spelling, which is to compare them with the words of the
spelling.  What a change of the blanks does is seen from the words between them, and a blank put
into a word makes another word of the same letters, so that the letters alone decide which
conjunction a text could be.
-/

namespace SqlBuilder

/-! ## The grammar -/

/-- Whether some letters are those of a word in capitals, up to their case. -/
def Spells (w : List Char) (word : String) : Prop :=
  List.Forall₂ (fun c d => c = d ∨ c = d.toLower) w word.toList

namespace Conjunction

/-- The words of the SQL spelling. -/
def words : Conjunction → List String
  | and => ["AND"]
  | or => ["OR"]
  | andNot => ["AND", "NOT"]
  | orNot => ["OR", "NOT"]

/-- The texts of a conjunction. -/
inductive HasText (c : Conjunction) : List Char → Prop
  | one {word : String} {g w g' : List Char} (words : c.words = [word]) (before : IsGap g)
    (spelled : Spells w word) (after : IsGap g') : HasText c (g ++ w ++ g')
  | two {first second : String} {g v b w g' : List Char} (words : c.words = [first, second])
    (before : IsGap g) (spelled : Spells v first) (between : IsGap b) (some : b ≠ [])
    (spelled' : Spells w second) (after : IsGap g') : HasText c (g ++ (v ++ b ++ w) ++ g')

theorem ofKeyword_eq_some_iff {s : String} {c : Conjunction} :
    ofKeyword s = some c ↔ s = c.keyword := by
  constructor
  · intro h
    unfold ofKeyword at h
    split at h <;> cases h <;> rfl
  · rintro rfl
    cases c <;> rfl

theorem parse_eq_ok_iff_normalized {s : String} {c : Conjunction} :
    parse s = .ok c ↔ normalized s = c.keyword := by
  rw [← ofKeyword_eq_some_iff, parse]
  cases ofKeyword (normalized s) <;> simp

/-- The words of a text are the words of its normal form, in capitals. -/
theorem blankWords_normalized (s : String) :
    blankWords (normalized s).toList = blankWords (s.toList.map Char.toUpper) := by
  rw [normalized, String.toList_ofList, blankWords_map_toUpper, blankWords_rejoined,
    ← blankWords_map_toUpper]

/-- The normal form of a text is given by its words in capitals. -/
theorem toList_normalized (s : String) :
    (normalized s).toList = [' '].intercalate (blankWords (s.toList.map Char.toUpper)) := by
  rw [normalized, String.toList_ofList, map_toUpper_intercalate, blankWords_map_toUpper]

theorem blankWords_keyword (c : Conjunction) :
    blankWords c.keyword.toList = c.words.map String.toList := by
  cases c <;> decide

theorem intercalate_words (c : Conjunction) :
    [' '].intercalate (c.words.map String.toList) = c.keyword.toList := by
  cases c <;> decide

/-- Comparing the text with the spelling is comparing the words with its words. -/
theorem parse_eq_ok_iff_words {s : String} {c : Conjunction} :
    parse s = .ok c ↔ blankWords (s.toList.map Char.toUpper) = c.words.map String.toList := by
  rw [parse_eq_ok_iff_normalized]
  constructor
  · intro h
    rw [← blankWords_normalized, h, blankWords_keyword]
  · intro h
    rw [← String.toList_inj, toList_normalized, h, intercalate_words]

/-- A word of a conjunction has letters, and all are capitals. -/
theorem isUpper_of_mem_words {c : Conjunction} {word : String} (h : word ∈ c.words) :
    word.toList ≠ [] ∧ ∀ d ∈ word.toList, d.isUpper := by
  suffices capitals : word.toList ≠ [] ∧ word.toList.all Char.isUpper = true from
    ⟨capitals.1, List.all_eq_true.1 capitals.2⟩
  cases c <;> simp only [words, List.mem_cons, List.not_mem_nil, or_false] at h
  · subst h
    decide
  · subst h
    decide
  · rcases h with rfl | rfl <;> decide
  · rcases h with rfl | rfl <;> decide

end Conjunction

theorem spells_iff {w : List Char} {word : String} (capitals : ∀ d ∈ word.toList, d.isUpper) :
    Spells w word ↔ w.map Char.toUpper = word.toList := by
  unfold Spells
  generalize word.toList = ds at capitals ⊢
  induction w generalizing ds with
  | nil => cases ds <;> simp
  | cons c w ih =>
    cases ds with
    | nil => simp
    | cons d ds =>
      rw [List.forall₂_cons, List.map_cons, List.cons.injEq,
        toUpper_eq_iff (capitals d List.mem_cons_self),
        ih ds fun e he => capitals e (List.mem_cons_of_mem _ he)]

namespace Conjunction

/-- A word of a conjunction is read as one word, whatever the case of its letters. -/
theorem blankWords_spelled {c : Conjunction} {word : String} (h : word ∈ c.words) {w : List Char}
    (spelled : Spells w word) : blankWords (w.map Char.toUpper) = [word.toList] := by
  obtain ⟨some, capitals⟩ := isUpper_of_mem_words h
  rw [(spells_iff capitals).1 spelled]
  exact blankWords_word some fun d hd => isBlank_of_isUpper (capitals d hd)

theorem HasText.words_eq {c : Conjunction} {cs : List Char} (h : c.HasText cs) :
    blankWords (cs.map Char.toUpper) = c.words.map String.toList := by
  cases h with
  | @one word g w g' words before spelled after =>
    have mem : word ∈ c.words := by simp [words]
    rw [List.map_append, List.map_append, blankWords_padded before.map_toUpper after.map_toUpper,
      blankWords_spelled mem spelled, words]
    rfl
  | @two first second g v b w g' words before spelled between some spelled' after =>
    have mem : first ∈ c.words := by simp [words]
    have mem' : second ∈ c.words := by simp [words]
    rw [List.map_append, List.map_append, blankWords_padded before.map_toUpper after.map_toUpper,
      List.map_append, List.map_append,
      blankWords_spaced between.map_toUpper (mt List.map_eq_nil_iff.1 some),
      blankWords_spelled mem spelled, blankWords_spelled mem' spelled', words]
    rfl

/-- A text with one word of a conjunction, and with more after it. -/
theorem exists_of_words_eq_cons {c : Conjunction} {word : String} (h : word ∈ c.words)
    {ws : List (List Char)} {cs : List Char}
    (words : (blankWords cs).map (List.map Char.toUpper) = word.toList :: ws) :
    ∃ g w rest, IsGap g ∧ Spells w word ∧ cs = g ++ w ++ rest ∧ StartsBlank rest ∧
      (StartsBlank cs → g ≠ []) ∧ (blankWords rest).map (List.map Char.toUpper) = ws := by
  obtain ⟨some, capitals⟩ := isUpper_of_mem_words h
  obtain ⟨w, vs, split, upper, others⟩ := List.map_eq_cons_iff.1 words
  obtain ⟨g, rest, gap, rfl, starts, rfl⟩ := exists_of_blankWords_eq_cons split
  refine ⟨g, w, rest, gap, (spells_iff capitals).2 upper, rfl, starts, ?_, others⟩
  rintro blank rfl
  -- the text would begin with the first letter of the word
  cases w with
  | nil => exact some upper.symm
  | cons d w =>
    have capital : d.toUpper.isUpper := capitals _ (upper ▸ List.mem_cons_self)
    have letter := isBlank_of_isUpper capital
    rw [isBlank_toUpper, blank d rfl] at letter
    cases letter

theorem hasText_iff {c : Conjunction} {cs : List Char} :
    c.HasText cs ↔ blankWords (cs.map Char.toUpper) = c.words.map String.toList := by
  refine ⟨HasText.words_eq, fun h => ?_⟩
  rw [blankWords_map_toUpper] at h
  have one {word : String} (words : c.words = [word]) : c.HasText cs := by
    have mem : word ∈ c.words := by simp [words]
    rw [words] at h
    obtain ⟨g, w, rest, gap, spelled, rfl, -, -, none⟩ := exists_of_words_eq_cons mem h
    exact .one words gap spelled (isGap_of_blankWords_eq_nil (List.map_eq_nil_iff.1 none))
  have two {first second : String} (words : c.words = [first, second]) : c.HasText cs := by
    have mem : first ∈ c.words := by simp [words]
    have mem' : second ∈ c.words := by simp [words]
    rw [words] at h
    obtain ⟨g, v, rest, gap, spelled, rfl, starts, -, more⟩ := exists_of_words_eq_cons mem h
    obtain ⟨b, w, rest, between, spelled', rfl, -, some, none⟩ := exists_of_words_eq_cons mem' more
    have text := HasText.two words gap spelled between (some starts) spelled'
      (isGap_of_blankWords_eq_nil (List.map_eq_nil_iff.1 none))
    simpa using text
  cases c
  · exact one rfl
  · exact one rfl
  · exact two rfl
  · exact two rfl

/-- A text is read as a conjunction if and only if it is one of its texts. -/
theorem parse_eq_ok_iff {s : String} {c : Conjunction} : parse s = .ok c ↔ c.HasText s.toList :=
  parse_eq_ok_iff_words.trans hasText_iff.symm

theorem parse_eq_error {s : String} (h : ∀ c, parse s ≠ .ok c) :
    parse s = .error (.invalidConjunction s) := by
  cases result : parse s with
  | ok c => exact absurd result (h c)
  | error e => rw [eq_of_parse_eq_error result]

end Conjunction

/-! ## Changes of a text -/

/-- The case of some letters is changed. -/
def Recased (s s' : String) : Prop :=
  List.Forall₂ (fun c d => d = c ∨ d = c.toUpper ∨ d = c.toLower) s.toList s'.toList

/-- Blanks are put before and after a text. -/
def Padded (s s' : String) : Prop :=
  ∃ g g', IsGap g ∧ IsGap g' ∧ s'.toList = g ++ s.toList ++ g'

/-- Some blanks are replaced by some others. -/
def Respaced (s s' : String) : Prop :=
  ∃ a b b' d, IsGap b ∧ b ≠ [] ∧ IsGap b' ∧ b' ≠ [] ∧
    s.toList = a ++ b ++ d ∧ s'.toList = a ++ b' ++ d

/-- Some blanks are put into a word, or, seen from the other text, all blanks between two words are
taken out. -/
def WordCut (s s' : String) : Prop :=
  ∃ a x b y d, isBlank x = false ∧ isBlank y = false ∧ IsGap b ∧ b ≠ [] ∧
    s.toList = a ++ x :: y :: d ∧ s'.toList = a ++ [x] ++ b ++ y :: d

namespace Conjunction

theorem map_toUpper_eq_of_recased {s s' : String} (h : Recased s s') :
    s'.toList.map Char.toUpper = s.toList.map Char.toUpper := by
  unfold Recased at h
  generalize s.toList = cs, s'.toList = ds at h ⊢
  induction h with
  | nil => rfl
  | cons same _ ih =>
    rw [List.map_cons, List.map_cons, ih]
    rcases same with rfl | rfl | rfl
    · rfl
    · rw [toUpper_toUpper]
    · rw [toUpper_toLower]

/-- The words of a text, in capitals, are not changed. -/
theorem words_eq_of_changed {s s' : String} (h : Recased s s' ∨ Padded s s' ∨ Respaced s s') :
    blankWords (s'.toList.map Char.toUpper) = blankWords (s.toList.map Char.toUpper) := by
  rcases h with h | ⟨g, g', before, after, text⟩ | ⟨a, b, b', d, gap, some, gap', some', rfl', text⟩
  · rw [map_toUpper_eq_of_recased h]
  · rw [text, List.map_append, List.map_append,
      blankWords_padded before.map_toUpper after.map_toUpper]
  · rw [blankWords_map_toUpper, blankWords_map_toUpper, rfl', text, blankWords_spaced gap some,
      blankWords_spaced gap' some']

theorem parse_of_changed {s s' : String} (h : Recased s s' ∨ Padded s s' ∨ Respaced s s')
    (c : Conjunction) : parse s = .ok c ↔ parse s' = .ok c := by
  rw [parse_eq_ok_iff_words, parse_eq_ok_iff_words, words_eq_of_changed h]

/-- The letters of a text decide which conjunction it could be. -/
theorem eq_of_letters_eq {c c' : Conjunction}
    (h : (c.words.map String.toList).flatten = (c'.words.map String.toList).flatten) : c = c' := by
  revert h
  cases c <;> cases c' <;> decide

/-- The letters of a text that is read are those of the conjunction, up to their case. -/
theorem letters_eq_of_parse {s : String} {c : Conjunction} (h : parse s = .ok c) :
    (s.toList.filter fun c => !isBlank c).map Char.toUpper =
      (c.words.map String.toList).flatten := by
  rw [← parse_eq_ok_iff_words.1 h, flatten_blankWords, List.filter_map]
  simp [Function.comp_def, isBlank_toUpper]

/-- Blanks put into a word make no other conjunction, since the letters stay, and not the same one,
since there is a word more. -/
theorem not_parse_of_wordCut {s s' : String} (h : WordCut s s') {c c' : Conjunction}
    (parsed : parse s = .ok c) : parse s' ≠ .ok c' := by
  intro parsed'
  obtain ⟨a, x, b, y, d, hx, hy, gap, some, text, text'⟩ := h
  have letters : s'.toList.filter (fun c => !isBlank c) = s.toList.filter fun c => !isBlank c := by
    have none : b.filter (fun c => !isBlank c) = [] := by
      rw [List.filter_eq_nil_iff]
      intro c hc
      rw [gap c hc]
      decide
    rw [text, text']
    simp [hx, hy, none]
  have same : c' = c := eq_of_letters_eq <| by
    rw [← letters_eq_of_parse parsed', ← letters_eq_of_parse parsed, letters]
  subst same
  have more : (blankWords s'.toList).length = (blankWords s.toList).length + 1 := by
    rw [text, text', blankWords_spaced gap some, List.length_append, length_blankWords_joined hx hy]
  have counted := congrArg List.length
    ((parse_eq_ok_iff_words.1 parsed).trans (parse_eq_ok_iff_words.1 parsed').symm)
  rw [blankWords_map_toUpper, blankWords_map_toUpper, List.length_map, List.length_map] at counted
  omega

/-- A text is read as a conjunction if and only if it is its words, each in any case, with any
blanks around and some between two; every other text is refused, and kept in the error.  So the case
of letters, blanks around and the kind and number of blanks where there are some make no difference,
but blanks put into a word, or taken out between two, always do. -/
theorem parse_accepts_grammar :
    (∀ s c, parse s = .ok c ↔ c.HasText s.toList) ∧
    (∀ s, (∀ c : Conjunction, ¬c.HasText s.toList) → parse s = .error (.invalidConjunction s)) ∧
    (∀ c : Conjunction, " ".intercalate c.words = c.keyword) ∧
    (∀ s s', Recased s s' ∨ Padded s s' ∨ Respaced s s' →
      ∀ c, parse s = .ok c ↔ parse s' = .ok c) ∧
    (∀ s s', WordCut s s' → ∀ c,
      (parse s = .ok c → parse s' = .error (.invalidConjunction s')) ∧
      (parse s' = .ok c → parse s = .error (.invalidConjunction s))) ∧
    ∀ c : Conjunction, parse c.keyword = .ok c ∧ parse c.separator = .ok c := by
  refine ⟨fun s c => parse_eq_ok_iff, fun s none => ?_, fun c => ?_, fun s s' => parse_of_changed,
    fun s s' cut c => ⟨fun parsed => ?_, fun parsed => ?_⟩, fun c => ?_⟩
  · exact parse_eq_error fun c parsed => none c (parse_eq_ok_iff.1 parsed)
  · cases c <;> decide
  · exact parse_eq_error fun c' => not_parse_of_wordCut cut parsed
  · exact parse_eq_error fun c' parsed' => not_parse_of_wordCut cut parsed' parsed
  · cases c <;> decide

/-- A text with an em space and a tab among its blanks, and a word that is cut in two. -/
theorem parse_accepts_grammar_mixedCase :
    andNot.HasText "\u2003aNd\t nOT".toList ∧ parse "\u2003aNd\t nOT" = .ok andNot ∧
      WordCut "or" "o r" ∧ parse "or" = .ok or ∧
      parse "o r" = .error (.invalidConjunction "o r") := by
  obtain ⟨accepts, -, -, -, cuts, -⟩ := parse_accepts_grammar
  have text : andNot.HasText "\u2003aNd\t nOT".toList :=
    @HasText.two andNot "AND" "NOT" ['\u2003'] ['a', 'N', 'd'] ['\t', ' '] ['n', 'O', 'T'] [] rfl
      (by simp [IsGap, isBlank]) (by simp [Spells]) (by simp [IsGap, isBlank]) (by simp)
      (by simp [Spells]) (by simp [IsGap])
  have cut : WordCut "or" "o r" :=
    ⟨[], 'o', [' '], 'r', [], rfl, rfl, by simp [IsGap, isBlank], by simp, rfl, rfl⟩
  have parsed : parse "or" = .ok or := by decide
  exact ⟨text, (accepts _ _).2 text, cut, parsed, (cuts _ _ cut or).1 parsed⟩

end Conjunction

end SqlBuilder
