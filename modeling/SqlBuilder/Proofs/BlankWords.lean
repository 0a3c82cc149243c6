import Mathlib.Tactic.ByContra
import Mathlib.Tactic.SplitIfs
import SqlBuilder.Text.Blank

/-!
# Words between blanks

`blankWords` cuts a text at its runs of blanks.  How many blanks stand around and between the words
makes no difference to them (`blankWords_padded`, `blankWords_spaced`), so that they may be joined
again by single blanks (`blankWords_rejoined`).  Their letters are those of the text
(`flatten_blankWords`), and a text in capitals has the words in capitals.
-/

namespace SqlBuilder

/-- A run of blanks, which may be empty. -/
def IsGap (g : List Char) : Prop :=
  ∀ c ∈ g, isBlank c = true

/-- Whether a text does not go on with a word. -/
def StartsBlank (cs : List Char) : Prop :=
  ∀ c ∈ cs.head?, isBlank c = true

theorem IsGap.startsBlank {g : List Char} (h : IsGap g) : StartsBlank g :=
  fun c hc => h c (List.mem_of_mem_head? hc)

theorem startsBlank_of_append {b cs : List Char} (h : StartsBlank b) (some : b ≠ []) :
    StartsBlank (b ++ cs) := by
  cases b with
  | nil => exact absurd rfl some
  | cons c b => exact h

theorem startsBlank_append {a b : List Char} (h : StartsBlank b) :
    StartsBlank (a ++ b) ↔ StartsBlank a := by
  cases a with
  | nil => exact iff_of_true h nofun
  | cons c a => exact Iff.rfl

theorem blankWords_cons_of_startsBlank {c : Char} {cs : List Char} (word : isBlank c = false)
    (h : StartsBlank cs) : blankWords (c :: cs) = [c] :: blankWords cs := by
  cases cs with
  | nil => simp [blankWords, word]
  | cons d cs => simp [blankWords, word, h d rfl]

theorem blankWords_cons_of_not_startsBlank {c : Char} {cs : List Char} (word : isBlank c = false)
    (h : ¬StartsBlank cs) : blankWords (c :: cs) = extendFirst c (blankWords cs) := by
  cases cs with
  | nil => exact absurd nofun h
  | cons d cs =>
    have inside : ¬isBlank d = true := by
      intro blank
      apply h
      rintro _ ⟨⟩
      exact blank
    simp [blankWords, word, inside]

/-- A text that begins with a word has a first word. -/
theorem blankWords_ne_nil {cs : List Char} (h : ¬StartsBlank cs) : blankWords cs ≠ [] := by
  cases cs with
  | nil => exact absurd nofun h
  | cons c cs =>
    have word : isBlank c = false := by
      by_contra blank
      apply h
      rintro _ ⟨⟩
      simpa using blank
    by_cases next : StartsBlank cs
    · simp [blankWords_cons_of_startsBlank word next]
    · rw [blankWords_cons_of_not_startsBlank word next]
      cases blankWords cs <;> simp [extendFirst]

theorem extendFirst_append {ws : List (List Char)} (h : ws ≠ []) (c : Char)
    (vs : List (List Char)) : extendFirst c (ws ++ vs) = extendFirst c ws ++ vs := by
  cases ws with
  | nil => exact absurd rfl h
  | cons w ws => rfl

/-- The words of a text are those up to a blank and those from there on. -/
theorem blankWords_append {b : List Char} (h : StartsBlank b) (a : List Char) :
    blankWords (a ++ b) = blankWords a ++ blankWords b := by
  induction a with
  | nil => rfl
  | cons c a ih =>
    rw [List.cons_append]
    cases word : isBlank c with
    | true => rw [blankWords_cons_blank word, blankWords_cons_blank word, ih]
    | false =>
      by_cases next : StartsBlank a
      · rw [blankWords_cons_of_startsBlank word next,
          blankWords_cons_of_startsBlank word ((startsBlank_append h).2 next), ih]
        rfl
      · rw [blankWords_cons_of_not_startsBlank word next,
          blankWords_cons_of_not_startsBlank word (mt (startsBlank_append h).1 next), ih,
          extendFirst_append (blankWords_ne_nil next)]

theorem IsGap.blankWords_append {g : List Char} (h : IsGap g) (cs : List Char) :
    blankWords (g ++ cs) = blankWords cs := by
  induction g with
  | nil => rfl
  | cons c g ih =>
    rw [List.cons_append, blankWords_cons_blank (h c List.mem_cons_self)]
    exact ih fun d hd => h d (List.mem_cons_of_mem _ hd)

theorem IsGap.blankWords_eq_nil {g : List Char} (h : IsGap g) : blankWords g = [] := by
  have words := h.blankWords_append []
  rwa [List.append_nil] at words

/-- Blanks around a text add no words. -/
theorem blankWords_padded {g g' : List Char} (h : IsGap g) (h' : IsGap g') (cs : List Char) :
    blankWords (g ++ cs ++ g') = blankWords cs := by
  rw [SqlBuilder.blankWords_append h'.startsBlank, h.blankWords_append, h'.blankWords_eq_nil,
    List.append_nil]

/-- Some blanks between two texts keep their words apart. -/
theorem blankWords_spaced {b : List Char} (h : IsGap b) (some : b ≠ []) (a d : List Char) :
    blankWords (a ++ b ++ d) = blankWords a ++ blankWords d := by
  rw [List.append_assoc, SqlBuilder.blankWords_append (startsBlank_of_append h.startsBlank some),
    h.blankWords_append]

/-- A word is its only word. -/
theorem blankWords_word {w : List Char} (some : w ≠ []) (h : ∀ c ∈ w, isBlank c = false) :
    blankWords w = [w] := by
  induction w with
  | nil => exact absurd rfl some
  | cons c w ih =>
    have first := h c List.mem_cons_self
    cases w with
    | nil => exact blankWords_cons_of_startsBlank first nofun
    | cons d w =>
      have inside : ¬StartsBlank (d :: w) := by
        intro blank
        have := h d (by simp)
        rw [blank d rfl] at this
        cases this
      rw [blankWords_cons_of_not_startsBlank first inside,
        ih (List.cons_ne_nil _ _) fun e he => h e (List.mem_cons_of_mem _ he)]
      rfl

/-- The first word of a text stands after some blanks, and the others after it. -/
theorem exists_of_blankWords_eq_cons {cs w : List Char} {ws : List (List Char)}
    (h : blankWords cs = w :: ws) :
    ∃ g rest, IsGap g ∧ cs = g ++ w ++ rest ∧ StartsBlank rest ∧ blankWords rest = ws := by
  induction cs generalizing w with
  | nil => cases h
  | cons c cs ih =>
    cases word : isBlank c with
    | true =>
      rw [blankWords_cons_blank word] at h
      obtain ⟨g, rest, gap, rfl, starts, words⟩ := ih h
      refine ⟨c :: g, rest, ?_, rfl, starts, words⟩
      rintro d (_ | ⟨_, hd⟩)
      · exact word
      · exact gap d hd
    | false =>
      by_cases next : StartsBlank cs
      · rw [blankWords_cons_of_startsBlank word next] at h
        cases h
        exact ⟨[], cs, nofun, rfl, next, rfl⟩
      · rw [blankWords_cons_of_not_startsBlank word next] at h
        cases words : blankWords cs with
        | nil => exact absurd words (blankWords_ne_nil next)
        | cons v vs =>
          rw [words] at h
          cases h
          obtain ⟨g, rest, gap, rfl, starts, others⟩ := ih words
          -- the word goes on, so that there are no blanks before its rest
          have none : g = [] := by
            by_contra some
            rw [List.append_assoc] at next
            exact next (startsBlank_of_append gap.startsBlank some)
          subst none
          exact ⟨[], rest, gap, rfl, starts, others⟩

theorem isGap_of_blankWords_eq_nil {cs : List Char} (h : blankWords cs = []) : IsGap cs := by
  induction cs with
  | nil => exact nofun
  | cons c cs ih =>
    cases word : isBlank c with
    | true =>
      rw [blankWords_cons_blank word] at h
      rintro d (_ | ⟨_, hd⟩)
      · exact word
      · exact ih h d hd
    | false =>
      refine absurd h (blankWords_ne_nil fun blank => ?_)
      rw [blank c rfl] at word
      cases word

/-! ## Letters and their number of words -/

theorem flatten_extendFirst (c : Char) (ws : List (List Char)) :
    (extendFirst c ws).flatten = c :: ws.flatten := by
  cases ws <;> rfl

/-- The words of a text have all its letters. -/
theorem flatten_blankWords (cs : List Char) :
    (blankWords cs).flatten = cs.filter fun c => !isBlank c := by
  induction cs with
  | nil => rfl
  | cons c cs ih =>
    cases word : isBlank c with
    | true => simp [blankWords_cons_blank word, ih, word]
    | false =>
      by_cases next : StartsBlank cs
      · simp [blankWords_cons_of_startsBlank word next, ih, word]
      · simp [blankWords_cons_of_not_startsBlank word next, flatten_extendFirst, ih, word]

theorem length_extendFirst {ws : List (List Char)} (h : ws ≠ []) (c : Char) :
    (extendFirst c ws).length = ws.length := by
  cases ws with
  | nil => exact absurd rfl h
  | cons w ws => rfl

/-- Two texts make one word less where the last word of one is continued by the other. -/
theorem length_blankWords_joined {x y : Char} (hx : isBlank x = false) (hy : isBlank y = false)
    (a d : List Char) :
    (blankWords (a ++ x :: y :: d)).length + 1 =
      (blankWords (a ++ [x])).length + (blankWords (y :: d)).length := by
  have inside : ¬StartsBlank (y :: d) := by
    intro blank
    rw [blank y rfl] at hy
    cases hy
  induction a with
  | nil =>
    rw [List.nil_append, blankWords_cons_of_not_startsBlank hx inside,
      length_extendFirst (blankWords_ne_nil inside), List.nil_append,
      blankWords_word (List.cons_ne_nil x []) (by simpa using hx), List.length_singleton,
      Nat.add_comm]
  | cons c a ih =>
    have same : StartsBlank (a ++ x :: y :: d) ↔ StartsBlank (a ++ [x]) := by
      cases a <;> exact Iff.rfl
    rw [List.cons_append, List.cons_append]
    cases word : isBlank c with
    | true => rw [blankWords_cons_blank word, blankWords_cons_blank word, ih]
    | false =>
      by_cases next : StartsBlank (a ++ [x])
      · rw [blankWords_cons_of_startsBlank word next,
          blankWords_cons_of_startsBlank word (same.2 next), List.length_cons, List.length_cons, ih]
        omega
      · rw [blankWords_cons_of_not_startsBlank word next,
          blankWords_cons_of_not_startsBlank word (mt same.1 next),
          length_extendFirst (blankWords_ne_nil next),
          length_extendFirst (blankWords_ne_nil (mt same.1 next)), ih]

/-! ## Joined words -/

theorem ne_nil_of_mem_blankWords {cs w : List Char} (h : w ∈ blankWords cs) : w ≠ [] := by
  induction cs generalizing w with
  | nil => cases h
  | cons c cs ih =>
    cases word : isBlank c with
    | true => exact ih (blankWords_cons_blank word cs ▸ h)
    | false =>
      by_cases next : StartsBlank cs
      · rw [blankWords_cons_of_startsBlank word next] at h
        rcases List.mem_cons.1 h with rfl | h
        · exact List.cons_ne_nil _ _
        · exact ih h
      · rw [blankWords_cons_of_not_startsBlank word next] at h
        cases words : blankWords cs with
        | nil => exact absurd words (blankWords_ne_nil next)
        | cons v vs =>
          rw [words] at h ih
          rcases List.mem_cons.1 h with rfl | h
          · exact List.cons_ne_nil _ _
          · exact ih (List.mem_cons_of_mem _ h)

theorem isBlank_of_mem_blankWords {cs w : List Char} (h : w ∈ blankWords cs) :
    ∀ c ∈ w, isBlank c = false := by
  intro c hc
  have letter : c ∈ (blankWords cs).flatten := List.mem_flatten.2 ⟨w, h, hc⟩
  rw [flatten_blankWords] at letter
  simpa using (List.mem_filter.1 letter).2

/-- Words that are joined by a blank are the words of what they make up. -/
theorem blankWords_intercalate {ws : List (List Char)} (some : ∀ w ∈ ws, w ≠ [])
    (words : ∀ w ∈ ws, ∀ c ∈ w, isBlank c = false) : blankWords ([' '].intercalate ws) = ws := by
  induction ws with
  | nil => rfl
  | cons w ws ih =>
    have first := blankWords_word (some w List.mem_cons_self) (words w List.mem_cons_self)
    cases ws with
    | nil => rw [List.intercalate_singleton, first]
    | cons v ws =>
      have blank : IsGap [' '] := by simp [IsGap, isBlank]
      rw [List.intercalate_cons_cons, blankWords_spaced blank (List.cons_ne_nil _ _), first,
        ih (fun u hu => some u (List.mem_cons_of_mem _ hu))
          fun u hu => words u (List.mem_cons_of_mem _ hu)]
      rfl

/-- Cutting a text and joining its words again leaves the words. -/
theorem blankWords_rejoined (cs : List Char) :
    blankWords ([' '].intercalate (blankWords cs)) = blankWords cs :=
  blankWords_intercalate (fun _ => ne_nil_of_mem_blankWords) fun _ => isBlank_of_mem_blankWords

/-! ## Case -/

theorem toNat_toUpper (c : Char) :
    c.toUpper.toNat = if 97 ≤ c.toNat ∧ c.toNat ≤ 122 then c.toNat - 32 else c.toNat := by
  unfold Char.toUpper
  split
  · next small =>
    have range : 97 ≤ c.toNat ∧ c.toNat ≤ 122 := small
    rw [if_pos range]
    show (c.val + (65 - 97)).toNat = c.val.toNat - 32
    have value : c.val.toNat = c.toNat := rfl
    rw [UInt32.toNat_add]
    show (c.val.toNat + 4294967264) % 4294967296 = _
    omega
  · next small => exact (if_neg small).symm

theorem toNat_toLower (c : Char) :
    c.toLower.toNat = if 65 ≤ c.toNat ∧ c.toNat ≤ 90 then c.toNat + 32 else c.toNat := by
  unfold Char.toLower
  split
  · next capital =>
    have range : 65 ≤ c.toNat ∧ c.toNat ≤ 90 := capital
    rw [if_pos range]
    show (c.val + (97 - 65)).toNat = c.val.toNat + 32
    have value : c.val.toNat = c.toNat := rfl
    rw [UInt32.toNat_add]
    show (c.val.toNat + 32) % 4294967296 = _
    omega
  · next capital => exact (if_neg capital).symm

theorem toUpper_toLower (c : Char) : c.toLower.toUpper = c.toUpper := by
  rw [← Char.toNat_inj, toNat_toUpper, toNat_toUpper, toNat_toLower]
  split_ifs <;> omega

theorem toUpper_toUpper (c : Char) : c.toUpper.toUpper = c.toUpper := by
  rw [← Char.toNat_inj, toNat_toUpper, toNat_toUpper]
  split_ifs <;> omega

theorem isBlank_of_letter {c : Char} (low : 65 ≤ c.toNat) (high : c.toNat ≤ 122) :
    isBlank c = false := by
  simp [isBlank]
  omega

theorem isBlank_toUpper (c : Char) : isBlank c.toUpper = isBlank c := by
  have moved := toNat_toUpper c
  split_ifs at moved with small
  · rw [isBlank_of_letter (c := c) (by omega) (by omega), isBlank_of_letter (by omega) (by omega)]
  · rw [Char.toNat_inj.1 moved]

/-- A capital is read from itself and from its small form. -/
theorem toUpper_eq_iff {c d : Char} (capital : d.isUpper) :
    c.toUpper = d ↔ c = d ∨ c = d.toLower := by
  have range : 65 ≤ d.toNat ∧ d.toNat ≤ 90 := of_decide_eq_true capital
  rw [← Char.toNat_inj, ← Char.toNat_inj, ← Char.toNat_inj, toNat_toUpper, toNat_toLower,
    if_pos range]
  split_ifs <;> omega

theorem startsBlank_map_toUpper (cs : List Char) :
    StartsBlank (cs.map Char.toUpper) ↔ StartsBlank cs := by
  cases cs with
  | nil => exact Iff.rfl
  | cons c cs => simp [StartsBlank, isBlank_toUpper]

theorem extendFirst_map (c : Char) (ws : List (List Char)) :
    (extendFirst c ws).map (List.map Char.toUpper) =
      extendFirst c.toUpper (ws.map (List.map Char.toUpper)) := by
  cases ws <;> rfl

/-- Capitals have the words of a text in capitals. -/
theorem blankWords_map_toUpper (cs : List Char) :
    blankWords (cs.map Char.toUpper) = (blankWords cs).map (List.map Char.toUpper) := by
  induction cs with
  | nil => rfl
  | cons c cs ih =>
    rw [List.map_cons]
    have same := isBlank_toUpper c
    cases word : isBlank c with
    | true => rw [blankWords_cons_blank word, blankWords_cons_blank (same.trans word), ih]
    | false =>
      by_cases next : StartsBlank cs
      · rw [blankWords_cons_of_startsBlank word next, blankWords_cons_of_startsBlank
          (same.trans word) ((startsBlank_map_toUpper cs).2 next), ih]
        rfl
      · rw [blankWords_cons_of_not_startsBlank word next, blankWords_cons_of_not_startsBlank
          (same.trans word) (mt (startsBlank_map_toUpper cs).1 next), ih, extendFirst_map]

theorem map_toUpper_intercalate (ws : List (List Char)) :
    ([' '].intercalate ws).map Char.toUpper =
      [' '].intercalate (ws.map (List.map Char.toUpper)) := by
  induction ws with
  | nil => rfl
  | cons w ws ih =>
    cases ws with
    | nil => simp
    | cons v ws =>
      rw [List.intercalate_cons_cons, List.map_append, List.map_append, ih]
      exact List.intercalate_cons_cons.symm

theorem IsGap.map_toUpper {g : List Char} (h : IsGap g) : IsGap (g.map Char.toUpper) := by
  intro c hc
  obtain ⟨d, hd, rfl⟩ := List.mem_map.1 hc
  rw [isBlank_toUpper]
  exact h d hd

theorem isBlank_of_isUpper {c : Char} (h : c.isUpper) : isBlank c = false := by
  have range : 65 ≤ c.toNat ∧ c.toNat ≤ 90 := of_decide_eq_true h
  exact isBlank_of_letter range.1 (by omega)

end SqlBuilder
