import SqlBuilder.Proofs.Rendering

/-!
# What goes into a log

A text that is too long for a log is cut to the longest run of whole characters that fits, and a
character takes at most four bytes, so that at most three are left unused.  The limit has no other
effect: scripts are printed alike whatever it is.
-/

namespace SqlBuilder

/-! ## The longest text that fits -/

theorem clip?_eq (max : Option Nat) (s : String) : clip? max s = some (clip max s) :=
  (Option.some_get _).symm

theorem clip_eq {max : Option Nat} {s t : String} (h : clip? max s = some t) : clip max s = t :=
  Option.get_of_eq_some _ h

/-- Of two texts that a text begins with, the one that is not longer begins the other. -/
theorem exists_append_of_append_eq {t u t' u' : String} (same : t ++ u = t' ++ u')
    (le : t'.utf8ByteSize ≤ t.utf8ByteSize) : ∃ r, t = t' ++ r := by
  have lists : t.toList ++ u.toList = t'.toList ++ u'.toList := by
    rw [← String.toList_append, same, String.toList_append]
  rcases List.append_eq_append_iff.1 lists with ⟨l, longer, -⟩ | ⟨l, shorter, -⟩
  · have whole : t' = t ++ String.ofList l := by
      rw [← String.toList_inj, String.toList_append, String.toList_ofList, longer]
    rw [whole, String.utf8ByteSize_append] at le
    have empty : String.ofList l = "" := by
      rw [← String.utf8ByteSize_eq_zero_iff]
      omega
    exact ⟨"", by rw [whole, empty, String.append_empty, String.append_empty]⟩
  · refine ⟨String.ofList l, ?_⟩
    rw [← String.toList_inj, String.toList_append, String.toList_ofList, shorter]

theorem clip_of_lt {s : String} {max : Nat} (long : max < s.utf8ByteSize) :
    ∃ t u, s = t ++ u ∧ clip (some max) s = t ++ "..." ∧ t.utf8ByteSize ≤ max ∧
      max ≤ t.utf8ByteSize + 3 ∧
      ∀ t' u', s = t' ++ u' → t'.utf8ByteSize ≤ max → ∃ r, t = t' ++ r := by
  obtain ⟨t, u, rfl, cut, le, last⟩ := exists_clip?_of_lt long
  refine ⟨t, u, rfl, clip_eq cut, le, ?_, fun t' u' split fits => ?_⟩
  · -- the boundary after the next character is beyond the limit
    rw [String.utf8ByteSize_append] at long
    cases rest : u.toList with
    | nil =>
      rw [String.toList_eq_nil_iff] at rest
      rw [rest, String.utf8ByteSize_empty] at long
      omega
    | cons c cs =>
      have next : isBoundary (t ++ u) (t.utf8ByteSize + c.utf8Size) := by
        refine isBoundary_iff.2 ⟨t ++ String.singleton c, String.ofList cs, ?_, ?_⟩
        · rw [← String.toList_inj]
          simp [rest]
        · simp
      have atMost := Char.utf8Size_le_four c
      have positive := Char.utf8Size_pos c
      by_contra
      have := last _ next (by omega)
      omega
  · exact exists_append_of_append_eq split (last _ (isBoundary_iff.2 ⟨t', u', split, rfl⟩) fits)

/-! ## The limit and the text -/

theorem Piece.print_withLimit (style : Style) (limit : Option Nat) (n : Nat) (ps : List Piece) :
    print { style with maxLogged := limit } n ps = print style n ps := by
  have printed : printed { style with maxLogged := limit } n ps = printed style n ps := by
    induction ps generalizing n with
    | nil => rfl
    | cons p ps ih =>
      rw [Piece.printed, Piece.printed, ih]
      cases p <;> rfl
  rw [print, print, printed]

theorem Emits.buildWith_withLimit {σ : Type} [Renderable σ] {s : σ} {t : Script}
    (h : Emits (Renderable.write s) t) (style : Style) (limit : Option Nat) :
    Renderable.buildWith { style with maxLogged := limit } s = Renderable.buildWith style s := by
  rw [Renderable.buildWith_of_emits h, Renderable.buildWith_of_emits h]
  simp only [Piece.print_withLimit]

/-! ## Limits -/

/-- Going back from a byte of a text ends at a byte that cuts no character in two, and so clipping
never fails.  A text stays as it is where there is no limit, and where it is within the limit.  Of
any other text the longest run of whole characters from the start is kept that is within the limit,
which leaves at most three bytes unused.  What is built is the same for all limits. -/
theorem log_keeps_longest_prefix :
    (∀ s i, i ≤ s.utf8ByteSize →
      ∃ j t, boundaryBefore? s i = some j ∧ j ≤ i ∧ textBefore? s j = some t) ∧
    (∀ max s, clip? max s = some (clip max s)) ∧
    (∀ s, clip none s = s) ∧
    (∀ max s, s.utf8ByteSize ≤ max → clip (some max) s = s) ∧
    (∀ max s, max < s.utf8ByteSize →
      ∃ t u, s = t ++ u ∧ clip (some max) s = t ++ "..." ∧ t.utf8ByteSize ≤ max ∧
        max ≤ t.utf8ByteSize + 3 ∧
        ∀ t' u', s = t' ++ u' → t'.utf8ByteSize ≤ max → ∃ r, t = t' ++ r) ∧
    (∀ (s : Statement) (style : Style) (limit : Option Nat),
      Renderable.buildWith { style with maxLogged := limit } s = Renderable.buildWith style s) ∧
    ∀ (p : Predicate Select) (style : Style) (limit : Option Nat),
      Renderable.buildWith { style with maxLogged := limit } p = Renderable.buildWith style p := by
  refine ⟨fun s i _ => ?_, clip?_eq, fun s => clip_eq rfl, fun max s short => ?_,
    fun max s => clip_of_lt, fun s => s.emits_write.buildWith_withLimit,
    fun p => p.emits_writeTree.buildWith_withLimit⟩
  · obtain ⟨j, found, le, boundary, -⟩ := exists_boundaryBefore? s i
    obtain ⟨t, u, rfl, rfl⟩ := isBoundary_iff.1 boundary
    exact ⟨_, t, found, le, textBefore?_append t u⟩
  · exact clip_eq (if_neg (Nat.not_lt.2 short))

/-- A limit in the middle of a character, and one of zero before such a character. -/
theorem log_keeps_longest_prefix_accented :
    2 < "né".utf8ByteSize ∧ clip (some 2) "né" = "n..." ∧
      (∃ t u, "né" = t ++ u ∧ clip (some 2) "né" = t ++ "..." ∧ t.utf8ByteSize ≤ 2) ∧
      0 < "é".utf8ByteSize ∧ clip (some 0) "é" = "..." ∧
      (∃ j t, boundaryBefore? "é" 1 = some j ∧ j ≤ 1 ∧ textBefore? "é" j = some t) ∧
      clip (some 3) "né" = "né" := by
  obtain ⟨back, -, -, short, long, -⟩ := log_keeps_longest_prefix
  obtain ⟨t, u, split, cut, fits, -⟩ := long 2 "né" (by decide)
  exact ⟨by decide, by decide, ⟨t, u, split, cut, fits⟩, by decide, by decide,
    back "é" 1 (by decide), short 3 "né" (by decide)⟩

end SqlBuilder
