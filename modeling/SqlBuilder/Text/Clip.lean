/-!
# Clipped text

`clip?` cuts a text to a number of bytes of its UTF-8 form and marks the cut with three dots.  The
cut goes back from that number, byte by byte, until it lies between two characters.  It would fail
where it had to go back from zero, or where a character were cut in two; `isSome_clip?` says that
this never happens, and so `clip` has no failure.
-/

namespace SqlBuilder

/-- Whether a character of a text begins at a byte, or the text ends there. -/
def isBoundary (s : String) (i : Nat) : Bool :=
  if h : i < s.utf8ByteSize then (s.getUTF8Byte ⟨i⟩ h).IsUTF8FirstByte else i == s.utf8ByteSize

/-- The boundary at a byte or else the last before it; none if zero is reached and is none. -/
def boundaryBefore? (s : String) : Nat → Option Nat
  | 0 => if isBoundary s 0 then some 0 else none
  | i + 1 => if isBoundary s (i + 1) then some (i + 1) else boundaryBefore? s i

/-- The text before a byte; none if it is beyond the end or a character is cut in two. -/
def textBefore? (s : String) (i : Nat) : Option String :=
  if i ≤ s.utf8ByteSize then String.fromUTF8? (s.toByteArray.extract 0 i) else none

/-- The text if it takes at most `max` bytes, and otherwise what fits and three dots. -/
def clip? (max : Option Nat) (s : String) : Option String :=
  match max with
  | some max =>
    if max < s.utf8ByteSize then do
      let i ← boundaryBefore? s max
      let t ← textBefore? s i
      return t ++ "..."
    else some s
  | none => some s

theorem isBoundary_iff {s : String} {i : Nat} :
    isBoundary s i ↔ ∃ t u, s = t ++ u ∧ t.utf8ByteSize = i := by
  have valid : isBoundary s i ↔ String.Pos.Raw.IsValid s ⟨i⟩ := by
    rw [String.Pos.Raw.isValid_iff_isUTF8FirstByte, isBoundary]
    split
    · next inside =>
      have notEnd : (⟨i⟩ : String.Pos.Raw) ≠ s.rawEndPos := by
        intro atEnd
        exact Nat.ne_of_lt inside (congrArg String.Pos.Raw.byteIdx atEnd)
      rw [decide_eq_true_iff]
      exact ⟨fun first => .inr ⟨inside, first⟩, fun h => (h.resolve_left notEnd).2⟩
    · next outside =>
      rw [beq_iff_eq]
      constructor
      · rintro rfl
        exact .inl rfl
      · rintro (atEnd | ⟨inside, -⟩)
        · exact congrArg String.Pos.Raw.byteIdx atEnd
        · exact absurd inside outside
  rw [valid, String.Pos.Raw.isValid_iff_exists_append]
  constructor
  · rintro ⟨t, u, split, atEnd⟩
    exact ⟨t, u, split, (congrArg String.Pos.Raw.byteIdx atEnd).symm⟩
  · rintro ⟨t, u, split, size⟩
    exact ⟨t, u, split, String.Pos.Raw.ext size.symm⟩

/-- Going back ends at a boundary, after which there is none up to the byte gone back from. -/
theorem exists_boundaryBefore? (s : String) (i : Nat) :
    ∃ j, boundaryBefore? s i = some j ∧ j ≤ i ∧ isBoundary s j ∧
      ∀ k, isBoundary s k → k ≤ i → k ≤ j := by
  have zero : isBoundary s 0 := isBoundary_iff.2 ⟨"", s, String.empty_append.symm, rfl⟩
  induction i with
  | zero => exact ⟨0, if_pos zero, Nat.le_refl 0, zero, fun k _ le => le⟩
  | succ i ih =>
    rw [boundaryBefore?]
    by_cases here : isBoundary s (i + 1)
    · exact ⟨i + 1, if_pos here, Nat.le_refl _, here, fun k _ le => le⟩
    · obtain ⟨j, found, le, boundary, last⟩ := ih
      refine ⟨j, (if_neg here).trans found, Nat.le_succ_of_le le, boundary, fun k hk le' => ?_⟩
      have differs : k ≠ i + 1 := by
        rintro rfl
        exact here hk
      exact last k hk (by omega)

theorem textBefore?_append (t u : String) : textBefore? (t ++ u) t.utf8ByteSize = some t := by
  have within : t.utf8ByteSize ≤ (t ++ u).utf8ByteSize := by
    rw [String.utf8ByteSize_append]
    exact Nat.le_add_right _ _
  have bytes : (t ++ u).toByteArray.extract 0 t.utf8ByteSize = t.toByteArray := by
    rw [String.toByteArray_append, ← String.size_toByteArray]
    exact ByteArray.extract_append_eq_left rfl
  rw [textBefore?, if_pos within, bytes, String.fromUTF8?, dif_pos t.isValidUTF8]
  rfl

/-- A text that is too long is cut at the last boundary that the number of bytes allows. -/
theorem exists_clip?_of_lt {s : String} {max : Nat} (long : max < s.utf8ByteSize) :
    ∃ t u, s = t ++ u ∧ clip? (some max) s = some (t ++ "...") ∧ t.utf8ByteSize ≤ max ∧
      ∀ k, isBoundary s k → k ≤ max → k ≤ t.utf8ByteSize := by
  obtain ⟨j, found, le, boundary, last⟩ := exists_boundaryBefore? s max
  obtain ⟨t, u, rfl, rfl⟩ := isBoundary_iff.1 boundary
  refine ⟨t, u, rfl, ?_, le, last⟩
  rw [clip?, if_pos long, found, Option.bind_eq_bind, Option.bind_some, textBefore?_append]
  rfl

theorem isSome_clip? (max : Option Nat) (s : String) : (clip? max s).isSome := by
  cases max with
  | none => rfl
  | some max =>
    by_cases long : max < s.utf8ByteSize
    · obtain ⟨t, u, -, cut, -⟩ := exists_clip?_of_lt long
      rw [cut]
      rfl
    · rw [clip?, if_neg long]
      rfl

/-- The text if it takes at most `max` bytes, and otherwise what fits and three dots. -/
def clip (max : Option Nat) (s : String) : String :=
  (clip? max s).get (isSome_clip? max s)

end SqlBuilder
