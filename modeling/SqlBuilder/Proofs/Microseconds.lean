import SqlBuilder.Proofs.Encoding

/-!
# Encoding instants

A column of instants holds the microseconds from the beginning of 2000, in eight bytes.  Every
instant of the calendar has its count there, since the years of the calendar end before the numbers
of eight bytes do.  The count is cut off towards 2000, on both sides of it, so it keeps the order
of instants.  Main statement: `Timestamp.encoding_keeps_order`.
-/

namespace SqlBuilder

namespace Timestamp

/-- The nanoseconds from the beginning of 2000 to the instant. -/
def sinceEpoch (t : Timestamp) : Int :=
  (t.seconds - Date.toDays { year := 2000, month := 1, day := 1 } * 86400) * 1000000000 + t.nanos

/-- The first instant is the second one or lies before it. -/
def NotAfter (t u : Timestamp) : Prop :=
  t.seconds < u.seconds ∨ t.seconds = u.seconds ∧ t.nanos ≤ u.nanos

/-! ## Counts of microseconds -/

theorem micros_eq (t : Timestamp) : t.micros = t.sinceEpoch.tdiv 1000 := by
  have epoch : Date.toDays { year := 2000, month := 1, day := 1 } = 10957 := by decide
  unfold micros sinceEpoch totalNanos epochNanos nanosPerSecond
  rw [epoch]
  congr 1
  omega

/-- What is cut off is less than a microsecond, and the rest does not lie farther from zero. -/
theorem natAbs_tdiv_thousand (d : Int) :
    (1000 * d.tdiv 1000 - d).natAbs < 1000 ∧ (1000 * d.tdiv 1000).natAbs ≤ d.natAbs := by
  rcases Int.le_total 0 d with after | before
  · have count : d.tdiv 1000 = d / 1000 := Int.tdiv_eq_ediv_of_nonneg after
    omega
  · have count : (-d).tdiv 1000 = -d / 1000 := Int.tdiv_eq_ediv_of_nonneg (by omega)
    rw [Int.neg_tdiv] at count
    omega

/-- The second instant may lie in a leap second, which counts on into the next second. -/
theorem micros_le_micros {t u : Timestamp} (plain : t.nanos < nanosPerSecond)
    (h : t.NotAfter u) : t.micros ≤ u.micros := by
  unfold micros totalNanos
  refine Int.tdiv_le_tdiv (by decide) ?_
  unfold nanosPerSecond at *
  rcases h with earlier | ⟨same, nanos⟩ <;> omega

/-- An instant in a leap second is before the next second, and has the greater count. -/
example :
    let t : Timestamp := ⟨59, 1500000000, by decide, by decide, by decide⟩
    let u : Timestamp := ⟨60, 0, by decide, by decide, by decide⟩
    t.seconds < u.seconds ∧ u.micros < t.micros := by
  decide

/-! ## Encoded instants -/

/-- Both encoders append the bytes for the instant, in a column of either type of instants. -/
def EncodesTo (t : Timestamp) (bs : List UInt8) : Prop :=
  ∀ ty, ty = .timestamp ∨ ty = .timestamptz → ∀ buffer,
    ((Value.timestamp t).encode ty).run.run buffer = (.ok false, buffer ++ bs) ∧
      ((Value.timestamp t).encodeChecked ty).run.run buffer = (.ok false, buffer ++ bs)

theorem encodesTo_micros (t : Timestamp) : t.EncodesTo (twosComplement 8 t.micros) := by
  intro ty hty buffer
  have accepted : (Value.timestamp t).accepts ty := by
    rcases hty with rfl | rfl <;> rfl
  rw [Value.encodeChecked_of_accepts accepted]
  have run : ((Value.timestamp t).encode ty).run.run buffer =
      (.ok false, buffer ++ twosComplement 8 t.micros) := Value.run_encode_of_ok rfl buffer
  exact ⟨run, run⟩

theorem EncodesTo.eq {t : Timestamp} {bs : List UInt8} (h : t.EncodesTo bs) :
    bs = twosComplement 8 t.micros := by
  obtain ⟨run, -⟩ := h .timestamp (.inl rfl) []
  obtain ⟨run', -⟩ := t.encodesTo_micros .timestamp (.inl rfl) []
  rw [run] at run'
  cases run'
  rfl

theorem ofTwosComplement_micros (t : Timestamp) :
    ofTwosComplement (twosComplement 8 t.micros) = t.micros :=
  ofTwosComplement_twosComplement (by decide) t.micros_range.1 t.micros_range.2

/-- Every instant has eight bytes in a column of instants, with a time zone or without: its count
of microseconds from the beginning of 2000, cut off towards it, which is in the range of such
numbers.  So what is read lies less than a microsecond off, and not farther from 2000; and where no
instant is after the next, no count is greater than the next. -/
theorem encoding_keeps_order :
    (∀ t : Timestamp, ∃ bs, t.EncodesTo bs ∧ bs.length = 8 ∧
      ofTwosComplement bs = t.sinceEpoch.tdiv 1000 ∧
      -(2 ^ 63 : Int) ≤ t.sinceEpoch.tdiv 1000 ∧ t.sinceEpoch.tdiv 1000 < 2 ^ 63 ∧
      (1000 * ofTwosComplement bs - t.sinceEpoch).natAbs < 1000 ∧
      (1000 * ofTwosComplement bs).natAbs ≤ t.sinceEpoch.natAbs) ∧
    ∀ (t u : Timestamp) (bs bs' : List UInt8), t.nanos < nanosPerSecond → t.NotAfter u →
      t.EncodesTo bs → u.EncodesTo bs' → ofTwosComplement bs ≤ ofTwosComplement bs' := by
  constructor
  · intro t
    obtain ⟨low, high⟩ := t.micros_range
    refine ⟨_, t.encodesTo_micros, length_twosComplement 8 _, ?_⟩
    rw [ofTwosComplement_micros, ← micros_eq]
    refine ⟨rfl, low, high, ?_⟩
    rw [micros_eq]
    exact natAbs_tdiv_thousand t.sinceEpoch
  · intro t u bs bs' plain notAfter ht hu
    rw [ht.eq, hu.eq, ofTwosComplement_micros, ofTwosComplement_micros]
    exact micros_le_micros plain notAfter

/-- An instant 1500 nanoseconds before 2000 has the count -1, and the bytes of that are not after
those of the next nanosecond. -/
theorem encoding_keeps_order_before2000 :
    let t : Timestamp := ⟨946684799, 999998500, by decide, by decide, by decide⟩
    let u : Timestamp := ⟨946684799, 999998501, by decide, by decide, by decide⟩
    t.sinceEpoch = -1500 ∧ t.nanos < nanosPerSecond ∧ t.NotAfter u ∧
      t.EncodesTo [255, 255, 255, 255, 255, 255, 255, 255] ∧
      ∃ bs, u.EncodesTo bs ∧
        ofTwosComplement [255, 255, 255, 255, 255, 255, 255, 255] ≤ ofTwosComplement bs := by
  intro t u
  have plain : t.nanos < nanosPerSecond := by decide
  have notAfter : t.NotAfter u := .inr ⟨rfl, by decide⟩
  have bytes : twosComplement 8 t.micros = [255, 255, 255, 255, 255, 255, 255, 255] := by decide
  have written := t.encodesTo_micros
  rw [bytes] at written
  obtain ⟨each, ordered⟩ := encoding_keeps_order
  obtain ⟨bs, writtenToo, -⟩ := each u
  exact ⟨by decide, plain, notAfter, written, bs, writtenToo,
    ordered t u _ _ plain notAfter written writtenToo⟩

end Timestamp

end SqlBuilder
