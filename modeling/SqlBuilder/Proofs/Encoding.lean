import Mathlib.Algebra.Group.Int.Defs
import SqlBuilder.Proofs.BinaryReading

/-!
# Encoding into a buffer

An encoder appends the binary form of a value to a buffer, or fails and leaves the buffer as it
was.  A value that is not null is appended as an element of some type (`Value.AppendedAs`), so that
what holds of `put` holds of values.  The checked encoder does what the other one does for a value
that goes into the column, and refuses every other value.  Main statement:
`Value.encoding_keeps_values`.
-/

namespace SqlBuilder

/-- Whatever is in the buffer, the encoder ends in the same way and appends the same bytes, and
none if it fails. -/
def Encoder.Appends (a : Encoder Bool) : Prop :=
  ∃ (outcome : Except EncodeError Bool) (bs : List UInt8),
    (∀ buffer, a.run.run buffer = (outcome, buffer ++ bs)) ∧
      ∀ e, outcome = .error e → bs = []

/-! ## Instants -/

namespace Timestamp

/-- The first and the last year of the calendar lie within the numbers of eight bytes. -/
theorem micros_range (t : Timestamp) : -(2 ^ 63 : Int) ≤ t.micros ∧ t.micros < 2 ^ 63 := by
  obtain ⟨seconds, nanos, first, last, short⟩ := t
  unfold firstSecond at first
  unfold lastSecond at last
  have short : nanos < 2000000000 := by
    unfold nanosPerSecond at short
    omega
  unfold micros totalNanos epochNanos nanosPerSecond
  have low : (-9000000000000000000000 : Int).tdiv 1000 ≤ _ :=
    Int.tdiv_le_tdiv (by decide) (b := seconds * 1000000000 + nanos - 946684800 * 1000000000)
      (by omega)
  have high : _ ≤ (9000000000000000000000 : Int).tdiv 1000 :=
    Int.tdiv_le_tdiv (by decide) (a := seconds * 1000000000 + nanos - 946684800 * 1000000000)
      (by omega)
  exact ⟨Int.le_trans (by decide) low, Int.lt_of_le_of_lt high (by decide)⟩

/-- No instant of the calendar is refused. -/
theorem binary_withoutZone (t : Timestamp) (ty : ColumnType) :
    ToSql.binary ty t.withoutZone = .ok (twosComplement 8 t.micros) :=
  if_pos t.micros_range

end Timestamp

/-! ## Appending -/

section

variable {α : Type} [ToSql α] {ty : ColumnType}

theorem put_of_accepts (h : ToSql.accepts α ty = true) (a : α) :
    put ty true a = put ty false a := by
  simp only [put, h, Bool.not_true, Bool.and_false]

theorem run_put {a : α} {bs : List UInt8} (h : ToSql.binary ty a = .ok bs)
    (buffer : List UInt8) : (put ty false a).run.run buffer = (.ok false, buffer ++ bs) := by
  simp only [put, h]
  rfl

theorem run_put_of_not_accepts (h : ToSql.accepts α ty = false) (a : α) (buffer : List UInt8) :
    (put ty true a).run.run buffer = (.error .wrongType, buffer) := by
  simp only [put, h]
  rfl

end

namespace Value

variable {v : Value} {ty : ColumnType} {buffer buffer' : List UInt8} {null : Bool}

/-! ## Elements -/

/-- The value is appended as an element of some type, which goes into the columns that the value
goes into, and the bytes of the element are the given ones. -/
def AppendedAs (v : Value) (ty : ColumnType) (bs : List UInt8) : Prop :=
  ∃ (α : Type) (_ : ToSql α) (a : α), (∀ checked, v.encodeWith checked ty = put ty checked a) ∧
    ToSql.accepts α ty = v.accepts ty ∧ ToSql.binary ty a = .ok bs

theorem exists_narrow16 {i : Int64} (low : -32768 ≤ i.toInt) (high : i.toInt ≤ 32767) :
    ∃ n, narrow16 i = some n ∧ n.toInt = i.toInt :=
  ⟨_, dif_pos ⟨low, high⟩, Int16.toInt_ofIntLE⟩

theorem narrow16_eq_none {i : Int64} (h : i.toInt < -32768 ∨ 32767 < i.toInt) :
    narrow16 i = none := by
  have least : Int16.minValue.toInt = -32768 := rfl
  have greatest : Int16.maxValue.toInt = 32767 := rfl
  exact dif_neg (by omega)

theorem exists_narrow32 {i : Int64} (low : -2147483648 ≤ i.toInt) (high : i.toInt ≤ 2147483647) :
    ∃ n, narrow32 i = some n ∧ n.toInt = i.toInt :=
  ⟨_, dif_pos ⟨low, high⟩, Int32.toInt_ofIntLE⟩

theorem narrow32_eq_none {i : Int64} (h : i.toInt < -2147483648 ∨ 2147483647 < i.toInt) :
    narrow32 i = none := by
  have least : Int32.minValue.toInt = -2147483648 := rfl
  have greatest : Int32.maxValue.toInt = 2147483647 := rfl
  exact dif_neg (by omega)

/-- An integer that the type excludes fails, and its type is not checked before. -/
theorem encodeWith_int_of_excludes {i : Int64} (h : ty.Excludes i) (checked : Bool) :
    (int i).encodeWith checked ty = throw (.param (.outOfRange i.toInt ty.typeName)) := by
  rcases h with ⟨rfl, outside⟩ | ⟨rfl, outside⟩
  · simp only [encodeWith, narrow16_eq_none outside]
    rfl
  · simp only [encodeWith, narrow32_eq_none outside]
    rfl

/-- Every other integer is appended as one of the width of the column. -/
theorem appendedAs_int {i : Int64} (h : ¬ ty.Excludes i) :
    (int i).AppendedAs ty (twosComplement ty.intWidth i.toInt) := by
  unfold ColumnType.Excludes at h
  by_cases two : ty = .int2
  · subst two
    simp only [true_and] at h
    obtain ⟨n, narrow, same⟩ := exists_narrow16 (i := i) (by omega) (by omega)
    refine ⟨Int16, inferInstance, n, fun checked => ?_, rfl, ?_⟩
    · simp only [encodeWith, narrow]
      rfl
    · rw [← same]
      rfl
  by_cases four : ty = .int4
  · subst four
    simp only [true_and] at h
    obtain ⟨n, narrow, same⟩ := exists_narrow32 (i := i) (by omega) (by omega)
    refine ⟨Int32, inferInstance, n, fun checked => ?_, rfl, ?_⟩
    · simp only [encodeWith, narrow]
      rfl
    · rw [← same]
      rfl
  · have eight : ty.intWidth = 8 := by
      cases ty <;> first | rfl | contradiction
    refine ⟨Int64, inferInstance, i, fun checked => ?_, ?_, ?_⟩
    · simp only [encodeWith, two, four, if_false]
    · simp [accepts, two, four, ToSql.accepts]
    · rw [eight]
      rfl

/-- A value that is not null and has bytes in a column is appended as an element of some type. -/
theorem appendedAs {bs : List UInt8} (some : v.isNull = false) (h : v.binary ty = .ok bs) :
    v.AppendedAs ty bs := by
  cases v with
  | null => cases some
  | bool b =>
    cases h
    exact ⟨Bool, inferInstance, b, fun _ => rfl, rfl, rfl⟩
  | int i =>
    by_cases excluded : ty.Excludes i
    · rw [binary_int_of_excludes excluded] at h
      cases h
    · rw [binary_int_of_not_excludes excluded] at h
      cases h
      exact appendedAs_int excluded
  | float x =>
    cases h
    by_cases single : ty = .float4
    · subst single
      exact ⟨Single, inferInstance, ⟨x.toSingle⟩, fun _ => rfl, rfl, rfl⟩
    · refine ⟨Double, inferInstance, x, fun _ => ?_, ?_, ?_⟩
      · simp only [encodeWith, single, if_false]
      · simp [accepts, single, ToSql.accepts]
      · rw [if_neg single]
        rfl
  | text s =>
    cases h
    exact ⟨String, inferInstance, s, fun _ => rfl, rfl, rfl⟩
  | bytes bs =>
    cases h
    exact ⟨List UInt8, inferInstance, bs, fun _ => rfl, rfl, rfl⟩
  | uuid u =>
    cases h
    exact ⟨Uuid, inferInstance, u, fun _ => rfl, rfl, rfl⟩
  | timestamp t =>
    cases h
    by_cases zoneless : ty = .timestamp
    · subst zoneless
      exact ⟨LocalTime, inferInstance, t.withoutZone, fun _ => rfl, rfl, t.binary_withoutZone _⟩
    · refine ⟨Timestamp, inferInstance, t, fun _ => ?_, ?_, t.binary_withoutZone ty⟩
      · simp only [encodeWith, zoneless, if_false]
      · simp [accepts, zoneless, ToSql.accepts]
  | json d =>
    cases h
    exact ⟨Document, inferInstance, d, fun _ => rfl, rfl, rfl⟩

/-! ## Runs -/

theorem run_encode_of_ok {bs : List UInt8} (h : v.binary ty = .ok bs) (buffer : List UInt8) :
    (v.encode ty).run.run buffer = (.ok v.isNull, buffer ++ bs) := by
  cases some : v.isNull with
  | true =>
    have null : v = .null := by
      cases v <;> first | rfl | cases some
    subst null
    cases h
    rw [List.append_nil]
    rfl
  | false =>
    obtain ⟨α, _, a, same, -, bytes⟩ := appendedAs some h
    rw [encode, same]
    exact run_put bytes buffer

theorem run_encode_of_error {p : ParamProblem} (h : v.binary ty = .error p)
    (buffer : List UInt8) : (v.encode ty).run.run buffer = (.error (.param p), buffer) := by
  obtain ⟨i, rfl, excluded, rfl⟩ := binary_eq_error_iff.1 h
  rw [encode, encodeWith_int_of_excludes excluded]
  rfl

/-- An integer that its type excludes is of a kind that goes into the type. -/
theorem accepts_of_excludes {i : Int64} (h : ty.Excludes i) : (int i).accepts ty := by
  rcases h with ⟨rfl, -⟩ | ⟨rfl, -⟩ <;> rfl

theorem encodeChecked_of_accepts (h : v.accepts ty) : v.encodeChecked ty = v.encode ty := by
  unfold encodeChecked encode
  cases hb : v.binary ty with
  | error p =>
    obtain ⟨i, rfl, excluded, rfl⟩ := binary_eq_error_iff.1 hb
    rw [encodeWith_int_of_excludes excluded, encodeWith_int_of_excludes excluded]
  | ok bs =>
    cases some : v.isNull with
    | true =>
      cases v <;> first | rfl | cases some
    | false =>
      obtain ⟨α, _, a, same, accepted, -⟩ := appendedAs some hb
      rw [same, same, put_of_accepts (accepted.trans h)]

theorem run_encodeChecked_of_not_accepts (h : v.accepts ty = false) (buffer : List UInt8) :
    (v.encodeChecked ty).run.run buffer = (.error .wrongType, buffer) := by
  unfold encodeChecked
  cases hb : v.binary ty with
  | error p =>
    obtain ⟨i, rfl, excluded, rfl⟩ := binary_eq_error_iff.1 hb
    rw [accepts_of_excludes excluded] at h
    cases h
  | ok bs =>
    have some : v.isNull = false := by
      cases v <;> first | rfl | cases h
    obtain ⟨α, _, a, same, accepted, -⟩ := appendedAs some hb
    rw [same]
    exact run_put_of_not_accepts (accepted.trans h) a buffer

theorem appends_encode (v : Value) (ty : ColumnType) : (v.encode ty).Appends := by
  cases h : v.binary ty with
  | error p =>
    refine ⟨.error (.param p), [], fun buffer => ?_, fun _ _ => rfl⟩
    rw [List.append_nil, run_encode_of_error h]
  | ok bs => exact ⟨.ok v.isNull, bs, run_encode_of_ok h, fun e he => nomatch he⟩

theorem appends_encodeChecked (v : Value) (ty : ColumnType) : (v.encodeChecked ty).Appends := by
  cases h : v.accepts ty with
  | true =>
    rw [encodeChecked_of_accepts h]
    exact appends_encode v ty
  | false =>
    refine ⟨.error .wrongType, [], fun buffer => ?_, fun _ _ => rfl⟩
    rw [List.append_nil, run_encodeChecked_of_not_accepts h]

/-! ## Success and failure -/

theorem run_encode_eq_ok_iff :
    (v.encode ty).run.run buffer = (.ok null, buffer') ↔
      null = v.isNull ∧ ∃ bs, v.binary ty = .ok bs ∧ buffer' = buffer ++ bs := by
  constructor
  · intro h
    cases hb : v.binary ty with
    | error p =>
      rw [run_encode_of_error hb] at h
      cases h
    | ok bs =>
      rw [run_encode_of_ok hb] at h
      cases h
      exact ⟨rfl, bs, rfl, rfl⟩
  · rintro ⟨rfl, bs, hb, rfl⟩
    exact run_encode_of_ok hb buffer

/-- Only an integer that the type excludes cannot be encoded. -/
theorem run_encode_eq_error_iff {e : EncodeError} :
    (v.encode ty).run.run buffer = (.error e, buffer') ↔
      buffer' = buffer ∧
        ∃ i, v = int i ∧ ty.Excludes i ∧ e = .param (.outOfRange i.toInt ty.typeName) := by
  constructor
  · intro h
    cases hb : v.binary ty with
    | ok bs =>
      rw [run_encode_of_ok hb] at h
      cases h
    | error p =>
      rw [run_encode_of_error hb] at h
      obtain ⟨i, rfl, excluded, rfl⟩ := binary_eq_error_iff.1 hb
      cases h
      exact ⟨rfl, i, rfl, excluded, rfl⟩
  · rintro ⟨rfl, i, rfl, excluded, rfl⟩
    exact run_encode_of_error (binary_int_of_excludes excluded) buffer'

theorem run_encodeChecked_eq_ok_iff :
    (v.encodeChecked ty).run.run buffer = (.ok null, buffer') ↔
      v.accepts ty ∧ (v.encode ty).run.run buffer = (.ok null, buffer') := by
  constructor
  · intro h
    cases accepted : v.accepts ty with
    | true => exact ⟨rfl, encodeChecked_of_accepts accepted ▸ h⟩
    | false =>
      rw [run_encodeChecked_of_not_accepts accepted] at h
      cases h
  · rintro ⟨accepted, h⟩
    rw [encodeChecked_of_accepts accepted]
    exact h

/-- The checked encoder refuses a value of the wrong kind, and fails otherwise only where the other
encoder fails in the same way. -/
theorem run_encodeChecked_eq_error_iff {e : EncodeError} :
    (v.encodeChecked ty).run.run buffer = (.error e, buffer') ↔
      buffer' = buffer ∧ (e = .wrongType ∧ v.accepts ty = false ∨
        ∃ i, v = int i ∧ ty.Excludes i ∧ e = .param (.outOfRange i.toInt ty.typeName) ∧
          (v.encode ty).run.run buffer = (.error e, buffer)) := by
  constructor
  · intro h
    cases accepted : v.accepts ty with
    | false =>
      rw [run_encodeChecked_of_not_accepts accepted] at h
      cases h
      exact ⟨rfl, .inl ⟨rfl, rfl⟩⟩
    | true =>
      rw [encodeChecked_of_accepts accepted] at h
      obtain ⟨rfl, i, hv, excluded, he⟩ := run_encode_eq_error_iff.1 h
      exact ⟨rfl, .inr ⟨i, hv, excluded, he, h⟩⟩
  · rintro ⟨rfl, ⟨rfl, refused⟩ | ⟨i, rfl, excluded, rfl, fails⟩⟩
    · exact run_encodeChecked_of_not_accepts refused buffer'
    · rw [encodeChecked_of_accepts (accepts_of_excludes excluded)]
      exact fails

theorem isNull_of_isKept (h : v.isKept) : v.isNull = false := by
  cases v with
  | null => cases h
  | _ => rfl

/-- What the checked encoder appends is read as the value. -/
theorem exists_ofBinary_of_run (kept : v.isKept)
    (h : (v.encodeChecked ty).run.run buffer = (.ok null, buffer')) :
    null = false ∧ ∃ bs, buffer' = buffer ++ bs ∧ ofBinary ty bs = some v := by
  obtain ⟨accepted, run⟩ := run_encodeChecked_eq_ok_iff.1 h
  obtain ⟨rfl, bs, written, rfl⟩ := run_encode_eq_ok_iff.1 run
  exact ⟨isNull_of_isKept kept, bs, rfl, ofBinary_of_binary kept accepted written⟩

/-- Both encoders append to the buffer and leave it alone when they fail.  The checked one succeeds
only as the other one does, and fails only for a value of the wrong kind, or as the other one does
for an integer that the type excludes.  What it appends for a flag, an integer, a text, some bytes
or an identifier is read as that value, so two such values have two forms. -/
theorem encoding_keeps_values (ty : ColumnType) :
    (∀ v : Value, (v.encode ty).Appends ∧ (v.encodeChecked ty).Appends) ∧
    (∀ (v : Value) (buffer : List UInt8) (null : Bool) (buffer' : List UInt8),
      (v.encodeChecked ty).run.run buffer = (.ok null, buffer') →
        (v.encode ty).run.run buffer = (.ok null, buffer')) ∧
    (∀ (v : Value) (buffer : List UInt8) (e : EncodeError) (buffer' : List UInt8),
      (v.encodeChecked ty).run.run buffer = (.error e, buffer') ↔
        buffer' = buffer ∧ (e = .wrongType ∧ v.accepts ty = false ∨
          ∃ i, v = int i ∧ ty.Excludes i ∧ e = .param (.outOfRange i.toInt ty.typeName) ∧
            (v.encode ty).run.run buffer = (.error e, buffer))) ∧
    (∀ (v : Value) (buffer : List UInt8) (null : Bool) (buffer' : List UInt8), v.isKept →
      (v.encodeChecked ty).run.run buffer = (.ok null, buffer') →
        null = false ∧ ∃ bs, buffer' = buffer ++ bs ∧ ofBinary ty bs = some v) ∧
    ∀ (v w : Value) (buffer : List UInt8) (null null' : Bool) (buffer' : List UInt8), v.isKept →
      w.isKept → (v.encodeChecked ty).run.run buffer = (.ok null, buffer') →
        (w.encodeChecked ty).run.run buffer = (.ok null', buffer') → v = w := by
  refine ⟨fun v => ⟨appends_encode v ty, appends_encodeChecked v ty⟩, ?_, ?_, ?_, ?_⟩
  · intro v buffer null buffer' h
    exact (run_encodeChecked_eq_ok_iff.1 h).2
  · intro v buffer e buffer'
    exact run_encodeChecked_eq_error_iff
  · intro v buffer null buffer' kept h
    exact exists_ofBinary_of_run kept h
  · intro v w buffer null null' buffer' keptV keptW hv hw
    obtain ⟨-, bs, rfl, readV⟩ := exists_ofBinary_of_run keptV hv
    obtain ⟨-, bs', same, readW⟩ := exists_ofBinary_of_run keptW hw
    obtain rfl := List.append_cancel_left same
    exact Option.some.inj (readV.symm.trans readW)

/-- The least integer of two bytes and the one below it, after another byte. -/
theorem encoding_keeps_values_leastInt2 :
    (((int (-32768)).encodeChecked .int2).run.run [7] = (.ok false, [7, 128, 0]) ∧
      ofBinary .int2 [128, 0] = some (int (-32768))) ∧
    ((int (-32769)).encodeChecked .int2).run.run [7] =
      (.error (.param (.outOfRange (-32769) "int2")), [7]) ∧
    (int (-32768)).isKept ∧ ∀ w : Value, w.isKept →
      (w.encodeChecked .int2).run.run [7] = (.ok false, [7, 128, 0]) → w = int (-32768) := by
  have run : ((int (-32768)).encodeChecked .int2).run.run [7] = (.ok false, [7, 128, 0]) := rfl
  have excluded : ColumnType.Excludes .int2 (-32769) := .inl ⟨rfl, .inl (by decide)⟩
  obtain ⟨-, -, fails, reads, apart⟩ := encoding_keeps_values .int2
  obtain ⟨-, bs, written, read⟩ := reads _ _ _ _ rfl run
  have appended : [7] ++ [128, 0] = [7] ++ bs := written
  obtain rfl := List.append_cancel_left appended
  refine ⟨⟨run, read⟩, ?_, rfl, fun w kept hw => apart _ _ _ _ _ _ kept rfl hw run⟩
  exact (fails _ _ _ _).2 ⟨rfl, .inr ⟨_, rfl, excluded, rfl,
    run_encode_of_error (binary_int_of_excludes excluded) _⟩⟩

end Value

end SqlBuilder
