import Mathlib.Algebra.Group.Nat.Defs
import SqlBuilder.Postgres.BinaryForm

/-!
# Reading the binary form

What a server makes of the bytes of a bind value: numbers have their high byte first and negative
ones are in two's complement, a flag is one byte, a text is its UTF-8 form, which comes after a
version byte where the type is a label tree, and an identifier is sixteen bytes.  `Value.ofBinary`
reads the types whose form keeps all of a value.  Main statement: `Value.ofBinary_of_binary`, what
is written for a type that the value goes into is read as the value.
-/

namespace SqlBuilder

/-! ## Numbers -/

/-- The number that some bytes spell, the high one first. -/
def ofBigEndian (bs : List UInt8) : Nat :=
  bs.foldl (fun n b => 256 * n + b.toNat) 0

/-- The integer that some bytes spell in two's complement. -/
def ofTwosComplement (bs : List UInt8) : Int :=
  (ofBigEndian bs : Int).bmod (256 ^ bs.length)

theorem twoTo_mul_eight (width : Nat) : twoTo (8 * width) = 256 ^ width := by
  change 2 ^ (8 * width) = 256 ^ width
  rw [Nat.pow_mul]

theorem length_bigEndian (width n : Nat) : (bigEndian width n).length = width := by
  induction width generalizing n with
  | zero => rfl
  | succ width ih => simp [bigEndian, ih]

theorem ofBigEndian_concat (bs : List UInt8) (b : UInt8) :
    ofBigEndian (bs ++ [b]) = 256 * ofBigEndian bs + b.toNat := by
  simp [ofBigEndian]

theorem ofBigEndian_bigEndian (width n : Nat) :
    ofBigEndian (bigEndian width n) = n % 256 ^ width := by
  induction width generalizing n with
  | zero => simp [bigEndian, ofBigEndian, Nat.mod_one]
  | succ width ih =>
    have low : (UInt8.ofNat n).toNat = n % 256 := by simp
    rw [bigEndian, ofBigEndian_concat, ih, low, Nat.pow_succ, Nat.mul_comm (256 ^ width),
      Nat.mod_mul, Nat.add_comm]

theorem length_twosComplement (width : Nat) (i : Int) : (twosComplement width i).length = width :=
  length_bigEndian width _

/-- Two's complement keeps the integers from minus half the number of words to below half of it. -/
theorem ofTwosComplement_twosComplement {width : Nat} {i : Int} (pos : 0 < width)
    (low : -(twoTo (8 * width - 1) : Int) ≤ i) (high : i < twoTo (8 * width - 1)) :
    ofTwosComplement (twosComplement width i) = i := by
  have whole : (256 ^ width : Nat) = 2 * twoTo (8 * width - 1) := by
    change 256 ^ width = 2 * 2 ^ (8 * width - 1)
    rw [← twoTo_mul_eight, ← Nat.pow_succ', Nat.succ_eq_add_one, Nat.sub_add_cancel (by omega)]
    rfl
  have half : 0 < twoTo (8 * width - 1) := Nat.pow_pos (by decide)
  have word : (ofBigEndian (twosComplement width i) : Int) = i % (256 ^ width : Nat) := by
    have nonneg : 0 ≤ i % (256 ^ width : Nat) := Int.emod_nonneg _ (by omega)
    have less : i % (256 ^ width : Nat) < (256 ^ width : Nat) := Int.emod_lt_of_pos _ (by omega)
    rw [twosComplement, twoTo_mul_eight, ofBigEndian_bigEndian, Nat.mod_eq_of_lt (by omega)]
    omega
  rw [ofTwosComplement, length_twosComplement, word, Int.emod_bmod]
  exact Int.bmod_eq_of_le (by omega) (by omega)

/-! ## Texts -/

/-- The text of which some bytes are the UTF-8 form. -/
def ofUtf8 (bs : List UInt8) : Option String :=
  String.fromUTF8? ⟨bs.toArray⟩

theorem ofUtf8_utf8Bytes (s : String) : ofUtf8 (utf8Bytes s) = some s :=
  dif_pos s.isValidUTF8

/-! ## Values -/

namespace ColumnType

/-- The number of bytes of an integer in a column of the type. -/
def intWidth : ColumnType → Nat
  | int2 => 2
  | int4 => 4
  | _ => 8

/-- The type is one of the narrow integer types, and the integer is too large or too small for
it. -/
def Excludes (ty : ColumnType) (i : Int64) : Prop :=
  ty = int2 ∧ (i.toInt < -32768 ∨ 32767 < i.toInt) ∨
    ty = int4 ∧ (i.toInt < -2147483648 ∨ 2147483647 < i.toInt)

instance (ty : ColumnType) (i : Int64) : Decidable (ty.Excludes i) :=
  inferInstanceAs (Decidable (_ ∨ _))

end ColumnType

namespace Value

/-- Whether a value goes into a column of a type; null goes into every one. -/
def accepts : Value → ColumnType → Bool
  | null, _ => true
  | bool _, ty => ty = .bool
  | int _, ty => ty = .int2 || ty = .int4 || ty = .int8
  | float _, ty => ty = .float4 || ty = .float8
  | text _, ty => ty.isTextual
  | bytes _, ty => ty = .bytea
  | uuid _, ty => ty = .uuid
  | timestamp _, ty => ty = .timestamp || ty = .timestamptz
  | json _, ty => ty = .json || ty = .jsonb

/-- The bytes of a value in a column of a type, which may be unable to hold an integer; null has
none. -/
def binary (ty : ColumnType) : Value → Except ParamProblem (List UInt8)
  | null => .ok []
  | bool b => .ok [if b then 1 else 0]
  | int i =>
    if ty.Excludes i then .error (.outOfRange i.toInt ty.typeName)
    else .ok (twosComplement ty.intWidth i.toInt)
  | float x =>
    .ok (if ty = .float4 then bigEndian 4 x.toSingle.toNat else bigEndian 8 x.bits.toNat)
  | text s => .ok (if ty.isLabelTree then 1 :: utf8Bytes s else utf8Bytes s)
  | bytes bs => .ok bs
  | uuid u => .ok u.bytes
  | timestamp t => .ok (twosComplement 8 t.micros)
  | json d =>
    let text := utf8Bytes d.json.compact
    .ok (if ty = .jsonb then 1 :: text else text)

/-- Whether the value is of a kind whose binary form keeps all of it. -/
def isKept : Value → Bool
  | bool _ | int _ | text _ | bytes _ | uuid _ => true
  | _ => false

/-- The value that the bytes of a column stand for, for the types whose form keeps all of a
value. -/
def ofBinary (ty : ColumnType) (bs : List UInt8) : Option Value :=
  match ty with
  | .bool =>
    match bs with
    | [b] => some (bool (b != 0))
    | _ => none
  | .int2 | .int4 | .int8 =>
    if bs.length = ty.intWidth then some (int (Int64.ofInt (ofTwosComplement bs))) else none
  | .ltree | .lquery | .ltxtquery =>
    match bs with
    | 1 :: bs => (ofUtf8 bs).map text
    | _ => none
  | .text | .varchar | .bpchar | .name | .unknown | .citext => (ofUtf8 bs).map text
  | .bytea => some (bytes bs)
  | .uuid => (Uuid.ofBytes bs).map uuid
  | _ => none

end Value

/-! ## What is written is read -/

theorem ColumnType.not_excludes_iff (ty : ColumnType) (i : Int64) :
    ¬ ty.Excludes i ↔ -(twoTo (8 * ty.intWidth - 1) : Int) ≤ i.toInt ∧
      i.toInt < twoTo (8 * ty.intWidth - 1) := by
  have low := i.le_toInt
  have high := i.toInt_lt
  have two : twoTo (8 * 2 - 1) = 32768 := rfl
  have four : twoTo (8 * 4 - 1) = 2147483648 := rfl
  have eight : twoTo (8 * 8 - 1) = 9223372036854775808 := rfl
  cases ty <;> simp [Excludes, intWidth, two, four, eight] <;> omega

namespace Value

theorem binary_int_of_excludes {ty : ColumnType} {i : Int64} (h : ty.Excludes i) :
    (int i).binary ty = .error (.outOfRange i.toInt ty.typeName) :=
  if_pos h

theorem binary_int_of_not_excludes {ty : ColumnType} {i : Int64} (h : ¬ ty.Excludes i) :
    (int i).binary ty = .ok (twosComplement ty.intWidth i.toInt) :=
  if_neg h

/-- Only an integer that the type excludes has no binary form. -/
theorem binary_eq_error_iff {v : Value} {ty : ColumnType} {p : ParamProblem} :
    v.binary ty = .error p ↔
      ∃ i, v = int i ∧ ty.Excludes i ∧ p = .outOfRange i.toInt ty.typeName := by
  constructor
  · intro h
    cases v with
    | int i =>
      by_cases excluded : ty.Excludes i
      · rw [binary_int_of_excludes excluded] at h
        cases h
        exact ⟨i, rfl, excluded, rfl⟩
      · rw [binary_int_of_not_excludes excluded] at h
        cases h
    | _ => cases h
  · rintro ⟨i, rfl, excluded, rfl⟩
    exact binary_int_of_excludes excluded

theorem ofBinary_int {ty : ColumnType} {i : Int64} (accepted : (int i).accepts ty)
    (h : ¬ ty.Excludes i) : ofBinary ty (twosComplement ty.intWidth i.toInt) = some (int i) := by
  obtain ⟨low, high⟩ := (ty.not_excludes_iff i).1 h
  have pos : 0 < ty.intWidth := by cases ty <;> simp [ColumnType.intWidth]
  have back := ofTwosComplement_twosComplement pos low high
  have integer : ofBinary ty (twosComplement ty.intWidth i.toInt) =
      some (int (Int64.ofInt (ofTwosComplement (twosComplement ty.intWidth i.toInt)))) := by
    cases ty with
    | int2 | int4 | int8 => simp [ofBinary, length_twosComplement]
    | _ => cases accepted
  rw [integer, back, Int64.ofInt_toInt]

theorem ofBinary_text {ty : ColumnType} {s : String} (accepted : (text s).accepts ty) :
    ofBinary ty (if ty.isLabelTree then 1 :: utf8Bytes s else utf8Bytes s) = some (text s) := by
  have read : (ofUtf8 (utf8Bytes s)).map text = some (text s) := by
    rw [ofUtf8_utf8Bytes, Option.map_some]
  cases ty with
  | text | varchar | bpchar | name | unknown | citext | ltree | lquery | ltxtquery => exact read
  | _ => cases accepted

/-- What is written for a type that the value goes into is read as the value. -/
theorem ofBinary_of_binary {v : Value} {ty : ColumnType} {bs : List UInt8} (kept : v.isKept)
    (accepted : v.accepts ty) (h : v.binary ty = .ok bs) : ofBinary ty bs = some v := by
  cases v with
  | bool b =>
    obtain rfl : ty = .bool := by simpa [accepts] using accepted
    cases h
    cases b <;> rfl
  | int i =>
    have fits : ¬ ty.Excludes i := by
      intro excluded
      rw [binary_int_of_excludes excluded] at h
      cases h
    rw [binary_int_of_not_excludes fits] at h
    cases h
    exact ofBinary_int accepted fits
  | text s =>
    cases h
    exact ofBinary_text accepted
  | bytes bs' =>
    obtain rfl : ty = .bytea := by simpa [accepts] using accepted
    cases h
    rfl
  | uuid u =>
    obtain rfl : ty = .uuid := by simpa [accepts] using accepted
    cases h
    simp [ofBinary, Uuid.ofBytes, u.length_eq]
  | null | float _ | timestamp _ | json _ => cases kept

end Value

end SqlBuilder
