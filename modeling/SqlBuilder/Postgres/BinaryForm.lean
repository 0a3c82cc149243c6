import SqlBuilder.Postgres.ColumnType
import SqlBuilder.Error
import SqlBuilder.Json.Compact
import SqlBuilder.Value

/-!
# The binary form of bind values

`Value.encode` appends the binary form that a column of a given type expects to a buffer.  What a
value carries is appended by the rules of its own type (`ToSql`), once it has the precision of the
column: an integer takes the width of the column and must fit it, a number is rounded for a column
of single precision, and an instant loses its zone for a column without one.  A checked encoding
also refuses what does not go into the column.  An encoding that fails leaves the buffer as it was.
-/

namespace SqlBuilder

/-- Why a value has no binary form for a type. -/
inductive EncodeError where
  /-- Values of this kind do not go into columns of this type. -/
  | wrongType
  /-- The count of microseconds of an instant is too large for eight bytes. -/
  | tooLarge
  | param (problem : ParamProblem)
  deriving DecidableEq, Repr

/-- Encoding appends to a buffer, which is kept when it fails. -/
abbrev Encoder := ExceptT EncodeError (StateM (List UInt8))

/-- The last `width` bytes of a number, the high one first. -/
def bigEndian : Nat → Nat → List UInt8
  | 0, _ => []
  | width + 1, n => bigEndian width (n / 256) ++ [UInt8.ofNat n]

/-- An integer in two's complement. -/
def twosComplement (width : Nat) (i : Int) : List UInt8 :=
  bigEndian width (i % twoTo (8 * width)).toNat

/-- The UTF-8 bytes of a text. -/
def utf8Bytes (s : String) : List UInt8 :=
  s.toUTF8.data.toList

/-! ## Narrower types -/

/-- The integer as one of sixteen bits, if it is one. -/
def narrow16 (i : Int64) : Option Int16 :=
  if h : Int16.minValue.toInt ≤ i.toInt ∧ i.toInt ≤ Int16.maxValue.toInt then
    some (.ofIntLE i.toInt h.1 h.2)
  else none

/-- The integer as one of thirty-two bits, if it is one. -/
def narrow32 (i : Int64) : Option Int32 :=
  if h : Int32.minValue.toInt ≤ i.toInt ∧ i.toInt ≤ Int32.maxValue.toInt then
    some (.ofIntLE i.toInt h.1 h.2)
  else none

/-- A number of single precision, by its word. -/
structure Single where
  word : UInt32

/-- A date and a time of day, without a zone: those of an instant in universal time. -/
structure LocalTime where
  utc : Timestamp

namespace Timestamp

/-- The nanoseconds from 1970-01-01 to 2000-01-01. -/
def epochNanos : Int := 946684800 * nanosPerSecond

/-- The microseconds from 2000-01-01T00:00:00Z, cut off towards that instant. -/
def micros (t : Timestamp) : Int :=
  (t.totalNanos - epochNanos).tdiv 1000

/-- The date and the time of day of an instant in universal time. -/
def withoutZone (t : Timestamp) : LocalTime :=
  ⟨t⟩

end Timestamp

/-! ## Types with a binary form -/

/-- The types whose elements have a binary form. -/
class ToSql (α : Type) where
  /-- Whether the elements go into columns of a type. -/
  accepts : ColumnType → Bool
  /-- The bytes of an element in a column of a type. -/
  binary : ColumnType → α → Except EncodeError (List UInt8)

namespace ToSql

instance : ToSql Bool where
  accepts ty := ty = .bool
  binary _ b := .ok [if b then 1 else 0]

instance : ToSql Int16 where
  accepts ty := ty = .int2
  binary _ i := .ok (twosComplement 2 i.toInt)

instance : ToSql Int32 where
  accepts ty := ty = .int4
  binary _ i := .ok (twosComplement 4 i.toInt)

instance : ToSql Int64 where
  accepts ty := ty = .int8
  binary _ i := .ok (twosComplement 8 i.toInt)

instance : ToSql Single where
  accepts ty := ty = .float4
  binary _ x := .ok (bigEndian 4 x.word.toNat)

instance : ToSql Double where
  accepts ty := ty = .float8
  binary _ x := .ok (bigEndian 8 x.bits.toNat)

instance : ToSql String where
  accepts := ColumnType.isTextual
  binary ty s := .ok (if ty.isLabelTree then 1 :: utf8Bytes s else utf8Bytes s)

instance : ToSql (List UInt8) where
  accepts ty := ty = .bytea
  binary _ bs := .ok bs

instance : ToSql Uuid where
  accepts ty := ty = .uuid
  binary _ u := .ok u.bytes

instance : ToSql LocalTime where
  accepts ty := ty = .timestamp
  binary _ t :=
    if -(twoTo 63 : Int) ≤ t.utc.micros ∧ t.utc.micros < twoTo 63 then
      .ok (twosComplement 8 t.utc.micros)
    else .error .tooLarge

instance : ToSql Timestamp where
  accepts ty := ty = .timestamptz
  binary ty t := binary ty t.withoutZone

instance : ToSql Document where
  accepts ty := ty = .json || ty = .jsonb
  binary ty d :=
    let text := utf8Bytes d.json.compact
    .ok (if ty = .jsonb then 1 :: text else text)

end ToSql

/-- Appends the bytes of an element, whose type must go into the column if that is checked; it is
not null. -/
def put {α : Type} [ToSql α] (ty : ColumnType) (checked : Bool) (a : α) : Encoder Bool := do
  if checked && !ToSql.accepts α ty then throw .wrongType
  match ToSql.binary ty a with
  | .ok bs =>
    modify (· ++ bs)
    return false
  | .error e => throw e

/-! ## Values -/

/-- What an integer is in the narrower type of a column, which must be able to hold it. -/
def narrowed {α : Type} (ty : ColumnType) (i : Int64) : Option α → Encoder α
  | some a => return a
  | none => throw (.param (.outOfRange i.toInt ty.typeName))

namespace Value

/-- Appends the binary form of a value through the type that it carries; tells whether the value is
null. -/
def encodeWith (checked : Bool) (ty : ColumnType) : Value → Encoder Bool
  | null => return true
  | bool b => put ty checked b
  | int i =>
    if ty = .int2 then do
      let n ← narrowed ty i (narrow16 i)
      put ty checked n
    else if ty = .int4 then do
      let n ← narrowed ty i (narrow32 i)
      put ty checked n
    else put ty checked i
  | float x => if ty = .float4 then put ty checked (Single.mk x.toSingle) else put ty checked x
  | text s => put ty checked s
  | bytes bs => put ty checked bs
  | uuid u => put ty checked u
  | timestamp t => if ty = .timestamp then put ty checked t.withoutZone else put ty checked t
  | json d => put ty checked d

/-- Appends the binary form of a value. -/
def encode (v : Value) (ty : ColumnType) : Encoder Bool :=
  v.encodeWith false ty

/-- Appends the binary form of a value that goes into the column. -/
def encodeChecked (v : Value) (ty : ColumnType) : Encoder Bool :=
  v.encodeWith true ty

end Value

end SqlBuilder
