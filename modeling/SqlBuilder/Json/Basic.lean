import SqlBuilder.Number.Double

/-!
# Values of the JSON data format

A `Json` value keeps the members of its objects in the order in which they stand and may repeat a
key.  A number is an integer of the range that 64 bits can hold with or without a sign, or a finite
double; the two kinds stay apart.
-/

namespace SqlBuilder

/-- A number: integers and fractions are told apart. -/
inductive Json.Number where
  | integer (value : Int) (low : -9223372036854775808 ≤ value)
    (high : value < 18446744073709551616)
  | double (value : Double) (finite : value.isFinite = true)
  deriving DecidableEq

/-- A value of the format. -/
inductive Json where
  | null
  | bool (value : Bool)
  | number (value : Json.Number)
  | string (value : String)
  | array (items : List Json)
  | object (members : List (String × Json))

namespace Json

namespace Number

/-- An integer of 64 bits with sign. -/
def ofInt64 (i : Int64) : Number :=
  .integer i.toInt i.le_toInt (by have := i.toInt_lt; omega)

/-- An integer of 64 bits without sign. -/
def ofUInt64 (n : UInt64) : Number :=
  .integer n.toNat (by omega) (by have := n.toNat_lt; omega)

/-- A byte. -/
def ofByte (b : UInt8) : Number :=
  .integer b.toNat (by omega) (by have := b.toNat_lt; omega)

/-- The integer of a number that has no fraction. -/
def int? : Number → Option Int
  | .integer i _ _ => some i
  | .double .. => none

/-- The double nearest to a number. -/
def toDouble : Number → Double
  | .integer i _ _ => Double.ofInt i
  | .double d _ => d

/-- Equality of numbers of one kind; the two zeros among the doubles are equal. -/
def same : Number → Number → Bool
  | .integer i _ _, .integer j _ _ => i == j
  | .double d _, .double e _ => d.ieeeEq e
  | _, _ => false

end Number

mutual

/-- Equality of values, member by member in the order of writing. -/
def same : Json → Json → Bool
  | .null, .null => true
  | .bool a, .bool b => a == b
  | .number a, .number b => a.same b
  | .string a, .string b => a == b
  | .array a, .array b => sameItems a b
  | .object a, .object b => sameMembers a b
  | _, _ => false

/-- Equality of the items of two arrays, one by one. -/
def sameItems : List Json → List Json → Bool
  | [], [] => true
  | a :: as, b :: bs => same a b && sameItems as bs
  | _, _ => false

/-- Equality of the members of two objects, keys included, in the order of writing. -/
def sameMembers : List (String × Json) → List (String × Json) → Bool
  | [], [] => true
  | (k, a) :: as, (l, b) :: bs => k == l && same a b && sameMembers as bs
  | _, _ => false

end

end Json

end SqlBuilder
