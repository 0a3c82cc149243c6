import SqlBuilder.Json.Document
import SqlBuilder.Time.Timestamp
import SqlBuilder.Uuid

/-!
# Bind values

A `Value` is what a placeholder stands for.  `ToValue` collects the conversions from other types;
all integers of at most 64 bits with sign become `Value.int`, and an absent value becomes null.
-/

namespace SqlBuilder

/-- A value that is bound to a placeholder. -/
inductive Value where
  | null
  | bool (b : Bool)
  | int (i : Int64)
  | float (x : Double)
  | text (s : String)
  | bytes (bs : List UInt8)
  | uuid (u : Uuid)
  | timestamp (t : Timestamp)
  | json (d : Document)

namespace Value

/-- Whether the value is the SQL null. -/
def isNull : Value → Bool
  | null => true
  | _ => false

/-- Equality of values; doubles are compared as numbers, at every depth. -/
def same : Value → Value → Bool
  | null, null => true
  | bool a, bool b => a == b
  | int a, int b => a == b
  | float a, float b => a.ieeeEq b
  | text a, text b => a == b
  | bytes a, bytes b => a == b
  | uuid a, uuid b => a == b
  | timestamp a, timestamp b => a == b
  | json a, json b => a.same b
  | _, _ => false

end Value

/-- The types whose elements can be bound to a placeholder. -/
class ToValue (α : Type) where
  toValue : α → Value

export ToValue (toValue)

instance : ToValue Value := ⟨id⟩
instance : ToValue Bool := ⟨.bool⟩
instance : ToValue Int8 := ⟨fun i => .int i.toInt64⟩
instance : ToValue Int16 := ⟨fun i => .int i.toInt64⟩
instance : ToValue Int32 := ⟨fun i => .int i.toInt64⟩
instance : ToValue Int64 := ⟨.int⟩
instance : ToValue UInt8 := ⟨fun n => .int (Int64.ofNat n.toNat)⟩
instance : ToValue UInt16 := ⟨fun n => .int (Int64.ofNat n.toNat)⟩
instance : ToValue UInt32 := ⟨fun n => .int (Int64.ofNat n.toNat)⟩
instance : ToValue Double := ⟨.float⟩
instance : ToValue String := ⟨.text⟩
instance : ToValue (List UInt8) := ⟨.bytes⟩
instance : ToValue Uuid := ⟨.uuid⟩
instance : ToValue Timestamp := ⟨.timestamp⟩
instance : ToValue Document := ⟨.json⟩

instance {α : Type} [ToValue α] : ToValue (Option α) :=
  ⟨fun x => x.elim .null toValue⟩

end SqlBuilder
