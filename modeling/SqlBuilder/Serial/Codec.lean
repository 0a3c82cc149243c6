import SqlBuilder.Json.Compact
import SqlBuilder.Json.Scan

/-!
# Serial forms

A `Codec` writes the values of a type as JSON and reads them back from the outline of a text.  A
`Layout` lists the fields of a record in order, and `Layout.record` is the codec of the record: it
is written as an object with every field, and read from an object in any order, in which unknown
members are passed over, or from an array of all fields.  `choice` is the form of a type with named
cases.

A reader is given the number of arrays and objects that may still be opened, one inside the other.
-/

namespace SqlBuilder

/-- A way to read a value, given the depth that is left. -/
abbrev Reader (α : Type) := Nat → Outline → Except Fault α

/-- How the values of a type are written and read. -/
structure Codec (α : Type) where
  encode : α → Json
  decode : Reader α

/-- The deepest nesting of arrays and objects that is read. -/
def maxDepth : Nat := 127

namespace Codec

variable {α β : Type}

/-- The compact text of a value. -/
def write (c : Codec α) (a : α) : String :=
  (c.encode a).compact

/-- Reads a text that holds one value and nothing else but blanks. -/
def read (c : Codec α) (text : String) : Except Fault α := do
  let (o, rest) := Json.scan text.toList
  let a ← c.decode maxDepth o
  match rest with
  | some rest => if (Json.afterBlanks rest).isEmpty then return a else throw .malformed
  | none => throw .malformed

/-- Opens an array or object where one may still be opened. -/
def nested (depth : Nat) (inner : Nat → Except Fault α) : Except Fault α :=
  match depth with
  | 0 => .error .malformed
  | d + 1 => inner d

/-! ## Scalars -/

/-- Any value of the data format, with depth limited and as it is written. -/
def raw : Codec Json where
  encode := id
  decode d o := o.json d

/-- The null, which carries nothing. -/
def nothing : Codec Unit where
  encode _ := .null
  decode _
    | .null => .ok ()
    | o => .error o.unexpected

/-- A string, in which no half of a surrogate pair may stand. -/
def string : Codec String where
  encode := .string
  decode _
    | .string (some s) => .ok s
    | o => .error o.unexpected

/-- A truth value. -/
def bool : Codec Bool where
  encode := .bool
  decode _
    | .bool b => .ok b
    | o => .error o.unexpected

/-- Reads a number that some type can hold. -/
def readNumber (f : Json.Number → Option α) : Reader α := fun _ o =>
  match o with
  | .number (some n) =>
    match f n with
    | some a => .ok a
    | none => .error .mismatch
  | o => .error o.unexpected

/-- An integer between two bounds. -/
def intWithin (low high : Int) (n : Json.Number) : Option Int :=
  n.int?.filter fun i => low ≤ i && i ≤ high

/-- A number that is an integer of 64 bits with sign. -/
def int64 : Codec Int64 where
  encode i := .number (.ofInt64 i)
  decode := readNumber fun n => (intWithin (-twoTo 63) (twoTo 63 - 1) n).map Int64.ofInt

/-- A number that is an integer of 64 bits without sign. -/
def uint64 : Codec UInt64 where
  encode n := .number (.ofUInt64 n)
  decode := readNumber fun n => (intWithin 0 (twoTo 64 - 1) n).map fun i => UInt64.ofNat i.toNat

/-- A number that is an integer from 0 to 255. -/
def byte : Codec UInt8 where
  encode b := .number (.ofByte b)
  decode := readNumber fun n => (intWithin 0 255 n).map fun i => UInt8.ofNat i.toNat

/-- A double; one that is not finite is written as null, and any number is read. -/
def double : Codec Double where
  encode x := if h : x.isFinite = true then .number (.double x h) else .null
  decode := readNumber fun n => some n.toDouble

/-- A string with a meaning. -/
def parsed (write : α → List Char) (read : String → Option α) : Codec α where
  encode a := .string (String.ofList (write a))
  decode _
    | .string (some s) =>
      match read s with
      | some a => .ok a
      | none => .error .mismatch
    | o => .error o.unexpected

/-! ## Compounds -/

/-- A value that may be absent, which is written as null. -/
def option (c : Codec α) : Codec (Option α) where
  encode
    | some a => c.encode a
    | none => .null
  decode d
    | .null => .ok none
    | .broken r _ _ => .error r
    | o => some <$> c.decode d o

/-- A list, written as an array. -/
def list (c : Codec α) : Codec (List α) where
  encode as := .array (as.map c.encode)
  decode d
    | .array items ending => nested d fun d => do
      let as ← items.mapM (c.decode d)
      ending.finish
      return as
    | o => .error o.unexpected

/-- The form of a type that stands for another. -/
def iso (toForm : β → α) (ofForm : α → β) (c : Codec α) : Codec β where
  encode b := c.encode (toForm b)
  decode d o := ofForm <$> c.decode d o

/-! ## Named cases -/

/-- Reads a case by name: a plain one from a string, or from an object whose one member is null,
and one that carries something from an object with one member. -/
def readCase (plain : List (String × α)) (carrying : List (String × Reader α)) : Reader α :=
  fun depth o =>
    match o with
    | .string (some s) =>
      match plain.lookup s with
      | some a => .ok a
      | none => .error .mismatch
    | .string none => .error .malformed
    | .broken _ _ c => .error c
    | .object members ending => nested depth fun d =>
      match members, ending with
      | [], .keyless r _ => .error r
      | [], _ => .error .malformed
      | (k, o) :: more, ending => do
        let k ← Outline.wholeString k
        let a ← match carrying.lookup k, plain.lookup k with
          | some r, _ => r d o
          | none, some a => (fun _ => a) <$> nothing.decode d o
          | none, none => .error .mismatch
        if more.isEmpty then ending.close else .error .malformed
        return a
    | _ => .error .malformed

/-- The plain case of a name. -/
def plainCase (name : α → String) (cases : List α) : Codec α where
  encode a := .string (name a)
  decode := readCase (cases.map fun a => (name a, a)) []

/-- A case that carries something, as an object with one member. -/
def carry (name : String) (c : Codec β) (b : β) : Json :=
  .object [(name, c.encode b)]

/-- Reads what a case carries. -/
def carried (name : String) (c : Codec β) (f : β → α) : String × Reader α :=
  (name, fun d o => f <$> c.decode d o)

end Codec

/-! ## Records -/

/-- The fields of a record in order: for each its name, its form, and what it is taken to be where
it is missing, if it may be missing.  The indices are the types of the fields read so far, any of
which may still be missing, and of all fields. -/
inductive Layout : Type → Type → Type 1 where
  | nil : Layout Unit Unit
  | cons {α σ γ : Type} (name : String) (codec : Codec α) (absent : Option α)
    (rest : Layout σ γ) : Layout (Option α × σ) (α × γ)

namespace Layout

/-- A field that must be there. -/
def required {α σ γ : Type} (name : String) (c : Codec α) (rest : Layout σ γ) :
    Layout (Option α × σ) (α × γ) :=
  cons name c none rest

/-- A field that may be missing. -/
def optional {α σ γ : Type} (name : String) (c : Codec α) (rest : Layout σ γ) :
    Layout (Option (Option α) × σ) (Option α × γ) :=
  cons name c.option (some none) rest

/-- The members that the fields are written as. -/
def members : {σ γ : Type} → Layout σ γ → γ → List (String × Json)
  | _, _, nil, () => []
  | _, _, cons name c _ rest, (a, b) => (name, c.encode a) :: rest.members b

/-- No field has been read. -/
def vacant : {σ γ : Type} → Layout σ γ → σ
  | _, _, nil => ()
  | _, _, cons _ _ _ rest => (none, rest.vacant)

/-- Reads a field by its name, if it is one; a field that has been read before is a mismatch. -/
def store : {σ γ : Type} → Layout σ γ → Nat → String → Outline → σ → Option (Except Fault σ)
  | _, _, nil, _, _, _, _ => none
  | _, _, cons name c _ rest, d, k, o, (slot, slots) =>
    if k = name then
      if slot.isSome then some (.error .mismatch)
      else some ((fun a => (some a, slots)) <$> c.decode d o)
    else (rest.store d k o slots).map fun r => (fun slots => (slot, slots)) <$> r

/-- Reads the fields among some members, in the order of the members. -/
def readMembers {σ γ : Type} (l : Layout σ γ) (d : Nat) :
    List (Option String × Outline) → σ → Except Fault σ
  | [], slots => .ok slots
  | (k, o) :: more, slots => do
    let k ← Outline.wholeString k
    match l.store d k o slots with
    | some r =>
      let slots ← r
      l.readMembers d more slots
    | none =>
      o.skip
      l.readMembers d more slots

/-- The record of the fields that have been read. -/
def complete : {σ γ : Type} → Layout σ γ → σ → Except Fault γ
  | _, _, nil, () => .ok ()
  | _, _, cons _ _ absent rest, (slot, slots) =>
    match slot.or absent with
    | some a => (fun b => (a, b)) <$> rest.complete slots
    | none => .error .mismatch

/-- Reads the fields from the items of an array. -/
def readItems : {σ γ : Type} → Layout σ γ → Nat → List Outline → Ending → Except Fault γ
  | _, _, nil, _, [], ending => ending.close
  | _, _, nil, _, _ :: _, _ => .error .malformed
  | _, _, cons .., _, [], ending => do
    ending.finish
    throw .mismatch
  | _, _, cons _ c _ rest, d, o :: more, ending => do
    let a ← c.decode d o
    let b ← rest.readItems d more ending
    return (a, b)

/-- The form of a record. -/
def record {σ γ α : Type} (l : Layout σ γ) (toFields : α → γ) (ofFields : γ → α) : Codec α where
  encode a := .object (l.members (toFields a))
  decode depth
    | .object members ending => Codec.nested depth fun d => do
      let slots ← l.readMembers d members l.vacant
      ending.finish
      ofFields <$> l.complete slots
    | .array items ending => Codec.nested depth fun d =>
      ofFields <$> l.readItems d items ending
    | o => .error o.unexpected

end Layout

end SqlBuilder
