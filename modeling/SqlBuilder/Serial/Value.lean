import SqlBuilder.Serial.Codec
import SqlBuilder.Time.Written
import SqlBuilder.Value

/-!
# The serial form of bind values

A value is an object of its kind (`type`) and its content (`value`), in either order, or an array of
the two.  Null has no content.  Content that stands before the kind is read as whatever it is, and
understood when the kind is known.
-/

namespace SqlBuilder

/-- The kinds of bind values. -/
inductive Value.Kind where
  | null
  | bool
  | int
  | float
  | text
  | bytes
  | uuid
  | timestamp
  | json
  deriving DecidableEq, Repr

namespace Value

namespace Kind

/-- The written name. -/
def name : Kind → String
  | null => "null"
  | bool => "bool"
  | int => "int"
  | float => "float"
  | text => "text"
  | bytes => "bytes"
  | uuid => "uuid"
  | timestamp => "timestamp"
  | json => "json"

/-- The kinds, in the order of their declaration. -/
def all : List Kind :=
  [null, bool, int, float, text, bytes, uuid, timestamp, json]

/-- Reads a kind as the case of a type. -/
def decode : Reader Kind :=
  (Codec.plainCase name all).decode

/-- Reads a kind as a string only. -/
def decodePlain : Reader Kind :=
  (Codec.parsed (fun k => k.name.toList) fun s => all.find? fun k => k.name == s).decode

/-- Reads the content of null.  Content that is there is opened before it is found to be wrong, so
that an array or object needs depth. -/
def noContent : Reader Unit := fun depth o =>
  match o with
  | .array .. | .object .. => Codec.nested depth fun _ => .error .mismatch
  | o => Codec.nothing.decode depth o

/-- Reads the content of a value of a kind. -/
def content : Kind → Reader Value
  | null => fun d o => (fun _ => Value.null) <$> noContent d o
  | bool => fun d o => Value.bool <$> Codec.bool.decode d o
  | int => fun d o => Value.int <$> Codec.int64.decode d o
  | float => fun d o => Value.float <$> Codec.double.decode d o
  | text => fun d o => Value.text <$> Codec.string.decode d o
  | bytes => fun d o => Value.bytes <$> Codec.byte.list.decode d o
  | uuid => fun d o => Value.uuid <$> (Codec.parsed Uuid.write Uuid.read).decode d o
  | timestamp => fun d o =>
    Value.timestamp <$> (Codec.parsed Timestamp.write Timestamp.read).decode d o
  | json => fun d o => (fun j => Value.json (.of j)) <$> Codec.raw.decode d o

end Kind

/-- The kind of a value. -/
def kind : Value → Kind
  | null => .null
  | bool _ => .bool
  | int _ => .int
  | float _ => .float
  | text _ => .text
  | bytes _ => .bytes
  | uuid _ => .uuid
  | timestamp _ => .timestamp
  | json _ => .json

/-- What is written for the content of a value; null has none. -/
def content? : Value → Option Json
  | null => none
  | bool b => some (Codec.bool.encode b)
  | int i => some (Codec.int64.encode i)
  | float x => some (Codec.double.encode x)
  | text s => some (Codec.string.encode s)
  | bytes bs => some (Codec.byte.list.encode bs)
  | uuid u => some ((Codec.parsed Uuid.write Uuid.read).encode u)
  | timestamp t => some ((Codec.parsed Timestamp.write Timestamp.read).encode t)
  | json d => some d.json

/-- A value as JSON: its kind, and its content if it has any. -/
def toJson (v : Value) : Json :=
  .object (("type", .string v.kind.name) :: (v.content?.map fun j => ("value", j)).toList)

/-! ## Reading -/

/-- Passes over the members after kind and content, neither of which may stand there again. -/
def skipOthers : List (Option String × Outline) → Except Fault Unit
  | [] => .ok ()
  | (k, o) :: more => do
    let k ← Outline.wholeString k
    if k = "type" || k = "value" then throw .mismatch
    o.skip
    skipOthers more

/-- Reads on after the kind. -/
def readContent (d : Nat) (kind : Kind) (ending : Ending) :
    List (Option String × Outline) → Except Fault Value
  | [] => do
    ending.finish
    if kind = .null then return .null else throw .mismatch
  | (k, o) :: more => do
    let k ← Outline.wholeString k
    if k = "type" then throw .mismatch
    else if k = "value" then
      let v ← kind.content d o
      skipOthers more
      ending.finish
      return v
    else
      o.skip
      readContent d kind ending more

/-- Reads on after content whose kind is not yet known. -/
def readKind (d : Nat) (content : Outline) (ending : Ending) :
    List (Option String × Outline) → Except Fault Value
  | [] => do
    ending.finish
    throw .mismatch
  | (k, o) :: more => do
    let k ← Outline.wholeString k
    if k = "value" then throw .mismatch
    else if k = "type" then
      let kind ← Kind.decode d o
      let v ← kind.content d content
      skipOthers more
      ending.finish
      return v
    else
      o.skip
      readKind d content ending more

/-- Reads the members of a value. -/
def readTagged (d : Nat) (ending : Ending) :
    List (Option String × Outline) → Except Fault Value
  | [] => do
    ending.finish
    throw .mismatch
  | (k, o) :: more => do
    let k ← Outline.wholeString k
    if k = "type" then
      let kind ← Kind.decode d o
      readContent d kind ending more
    else if k = "value" then
      let _ ← o.json d
      readKind d o ending more
    else
      o.skip
      readTagged d ending more

/-- Reads a value from an array of its kind and its content. -/
def readPair (d : Nat) (ending : Ending) : List Outline → Except Fault Value
  | [] => do
    ending.finish
    throw .mismatch
  | [t] => do
    let _ ← Kind.decodePlain d t
    ending.finish
    throw .mismatch
  | t :: o :: more => do
    let kind ← Kind.decodePlain d t
    let v ← kind.content d o
    if more.isEmpty then ending.close else throw .malformed
    return v

/-- The serial form of values. -/
def codec : Codec Value where
  encode := toJson
  decode depth
    | .object members ending => Codec.nested depth fun d => readTagged d ending members
    | .array items ending => Codec.nested depth fun d => readPair d ending items
    | o => .error o.unexpected

end Value

end SqlBuilder
