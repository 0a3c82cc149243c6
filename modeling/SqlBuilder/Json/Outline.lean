import SqlBuilder.Json.Document

/-!
# Outlines of JSON texts

A text is read from left to right, for values of a type known beforehand, and the first problem met
decides how the reading fails.  What a problem is depends on what is looked for: a string with half
a surrogate pair may be passed over but not read, and a number out of range too.  An `Outline`
keeps what is needed to answer for every way of reading: the values as far as they are well formed,
and at the place where the text breaks off or goes wrong the fault of each way.

Three ways of reading occur: as a value, as a value that is passed over, and as the choice among
the named cases of a type.
-/

namespace SqlBuilder

/-- How reading a text can fail. -/
inductive Fault where
  /-- A well-formed value is of the wrong shape. -/
  | mismatch
  /-- The text is not of the format. -/
  | malformed
  /-- The text ends too early. -/
  | truncated
  deriving DecidableEq, Repr

/-- What stands after the last item or member of an array or object. -/
inductive Ending where
  /-- The closing mark. -/
  | closed
  /-- Neither a comma nor the closing mark. -/
  | broken (fault : Fault)
  /-- A comma, and no item or key after it; the faults of reading and of passing over. -/
  | comma (read skip : Fault)
  /-- No key after an opening brace; the faults of reading and of passing over. -/
  | keyless (read skip : Fault)
  deriving DecidableEq, Repr

/-- What a text holds where a value is looked for. -/
inductive Outline where
  /-- No complete value; the faults of reading, of passing over and of choosing. -/
  | broken (read skip choose : Fault)
  | null
  | bool (value : Bool)
  /-- A numeral and its number, unless that is out of range. -/
  | number (value : Option Json.Number)
  /-- A string, unless half a surrogate pair stands in it. -/
  | string (value : Option String)
  | array (items : List Outline) (ending : Ending)
  | object (members : List (Option String × Outline)) (ending : Ending)

namespace Ending

/-- Passing over what stands after the last item or member. -/
def skip : Ending → Except Fault Unit
  | closed => .ok ()
  | broken f => .error f
  | comma _ s => .error s
  | keyless _ s => .error s

/-- Reading on after the last item or member. -/
def finish : Ending → Except Fault Unit
  | closed => .ok ()
  | broken f => .error f
  | comma r _ => .error r
  | keyless r _ => .error r

/-- The closing mark must stand here, and nothing else may. -/
def close : Ending → Except Fault Unit
  | closed => .ok ()
  | broken f => .error f
  | comma .. => .error .malformed
  | keyless .. => .error .malformed

end Ending

namespace Outline

/-- The fault of a value that is not what was looked for: a scalar is read to its end first. -/
def unexpected : Outline → Fault
  | broken r _ _ => r
  | number none => .malformed
  | string none => .malformed
  | _ => .mismatch

mutual

/-- Passing over a value: no limit of depth, and every numeral and string will do. -/
def skip : Outline → Except Fault Unit
  | .broken _ s _ => .error s
  | .array items ending => do
    skipItems items
    ending.skip
  | .object members ending => do
    skipMembers members
    ending.skip
  | _ => .ok ()

/-- Passes over the items of an array, up to the first that has a fault. -/
def skipItems : List Outline → Except Fault Unit
  | [] => .ok ()
  | o :: rest => do
    skip o
    skipItems rest

/-- Passes over the members of an object, whatever their keys are. -/
def skipMembers : List (Option String × Outline) → Except Fault Unit
  | [] => .ok ()
  | (_, o) :: rest => do
    skip o
    skipMembers rest

end

/-- A string or a fault: half a surrogate pair is malformed. -/
def wholeString : Option String → Except Fault String
  | some s => .ok s
  | none => .error .malformed

mutual

/-- Reads any value, as long as no more than `depth` arrays and objects stand inside each other. -/
def json (depth : Nat) : Outline → Except Fault Json
  | .null => .ok .null
  | .bool b => .ok (.bool b)
  | .number (some n) => .ok (.number n)
  | .string (some s) => .ok (.string s)
  | .array items ending =>
    if depth = 0 then .error .malformed
    else do
      let js ← jsonItems (depth - 1) items
      ending.finish
      return .array js
  | .object members ending =>
    if depth = 0 then .error .malformed
    else do
      let ms ← jsonMembers (depth - 1) members
      ending.finish
      return .object ms
  | o => .error o.unexpected

/-- Reads the items of an array one after the other. -/
def jsonItems (depth : Nat) : List Outline → Except Fault (List Json)
  | [] => .ok []
  | o :: rest => do
    let j ← json depth o
    let js ← jsonItems depth rest
    return j :: js

/-- Reads the members of an object, each key before its value. -/
def jsonMembers (depth : Nat) : List (Option String × Outline) →
    Except Fault (List (String × Json))
  | [] => .ok []
  | (k, o) :: rest => do
    let k ← wholeString k
    let j ← json depth o
    let ms ← jsonMembers depth rest
    return (k, j) :: ms

end

end Outline

end SqlBuilder
