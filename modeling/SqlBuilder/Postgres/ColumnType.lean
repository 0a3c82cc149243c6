/-!
# Column types

The PostgreSQL types that matter to the binary form of a value, by name; every other type is known
by its name alone.
-/

namespace SqlBuilder

/-- A PostgreSQL type. -/
inductive ColumnType where
  | bool
  | int2
  | int4
  | int8
  | float4
  | float8
  | text
  | varchar
  | bpchar
  | name
  | unknown
  | citext
  | ltree
  | lquery
  | ltxtquery
  | bytea
  | uuid
  | timestamp
  | timestamptz
  | json
  | jsonb
  | other (typeName : String)
  deriving DecidableEq, Repr

namespace ColumnType

/-- The name of a type. -/
def typeName : ColumnType → String
  | bool => "bool"
  | int2 => "int2"
  | int4 => "int4"
  | int8 => "int8"
  | float4 => "float4"
  | float8 => "float8"
  | text => "text"
  | varchar => "varchar"
  | bpchar => "bpchar"
  | name => "name"
  | unknown => "unknown"
  | citext => "citext"
  | ltree => "ltree"
  | lquery => "lquery"
  | ltxtquery => "ltxtquery"
  | bytea => "bytea"
  | uuid => "uuid"
  | timestamp => "timestamp"
  | timestamptz => "timestamptz"
  | json => "json"
  | jsonb => "jsonb"
  | other n => n

/-- The types that have a constructor of their own. -/
def known : List ColumnType :=
  [bool, int2, int4, int8, float4, float8, text, varchar, bpchar, name, unknown, citext, ltree,
    lquery, ltxtquery, bytea, uuid, timestamp, timestamptz, json, jsonb]

/-- The type of a name. -/
def ofName (n : String) : ColumnType :=
  (known.find? fun t => t.typeName == n).getD (other n)

/-- The family of label-tree types, whose text carries a version byte. -/
def isLabelTree : ColumnType → Bool
  | ltree | lquery | ltxtquery => true
  | _ => false

/-- The types that hold text. -/
def isTextual : ColumnType → Bool
  | text | varchar | bpchar | name | unknown | citext => true
  | t => t.isLabelTree

end ColumnType

end SqlBuilder
