/-!
# Identifiers in SQL text

A name that is a plain word may stand bare; every other name is put between double quotes, with
each quote inside it doubled.  The lone `*` is the wildcard and is never quoted.
-/

namespace SqlBuilder

/-- The ASCII letters and the underscore. -/
def isWordStart (c : Char) : Bool :=
  c == '_' || c.isAlpha

/-- The characters after the first of a plain name. -/
def isWordPart (c : Char) : Bool :=
  c == '_' || c == '$' || c.isAlphanum

namespace Identifier

/-- Whether the characters form a word `[A-Za-z_][A-Za-z0-9_$]*`. -/
def isPlainWord : List Char → Bool
  | [] => false
  | c :: cs => isWordStart c && cs.all isWordPart

/-- Whether a name can be written without quotes. -/
def isPlain (name : String) : Bool :=
  isPlainWord name.toList

/-- The characters with each double quote doubled. -/
def doubleQuotes : List Char → List Char
  | [] => []
  | c :: cs => if c = '"' then '"' :: '"' :: doubleQuotes cs else c :: doubleQuotes cs

/-- A name between double quotes. -/
def quoted (name : String) : String :=
  "\"" ++ String.ofList (doubleQuotes name.toList) ++ "\""

/-- The written form of a name; `always` asks for quotes even where none are needed. -/
def write (always : Bool) (name : String) : String :=
  if name = "*" || (!always && isPlain name) then name else quoted name

end Identifier

end SqlBuilder
