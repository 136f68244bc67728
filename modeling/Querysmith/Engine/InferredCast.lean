/-
# Casts that the server infers

A PostgreSQL server tells which type each parameter of a statement has.  A text parameter of another
type needs a cast to it, written behind its placeholder.  Quoted texts and names are copied, and a
placeholder that has a cast keeps it.
-/

import Querysmith.Text
import Querysmith.Value

namespace Querysmith
namespace InferredCast

/-- A type as the server names it. -/
structure ServerType where
  name : String
  /-- The type is one of the server's own, whose name needs no quotes. -/
  builtin : Bool
  deriving DecidableEq, Repr

/-- The type that a bound value is sent with; null and texts are left to the server. -/
def declaredType : SqlValue → ServerType
  | .null | .text _ => ⟨"unknown", false⟩
  | .bool _ => ⟨"BOOL", true⟩
  | .int _ => ⟨"INT8", true⟩
  | .float _ => ⟨"FLOAT8", true⟩
  | .blob _ => ⟨"BYTEA", true⟩

/-- The types that a text has anyway. -/
def textTypes : List String := ["text", "varchar", "bpchar", "name", "unknown"]

/-- The cast that takes a text to a type, or none for the types of texts. -/
def castTarget (type : ServerType) : Option String :=
  if textTypes.contains (Text.lowerAscii type.name) then none
  else if type.builtin then some type.name
  else some (String.ofList ('"' :: Text.double '"' type.name.toList ++ ['"']))

/-- Where a reader of SQL text stands. -/
inductive Place where
  /-- Outside quotes and placeholders. -/
  | outside
  /-- Inside the quotes of a character. -/
  | inside (quote : Char)
  /-- Right behind a `$`. -/
  | sign
  /-- Inside the digits of a placeholder, which so far write `number`. -/
  | digits (number : Nat)
  deriving DecidableEq, Repr

/-- The place behind a character that is neither quoted nor a digit of a placeholder. -/
def Place.after (c : Char) : Place :=
  if c = '\'' ∨ c = '"' then .inside c else if c = '$' then .sign else .outside

/-- The cast that is written behind the placeholder of a number, counted from one. -/
def castText (casts : List (Option String)) (number : Nat) : List Char :=
  if number = 0 then []
  else match (casts[number - 1]?).join with
    | some target => ':' :: ':' :: target.toList
    | none => []

/-- Copies SQL text and writes casts behind the placeholders that have none. -/
def insertFrom (casts : List (Option String)) : Place → List Char → List Char
  | .digits number, [] => castText casts number
  | _, [] => []
  | .outside, c :: cs => c :: insertFrom casts (.after c) cs
  | .inside quote, c :: cs =>
    c :: insertFrom casts (if c = quote then .outside else .inside quote) cs
  | .sign, c :: cs =>
    c :: insertFrom casts (if c.isDigit then .digits (Text.digitValue c) else .after c) cs
  | .digits number, c :: cs =>
    if c.isDigit then c :: insertFrom casts (.digits (10 * number + Text.digitValue c)) cs
    else
      (if [':', ':'].isPrefixOf (c :: cs) then [] else castText casts number) ++
        c :: insertFrom casts (.after c) cs

/-- The SQL text with a cast behind each placeholder whose entry is set. -/
def insert (sql : String) (casts : List (Option String)) : String :=
  String.ofList (insertFrom casts .outside sql.toList)

end InferredCast
end Querysmith
