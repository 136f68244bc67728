/-
# Casts of parameters

A database that infers the type of a parameter needs to be told when a text is meant as a document
or a number as an id.  A registry is a list of rules; the first rule that matches a column and its
value names the cast.
-/

import Querysmith.Pattern
import Querysmith.Error
import Querysmith.Json.Document

namespace Querysmith

/-- A column pattern with its text. -/
structure ColumnPattern where
  text : String
  pattern : Pattern

/-- The pattern of a text, or the error of a pattern that cannot be read. -/
def ColumnPattern.read (text : String) : Except Error ColumnPattern :=
  match Pattern.ofText? text with
  | some pattern => .ok ⟨text, pattern⟩
  | none => .error (.config (.badPattern text))

/-- A cast target and the conditions under which it applies. -/
structure CastRule where
  target : String
  patterns : List ColumnPattern := []
  kinds : List Json.Kind := []
  detector : Option (Json → Bool) := none

/-- The rule applies to a value of a column.  Null is never cast; a value that the detector knows
always is.  Otherwise the kind has to be one of the listed ones, if any are, and the column has to
match one of the patterns; without patterns the listed kinds alone decide. -/
def CastRule.applies (rule : CastRule) (column : String) (v : Json) : Bool :=
  let kindFits := rule.kinds.isEmpty || rule.kinds.contains v.kind
  if v.kind = .null then false
  else if rule.detector.any (· v) then true
  else if rule.patterns.isEmpty then !rule.kinds.isEmpty && kindFits
  else kindFits && rule.patterns.any (·.pattern.isMatch column)

/-- The rules in the order in which they are tried. -/
structure CastRegistry where
  rules : List CastRule := []

namespace CastRegistry

/-- The registry without rules. -/
def empty : CastRegistry := {}

/-- The patterns of id columns: `^id$` and `_id$`. -/
def idPatterns : List ColumnPattern :=
  ["^id$", "_id$"].filterMap fun text => (ColumnPattern.read text).toOption

/-- Documents are `jsonb`, integers of id columns `bigint`, and booleans `boolean`. -/
def postgres : CastRegistry where
  rules := [
    { target := "jsonb", detector := some Json.isDocument },
    { target := "bigint", patterns := idPatterns, kinds := [.integer] },
    { target := "boolean", kinds := [.boolean] }]

/-- Adds a rule behind the others. -/
def push (registry : CastRegistry) (rule : CastRule) : CastRegistry :=
  ⟨registry.rules ++ [rule]⟩

/-- Puts a rule at a place, or behind the others when there are fewer. -/
def insertAt (registry : CastRegistry) (place : Nat) (rule : CastRule) : CastRegistry :=
  ⟨registry.rules.take place ++ rule :: registry.rules.drop place⟩

/-- The cast of a value in a column: the target of the first rule that applies. -/
def castFor (registry : CastRegistry) (column : String) (v : Json) : Option String :=
  (registry.rules.find? (·.applies column v)).map (·.target)

/-- The name of a kind in a description. -/
def kindWord : Json.Kind → String
  | .null => "Null"
  | .boolean => "Boolean"
  | .integer => "Integer"
  | .float => "Float"
  | .string => "String"
  | .array => "Array"
  | .object => "Object"

/-- A description of a rule for diagnostics. -/
def describeRule (rule : CastRule) : String :=
  "TypeCastRule \x7b target: " ++ Text.quoted rule.target ++
    ", patterns: " ++ Text.quotedList (rule.patterns.map (·.text)) ++
    ", value_kinds: [" ++ Text.joinWith ", " (rule.kinds.map kindWord) ++
    "], detector: " ++ (if rule.detector.isSome then "true" else "false") ++ " \x7d"

/-- A description of a registry for diagnostics. -/
def describe (registry : CastRegistry) : String :=
  "TypeCastRegistry \x7b rules: [" ++
    Text.joinWith ", " (registry.rules.map describeRule) ++ "] \x7d"

end CastRegistry
end Querysmith
