/-
# Normalization

Records arrive without a schema and often with their numbers and booleans as texts.  The normalizer
gives a value the type that its column name and its own form suggest.  For a text the first rule
that applies decides:

| the text is | on a column | becomes |
| --- | --- | --- |
| `true` or `false`, in any case | any | the boolean |
| a JSON document | any | itself |
| digits | of ids | the integer, if it fits 64 bits |
| anything | with a text marker | itself |
| digits, perhaps with a minus sign | any other | the integer, if a double holds it exactly |
| digits with a fraction | any other | the floating number, if it is finite |

A number on an id column is rounded down to an integer; a number or boolean on a column with a text
marker becomes its text.  Arrays are normalized item by item under the same column, objects field
by field under each key.
-/

import Querysmith.Json.Document
import Querysmith.Value

namespace Querysmith

/-- The column-name fragments whose values stay text. -/
structure Normalizer where
  markers : List String := ["phone", "mobile", "account_number"]
  deriving Repr

/-- The largest integer up to which doubles hold every integer. -/
def maxSafeInteger : Int := 9007199254740991

/-- A column of ids: `id`, or a name that ends in `_id`. -/
def isIdColumn (column : String) : Bool :=
  column == "id" || Text.endsWith column "_id"

/-- Digits on both sides of one point, perhaps with a minus sign in front. -/
def isDecimalText (cs : List Char) : Bool :=
  let unsigned := match cs with
    | '-' :: rest => rest
    | cs => cs
  match Text.splitFirst ['.'] unsigned with
  | some (whole, fraction) => Text.isDigits whole && Text.isDigits fraction
  | none => false

/-- The word that a text spells in either case. -/
def booleanText? (s : String) : Option Bool :=
  let word := Text.lowerAscii s
  if word = "true" then some true else if word = "false" then some false else none

namespace Normalizer

/-- The normalizer with further text markers. -/
def withMarkers (n : Normalizer) (markers : List String) : Normalizer :=
  { n with markers := n.markers ++ markers }

/-- The column holds a text marker. -/
def keepsText (n : Normalizer) (column : String) : Bool :=
  n.markers.any (Text.contains column)

/-- A text destined for a column. -/
def normalizeText (n : Normalizer) (column s : String) : Json :=
  let cs := s.toList
  match booleanText? s with
  | some b => .bool b
  | none =>
    if Json.isDocumentText s then .str s
    else if isIdColumn column && Text.isDigits cs then
      let i : Int := Text.readDecimal cs
      if i ≤ SqlValue.maxInt then .int i else .str s
    else if n.keepsText column then .str s
    else if Text.isSignedDigits cs then
      let i := Text.readSigned cs
      if -maxSafeInteger ≤ i ∧ i ≤ maxSafeInteger then .int i else .str s
    else if isDecimalText cs then
      match Binary64.ofText? s with
      | some x => if x.isFinite then .float x else .str s
      | none => .str s
    else .str s

/-- The integer below a floating number, when it fits 64 bits. -/
def floorInteger? (x : Binary64) : Option Int :=
  x.floor?.filter fun i => SqlValue.minInt ≤ i && i ≤ SqlValue.maxInt

/-- An integer destined for a column. -/
def normalizeInt (n : Normalizer) (column : String) (i : Int) : Json :=
  if isIdColumn column then .int i
  else if n.keepsText column then .str (Text.ofInt i)
  else .int i

/-- A floating number destined for a column. -/
def normalizeFloat (n : Normalizer) (column : String) (x : Binary64) : Json :=
  if isIdColumn column then
    match floorInteger? x with
    | some i => .int i
    | none => .float x
  else if n.keepsText column then .str (x.text Json.numberLayout)
  else .float x

mutual

/-- A value destined for a column. -/
def normalize (n : Normalizer) (column : String) : Json → Json
  | .null => .null
  | .bool b => if n.keepsText column then .str (if b then "true" else "false") else .bool b
  | .int i => n.normalizeInt column i
  | .float x => n.normalizeFloat column x
  | .str s => n.normalizeText column s
  | .arr items => .arr (normalizeItems n column items)
  | .obj fields => .obj (normalizeFields n fields)

/-- The items of an array, all under one column. -/
def normalizeItems (n : Normalizer) (column : String) : List Json → List Json
  | [] => []
  | v :: vs => normalize n column v :: normalizeItems n column vs

/-- The fields of a record, each under its own name. -/
def normalizeFields (n : Normalizer) : List (String × Json) → List (String × Json)
  | [] => []
  | (key, v) :: rest => (key, normalize n key v) :: normalizeFields n rest

end

end Normalizer
end Querysmith
