/-
# JSON values

The dynamic values of requests, records and result rows.  An object keeps the order of its fields,
and an integer is a different value from the floating number that is equal to it.
-/

import Querysmith.Binary64.Layout

namespace Querysmith

/-- A JSON value.  Values that were read hold integers between `-2^63` and `2^64 - 1`, finite
floating numbers, and objects that name no key twice. -/
inductive Json where
  | null
  | bool (b : Bool)
  | int (i : Int)
  | float (x : Binary64)
  | str (s : String)
  | arr (items : List Json)
  | obj (fields : List (String × Json))
  deriving Inhabited, Repr, BEq

namespace Json

/-- The kind of a value. -/
inductive Kind where
  | null
  | boolean
  | integer
  | float
  | string
  | array
  | object
  deriving DecidableEq, Repr, Inhabited

/-- The name of a kind. -/
def Kind.name : Kind → String
  | null => "null"
  | boolean => "boolean"
  | integer => "integer"
  | float => "float"
  | string => "string"
  | array => "array"
  | object => "object"

/-- The kind that a name stands for. -/
def Kind.ofName? (name : String) : Option Kind :=
  [null, boolean, integer, float, string, array, object].find? (·.name == name)

/-- The kind of a value. -/
def kind : Json → Kind
  | null => .null
  | bool _ => .boolean
  | int _ => .integer
  | float _ => .float
  | str _ => .string
  | arr _ => .array
  | obj _ => .object

/-- The value is an array or an object. -/
def isStructured : Json → Bool
  | arr _ | obj _ => true
  | _ => false

/-- The fields of an object. -/
def fields? : Json → Option (List (String × Json))
  | obj fields => some fields
  | _ => none

/-- The text of a string value. -/
def str? : Json → Option String
  | str s => some s
  | _ => none

/-- The value of a field of an object. -/
def get? (v : Json) (key : String) : Option Json :=
  v.fields?.bind (·.lookup key)

/-- Sets a field: a key that is there keeps its place, a new one goes to the end. -/
def setField (key : String) (value : Json) : List (String × Json) → List (String × Json)
  | [] => [(key, value)]
  | (k, v) :: rest => if k = key then (k, value) :: rest else (k, v) :: setField key value rest

/-- The fields of the pairs as they are set one after another. -/
def ofPairs (pairs : List (String × Json)) : List (String × Json) :=
  pairs.foldl (fun fields (key, value) => setField key value fields) []

/-- Numbers keep a fraction, are plain from `0.00001` to below `10^16`, and of two shortest
decimals the one with the even last digit is taken. -/
def numberLayout : Binary64.Layout where
  plain := some (-5, 16)
  keepFraction := true
  tie := .toEven

/-- The value of a floating number; the numbers that JSON cannot write are null. -/
def ofFloat (x : Binary64) : Json :=
  if x.isFinite then float x else null

/-- One character inside a JSON string. -/
def escape (c : Char) : List Char :=
  if c = '"' then ['\\', '"']
  else if c = '\\' then ['\\', '\\']
  else if c = '\n' then ['\\', 'n']
  else if c = '\r' then ['\\', 'r']
  else if c = '\t' then ['\\', 't']
  else if c.toNat = 8 then ['\\', 'b']
  else if c.toNat = 12 then ['\\', 'f']
  else if c.toNat < 32 then
    ['\\', 'u', '0', '0', Text.hexDigit (c.toNat / 16), Text.hexDigit (c.toNat % 16)]
  else [c]

/-- A JSON string with its quotes. -/
def stringText (s : String) : String :=
  String.ofList ('"' :: s.toList.flatMap escape ++ ['"'])

mutual

/-- Appends the compact text of a value. -/
def write (acc : String) : Json → String
  | null => acc ++ "null"
  | bool b => acc ++ (if b then "true" else "false")
  | int i => acc ++ Text.ofInt i
  | float x => acc ++ x.text numberLayout
  | str s => acc ++ stringText s
  | arr [] => acc ++ "[]"
  | arr (v :: vs) => writeItems (write (acc ++ "[") v) vs ++ "]"
  | obj [] => acc ++ "\x7b\x7d"
  | obj ((k, v) :: rest) =>
    writeFields (write (acc ++ "\x7b" ++ stringText k ++ ":") v) rest ++ "\x7d"

/-- Appends the items of an array after the first. -/
def writeItems (acc : String) : List Json → String
  | [] => acc
  | v :: vs => writeItems (write (acc ++ ",") v) vs

/-- Appends the fields of an object after the first. -/
def writeFields (acc : String) : List (String × Json) → String
  | [] => acc
  | (k, v) :: rest => writeFields (write (acc ++ "," ++ stringText k ++ ":") v) rest

end

/-- The compact text of a value: no blanks, fields in order. -/
def text (v : Json) : String :=
  v.write ""

end Json
end Querysmith
