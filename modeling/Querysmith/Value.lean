/-
# SQL values

The values that a statement binds, how a JSON value becomes one, and how one is shown in a dry run.
-/

import Querysmith.Json

namespace Querysmith

/-- The greatest natural number of 64 bits, `2^64 - 1`. -/
def maxWord : Nat := 18446744073709551615

/-- A value bound as a parameter. -/
inductive SqlValue where
  | null
  | bool (b : Bool)
  /-- An integer of 64 bits. -/
  | int (i : Int)
  | float (x : Binary64)
  | text (s : String)
  | blob (bytes : List UInt8)
  deriving DecidableEq, Inhabited, Repr

namespace SqlValue

/-- The least integer of 64 bits, `-2^63`. -/
def minInt : Int := -9223372036854775808

/-- The greatest integer of 64 bits, `2^63 - 1`. -/
def maxInt : Int := 9223372036854775807

/-- The bound value of a JSON value.  An integer beyond 64 signed bits is bound as its digits, and
an array or object as its text. -/
def ofJson : Json → SqlValue
  | .null => null
  | .bool b => bool b
  | .int i => if minInt ≤ i ∧ i ≤ maxInt then int i else text (Text.ofInt i)
  | .float x => float x
  | .str s => text s
  | v => text v.text

/-- Numbers in a dry run are always plain, and a whole one has no fraction. -/
def inlineLayout : Binary64.Layout where
  plain := none
  keepFraction := false
  tie := .up

/-- The two capital hexadecimal digits of a byte. -/
def byteDigits (b : UInt8) : List Char :=
  [Text.hexDigit (b.toNat / 16), Text.hexDigit (b.toNat % 16)].map Char.toUpper

/-- How a value is shown in a dry run.  A statement never holds this text: values are bound. -/
def inline : SqlValue → String
  | null => "NULL"
  | bool b => if b then "TRUE" else "FALSE"
  | int i => Text.ofInt i
  | float x => x.text inlineLayout
  | text s => String.ofList ('\'' :: Text.double '\'' s.toList ++ ['\''])
  | blob bytes => String.ofList ('X' :: '\'' :: bytes.flatMap byteDigits ++ ['\''])

end SqlValue
end Querysmith
