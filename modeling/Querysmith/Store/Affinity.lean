/-
# Affinities

A column does not restrict the type of its cells, it only prefers one.  What is stored in it is
brought to that type, and so is a value that the column is compared with.

| affinity | what is stored | what it is compared with |
| --- | --- | --- |
| integer | numeric texts become numbers, whole numbers integers | numeric texts become numbers |
| real | numeric texts and integers become floating numbers | numeric texts become numbers |
| text | numbers become texts | numbers become texts |
| blob | stays as it is | stays as it is |

A number in a text may have blanks around it, a sign, a fraction and an exponent.
-/

import Querysmith.Binary64.Layout
import Querysmith.Binary64.Significant
import Querysmith.Store.Cell

namespace Querysmith
namespace Store

/-- The type that a column prefers. -/
inductive Affinity where
  | integer
  | real
  | text
  | blob
  deriving DecidableEq, Repr, Inhabited

/-! ### Numbers in texts -/

/-- The blanks that may stand around a number. -/
def isSpace (c : Char) : Bool :=
  c = ' ' || (9 ≤ c.toNat && c.toNat ≤ 13)

/-- The characters without the blanks at both ends. -/
def trimSpace (cs : List Char) : List Char :=
  ((cs.dropWhile isSpace).reverse.dropWhile isSpace).reverse

/-- The number that a text writes, if it writes one and nothing else: an integer, unless it has a
point or an exponent or is beyond 64 bits. -/
def numberOfText? (s : String) : Option Cell :=
  let (negative, digits) := match trimSpace s.toList with
    | '-' :: cs => (true, cs)
    | '+' :: cs => (false, cs)
    | cs => (false, cs)
  let signed := if negative then '-' :: digits else digits
  let i := Text.readSigned signed
  if Text.isDigits digits ∧ SqlValue.minInt ≤ i ∧ i ≤ SqlValue.maxInt then some (.int i)
  else if digits.head?.any fun c => c.isDigit || c = '.' then
    (Binary64.ofText? (String.ofList signed)).map .float
  else none

/-- A floating number as an integer, when it is whole and strictly between the extreme integers. -/
def wholeOr (x : Binary64) : Cell :=
  match x.toInt? with
  | some i => if SqlValue.minInt < i ∧ i < SqlValue.maxInt then .int i else .float x
  | none => .float x

/-- A floating number; both zeros become the one without a sign. -/
def unsignedZero (x : Binary64) : Binary64 :=
  if x.isZero then .zero false else x

/-! ### Texts of numbers -/

/-- The digits without zeros at the end; one digit is always kept. -/
def withoutTrailingZeros (digits : List Char) : List Char :=
  match (digits.reverse.dropWhile (· = '0')).reverse with
  | [] => ['0']
  | kept => kept

/-- The number of significant digits in the text of a floating number. -/
def textDigits : Nat := 15

/-- A power of ten behind its letter: a sign and two digits at least. -/
def powerText (power : Int) : List Char :=
  let digits := Text.decimal power.natAbs
  'e' :: (if power < 0 then '-' else '+') :: (if digits.length < 2 then '0' :: digits else digits)

/-- The text of a floating number: fifteen significant digits without zeros at the end, always with
a fraction, and with an exponent when the leading digit stands below `10^-4` or above `10^14`. -/
def floatText : Binary64 → String
  | .nan => "NaN"
  | .infinity negative => if negative then "-Inf" else "Inf"
  | .finite negative m e =>
    if m = 0 then "0.0"
    else
      let (digits, power) := Binary64.significant textDigits m e
      let kept := withoutTrailingZeros (Text.decimal digits)
      let body :=
        if power < -4 ∨ textDigits ≤ power then
          kept.take 1 ++ '.' :: (if kept.length < 2 then ['0'] else kept.drop 1) ++ powerText power
        else Binary64.plainDigits true kept (power + 1)
      String.ofList (if negative then '-' :: body else body)

/-- The text of a cell, where it has one. -/
def Cell.text? : Cell → Option String
  | .int i => some (Text.ofInt i)
  | .float x => some (floatText x)
  | .text s => some s
  | _ => none

namespace Affinity

/-- A value as a column of the affinity stores it. -/
def store : Affinity → Cell → Cell
  | integer, .float x => wholeOr x
  | integer, .text s =>
    match numberOfText? s with
    | some (.float x) => wholeOr x
    | some c => c
    | none => .text s
  | real, .int i => .float (.ofInt i)
  | real, .float x => .float (unsignedZero x)
  | real, .text s =>
    match numberOfText? s with
    | some (.int i) => .float (.ofInt i)
    | some (.float x) => .float (unsignedZero x)
    | _ => .text s
  | text, .int i => .text (Text.ofInt i)
  | text, .float x => .text (floatText x)
  | _, c => c

/-- A value as a column of the affinity is compared with it. -/
def operand : Affinity → Cell → Cell
  | integer, .text s | real, .text s => (numberOfText? s).getD (.text s)
  | text, .int i => .text (Text.ofInt i)
  | text, .float x => .text (floatText x)
  | _, c => c

end Affinity
end Store
end Querysmith
