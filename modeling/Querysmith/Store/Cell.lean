/-
# Cells

The values that a table holds and how they compare.  Null is no value: nothing equals it, and a
comparison with it has no outcome.  An order of rows still needs a place for it, which is in front;
behind it come the numbers, integers and floating ones by value, then the texts by code points, then
the byte strings.
-/

import Querysmith.Json
import Querysmith.Value

namespace Querysmith
namespace Store

/-- A value in a table. -/
inductive Cell where
  | null
  | int (i : Int)
  | float (x : Binary64)
  | text (s : String)
  | blob (bytes : List UInt8)
  deriving DecidableEq, Repr, Inhabited

namespace Cell

/-- A bound value as a cell: booleans are one and zero, and what is not a number is null. -/
def ofBound : SqlValue → Cell
  | .null => null
  | .bool b => int (if b then 1 else 0)
  | .int i => int i
  | .float .nan => null
  | .float x => float x
  | .text s => text s
  | .blob bytes => blob bytes

/-- The JSON value of a cell in a result row: a byte string is the list of its bytes, and a number
that JSON cannot write is null. -/
def toJson : Cell → Json
  | null => .null
  | int i => .int i
  | float x => .ofFloat x
  | text s => .str s
  | blob bytes => .arr (bytes.map fun b => .int b.toNat)

/-- The cell is null. -/
def isNull : Cell → Bool
  | null => true
  | _ => false

/-- An integer beside a floating number, compared by value. -/
def compareNumbers (i : Int) : Binary64 → Ordering
  | .infinity negative => if negative then .gt else .lt
  | x => match x.toRatio? with
    | some (num, den) => compare (i * den) num
    | none => .eq

/-- Two floating numbers, compared by value. -/
def compareFloats : Binary64 → Binary64 → Ordering
  | .infinity s, .infinity t => compare t s
  | .infinity s, _ => if s then .lt else .gt
  | _, .infinity t => if t then .gt else .lt
  | x, y => match x.toRatio?, y.toRatio? with
    | some (a, b), some (c, d) => compare (a * d) (c * b)
    | _, _ => .eq

/-- The place of the kind of a cell in an order. -/
def rank : Cell → Nat
  | null => 0
  | int _ | float _ => 1
  | text _ => 2
  | blob _ => 3

/-- The order of cells. -/
def order : Cell → Cell → Ordering
  | int i, int j => compare i j
  | int i, float y => compareNumbers i y
  | float x, int j => (compareNumbers j x).swap
  | float x, float y => compareFloats x y
  | text s, text t => compare s t
  | blob a, blob b => compare (a.map UInt8.toNat) (b.map UInt8.toNat)
  | a, b => compare a.rank b.rank

/-- The comparison of two cells, without outcome when one of them is null. -/
def compare? (a b : Cell) : Option Ordering :=
  if a.isNull || b.isNull then none else some (order a b)

/-- Both cells have a value, and the same one. -/
def same (a b : Cell) : Bool :=
  compare? a b == some .eq

end Cell
end Store
end Querysmith
