/-
# Layouts of decimals

How the digits of a number become text.  A layout says which numbers are written plainly and
whether a whole number keeps a fraction; everything else is written with an exponent, as in
`1.5e-7` or `1e+16`.
-/

import Querysmith.Binary64.Shortest

namespace Querysmith
namespace Binary64

/-- The decisions of a text form for numbers. -/
structure Layout where
  /-- The powers of the leading digit that are written plainly; all of them when there is no
  range. -/
  plain : Option (Int × Int)
  /-- A whole number written plainly ends in `.0`. -/
  keepFraction : Bool
  /-- The choice between two shortest decimals that are equally near. -/
  tie : Tie

/-- Digits with the point after the first `point` of them, filled up with zeros. -/
def plainDigits (keepFraction : Bool) (digits : List Char) (point : Int) : List Char :=
  if point ≤ 0 then '0' :: '.' :: (List.replicate (-point).toNat '0' ++ digits)
  else if digits.length ≤ point.toNat then
    digits ++ List.replicate (point.toNat - digits.length) '0' ++
      (if keepFraction then ['.', '0'] else [])
  else digits.take point.toNat ++ '.' :: digits.drop point.toNat

/-- Digits with the point after the first one, and the power of ten that this takes. -/
def exponentDigits (digits : List Char) (power : Int) : List Char :=
  let fraction := match digits.drop 1 with
    | [] => []
    | rest => '.' :: rest
  digits.take 1 ++ fraction ++
    'e' :: (if power < 0 then '-' else '+') :: Text.decimal power.natAbs

/-- The text of a number in a layout. -/
def text (layout : Layout) : Binary64 → String
  | nan => "NaN"
  | infinity s => if s then "-inf" else "inf"
  | finite s m e =>
    let (digits, k) := if m = 0 then (0, 0) else shortest layout.tie m e
    let cs := Text.decimal digits
    let power : Int := cs.length + k - 1
    let plainly := match layout.plain with
      | none => true
      | some (low, high) => decide (low ≤ power ∧ power < high)
    let body :=
      if plainly then plainDigits layout.keepFraction cs (power + 1) else exponentDigits cs power
    String.ofList (if s then '-' :: body else body)

end Binary64
end Querysmith
