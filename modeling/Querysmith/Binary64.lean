/-
# Binary64 numbers

A number of the 64-bit floating format as a sign, a natural significand and a power of two, so that
every operation is exact arithmetic followed by one rounding.

A finite number `± m · 2^e` is kept with `-1074 ≤ e`, `m < 2^53`, and `2^52 ≤ m` unless `e = -1074`;
`round` is the only function that makes one from an arbitrary ratio, and it goes to the nearest
such number, a tie to the even significand.
-/

import Querysmith.Text

namespace Querysmith

/-- A number of the 64-bit floating format. -/
inductive Binary64 where
  /-- The number `significand · 2^exponent`, negated when `negative`; zero has both signs. -/
  | finite (negative : Bool) (significand : Nat) (exponent : Int)
  /-- An infinity. -/
  | infinity (negative : Bool)
  /-- Not a number. -/
  | nan
  deriving DecidableEq, Inhabited, Repr

namespace Binary64

/-- The bound of significands, `2^53`. -/
def fullWidth : Nat := 9007199254740992

/-- The least significand of full width, `2^52`. -/
def halfWidth : Nat := 4503599627370496

/-- The least exponent, that of the numbers below `2^-1022`. -/
def minExponent : Int := -1074

/-- The greatest exponent of a finite number. -/
def maxExponent : Int := 971

/-- The zero of a sign. -/
def zero (negative : Bool) : Binary64 := finite negative 0 minExponent

/-- `2^e` as a ratio of natural numbers. -/
def twoPower (e : Int) : Nat × Nat :=
  (Nat.pow 2 e.toNat, Nat.pow 2 (-e).toNat)

/-- `10^e` as a ratio of natural numbers. -/
def tenPower (e : Int) : Nat × Nat :=
  (Nat.pow 10 e.toNat, Nat.pow 10 (-e).toNat)

/-- The whole number nearest to `num / den`, a tie to the even one. -/
def divideToEven (num den : Nat) : Nat :=
  let q := num / den
  let r := num % den
  if den < 2 * r ∨ (2 * r = den ∧ q % 2 = 1) then q + 1 else q

/-- The exponent that gives the ratio `num / den` a significand of 53 bits, or the least one. -/
def exponentOf (num den : Nat) : Int :=
  let guess : Int := (Nat.log2 num : Int) - Nat.log2 den - 53
  let (up, down) := twoPower guess
  max minExponent (if fullWidth ≤ num * down / (den * up) then guess + 1 else guess)

/-- The number nearest to `num / den`, a tie to the even significand.  A ratio beyond the greatest
finite number by half a unit or more gives an infinity. -/
def round (negative : Bool) (num den : Nat) : Binary64 :=
  if num = 0 then zero negative
  else
    let e := exponentOf num den
    let (up, down) := twoPower e
    let m := divideToEven (num * down) (den * up)
    let (m, e) := if m = fullWidth then (halfWidth, e + 1) else (m, e)
    if maxExponent < e then infinity negative else finite negative m e

/-- The number nearest to an integer. -/
def ofInt (i : Int) : Binary64 :=
  round (decide (i < 0)) i.natAbs 1

/-- The number nearest to `digits · 10^exponent`, where `digits` was written with at most `width`
digits.  A power far outside the range of the format is not computed. -/
def ofDecimal (negative : Bool) (digits width : Nat) (exponent : Int) : Binary64 :=
  if digits = 0 ∨ width + exponent < -400 then zero negative
  else if 400 < exponent then infinity negative
  else
    let (up, down) := tenPower exponent
    round negative (digits * up) down

/-- The number nearest to the product of a magnitude `m · 2^e` and a ratio. -/
def scaled (negative : Bool) (m : Nat) (e : Int) (num den : Nat) : Binary64 :=
  let (up, down) := twoPower e
  round negative (m * up * num) (down * den)

/-- The product with the power of ten `10^n`, the power itself rounded first. -/
def timesTen (x : Binary64) (n : Nat) : Binary64 :=
  match x, round false (Nat.pow 10 n) 1 with
  | finite s m e, finite _ m' e' =>
    let (up, down) := twoPower e'
    scaled s m e (m' * up) down
  | _, _ => x

/-- The quotient by the power of ten `10^n`, the power itself rounded first. -/
def overTen (x : Binary64) (n : Nat) : Binary64 :=
  match x, round false (Nat.pow 10 n) 1 with
  | finite s m e, finite _ m' e' =>
    let (up, down) := twoPower e'
    scaled s m e down (m' * up)
  | _, _ => x

/-- The number is a zero of either sign. -/
def isZero : Binary64 → Bool
  | finite _ m _ => m == 0
  | _ => false

/-- The number is neither an infinity nor not a number. -/
def isFinite : Binary64 → Bool
  | finite .. => true
  | _ => false

/-- The greatest integer that is not above a finite number. -/
def floor? : Binary64 → Option Int
  | finite s m e =>
    let (up, down) := twoPower e
    let signed : Int := if s then -(m * up : Nat) else (m * up : Nat)
    some (signed / (down : Int))
  | _ => none

/-- The integer that a finite number is equal to. -/
def toInt? (x : Binary64) : Option Int :=
  match x with
  | finite _ m e => if m * (twoPower e).1 % (twoPower e).2 = 0 then x.floor? else none
  | _ => none

/-- A finite number as the ratio of an integer and a positive natural number. -/
def toRatio? : Binary64 → Option (Int × Nat)
  | finite s m e =>
    let (up, down) := twoPower e
    some (if s then -(m * up : Nat) else (m * up : Nat), down)
  | _ => none

/-- Reads `0`, `1.5e3`, `.5`, `5.`, `+1`, `inf`, `-Infinity` or `NaN` in either case: a decimal
with a digit on at least one side of the point is rounded to the nearest number. -/
def ofText? (s : String) : Option Binary64 :=
  let (negative, cs) := match s.toList with
    | '-' :: cs => (true, cs)
    | '+' :: cs => (false, cs)
    | cs => (false, cs)
  let word := String.ofList (cs.map Char.toLower)
  if word = "inf" ∨ word = "infinity" then some (infinity negative)
  else if word = "nan" then some nan
  else
    let whole := cs.takeWhile Char.isDigit
    let (fraction, rest) := match cs.dropWhile Char.isDigit with
      | '.' :: rest => (rest.takeWhile Char.isDigit, rest.dropWhile Char.isDigit)
      | rest => ([], rest)
    let digits := whole ++ fraction
    let finish (exponent : Int) : Option Binary64 :=
      some (ofDecimal negative (Text.readDecimal digits) digits.length
        (exponent - fraction.length))
    if digits.isEmpty then none
    else match rest with
      | [] => finish 0
      | c :: rest =>
        let (back, power) := match rest with
          | '-' :: power => (true, power)
          | '+' :: power => (false, power)
          | power => (false, power)
        if (c = 'e' ∨ c = 'E') ∧ Text.isDigits power then
          let n : Int := Text.readDecimal power
          finish (if back then -n else n)
        else none

end Binary64
end Querysmith
