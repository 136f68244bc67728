/-
# The fewest digits that read back

The reals that round to a finite number `m · 2^e` form an interval: from halfway to the neighbour
below to halfway to the neighbour above, the ends included exactly when `m` is even.  The shortest
decimal is looked for on coarser to finer grids `10^k`; on each the two neighbours of the number are
tried, the first grid with a hit wins, and of two hits the nearer one.

The interval is measured in quarters of a unit of the last place, so that the gap below a power of
two, which is half as wide, also has whole ends.
-/

import Querysmith.Binary64

namespace Querysmith
namespace Binary64

/-- What is chosen of two decimals that are equally near. -/
inductive Tie where
  /-- The one whose last digit is even. -/
  | toEven
  /-- The greater one. -/
  | up
  deriving DecidableEq, Repr

/-- The lower end of the interval of `m · 2^e`, in quarters of `2^e`. -/
def lowerEnd (m : Nat) (e : Int) : Nat :=
  if m = halfWidth ∧ minExponent < e then 4 * m - 1 else 4 * m - 2

/-- The upper end of the interval of `m · 2^e`, in quarters of `2^e`. -/
def upperEnd (m : Nat) : Nat := 4 * m + 2

/-- The hit on the grid `10^k`: the `digits` for which `digits · 10^k` rounds to `m · 2^e`. -/
def gridHit? (tie : Tie) (m : Nat) (e k : Int) : Option Nat :=
  let (twoUp, twoDown) := twoPower (e - 2)
  let (tenUp, tenDown) := tenPower k
  let unit := twoUp * tenDown
  let den := twoDown * tenUp
  let num := 4 * m * unit
  let low := lowerEnd m e * unit
  let high := upperEnd m * unit
  let q := num / den
  let lowHit := low < q * den ∨ (low = q * den ∧ m % 2 = 0)
  let highHit := (q + 1) * den < high ∨ ((q + 1) * den = high ∧ m % 2 = 0)
  if q * den = num then some q
  else if lowHit ∧ highHit then
    let twice := 2 * (num % den)
    if twice < den then some q
    else if den < twice then some (q + 1)
    else match tie with
      | .toEven => some (if q % 2 = 0 then q else q + 1)
      | .up => some (q + 1)
  else if lowHit then some q
  else if highHit then some (q + 1)
  else none

/-- Walks from the grid `10^k` to finer ones, at most `steps` times, to the first with a hit. -/
def firstHit (tie : Tie) (m : Nat) (e : Int) : Nat → Int → Nat × Int
  | 0, k => ((gridHit? tie m e k).getD 0, k)
  | steps + 1, k =>
    match gridHit? tie m e k with
    | some digits => (digits, k)
    | none => firstHit tie m e steps (k - 1)

/-- The digits and the power of ten of the shortest decimal that reads back as `m · 2^e`, `0 < m`.
The first grid is coarser than the number, and seventeen digits always suffice. -/
def shortest (tie : Tie) (m : Nat) (e : Int) : Nat × Int :=
  let bits : Int := Nat.log2 m + e
  firstHit tie m e 24 (bits * 30103 / 100000 + 2)

end Binary64
end Querysmith
