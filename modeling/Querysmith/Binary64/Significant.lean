/-
# A number of significant digits

The decimal with a given number of digits that is nearest to a number, halfway cases going up.
-/

import Querysmith.Binary64

namespace Querysmith
namespace Binary64

/-- The power of ten of the leading digit of `num / den`: the greatest `p ≤ guess` with
`10^p ≤ num / den` that is found in `steps` steps down. -/
def leadingPower (num den : Nat) : Nat → Int → Int
  | 0, guess => guess
  | steps + 1, guess =>
    let (up, down) := tenPower guess
    if up * den ≤ num * down then guess else leadingPower num den steps (guess - 1)

/-- The first `count` digits of `m · 2^e`, `0 < m`, rounded half up, and the power of ten of the
leading one. -/
def significant (count m : Nat) (e : Int) : Nat × Int :=
  let (up, down) := twoPower e
  let bits : Int := Nat.log2 m + e
  let power := leadingPower (m * up) down 4 (bits * 30103 / 100000 + 2)
  let (tenUp, tenDown) := tenPower (power - count + 1)
  let num := m * up * tenDown
  let den := down * tenUp
  let digits := (2 * num + den) / (2 * den)
  if digits = Nat.pow 10 count then (Nat.pow 10 (count - 1), power + 1) else (digits, power)

end Binary64
end Querysmith
