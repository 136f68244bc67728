/-
# Digits that are not zero

The shortest decimal of a number that is not zero has digits that are not zero.  A hit on a grid is
no zero, since the interval of the number ends above zero (`pos_of_gridHit?`).  The walk over the
grids ends at a hit or on its last grid (`firstHit_cases`), and the last grid has a hit too when it
writes whole numbers of up to sixteen digits, since its step is at most half of the interval
(`exists_gridHit?_last`).  Longer and finer decimals are not looked at here: they are written with a
point or an exponent, and there a zero is like any other digit.
-/

import Querysmith.Binary64.Shortest
import Querysmith.Proofs.Binary64.Rounding

namespace Querysmith
namespace Binary64

variable {tie : Tie} {m : Nat} {e k : Int}

/-- The interval of a number that is not zero ends above zero. -/
theorem lowerEnd_pos (hm : 0 < m) (e : Int) : 0 < lowerEnd m e := by
  rw [lowerEnd]
  split <;> omega

section

variable (tie m e k)

/-- The number in the units of a grid, four quarters to the unit of the last place. -/
def gridUnit : Nat := (twoPower (e - 2)).1 * (tenPower k).2

/-- A step of a grid. -/
def gridStep : Nat := (twoPower (e - 2)).2 * (tenPower k).1

/-- The decimal of a grid below the number. -/
def below : Nat := 4 * m * gridUnit e k / gridStep e k

/-- The decimal below the number is in its interval. -/
def LowHit : Prop :=
  lowerEnd m e * gridUnit e k < below m e k * gridStep e k ∨
    (lowerEnd m e * gridUnit e k = below m e k * gridStep e k ∧ m % 2 = 0)

/-- The decimal above the number is in its interval. -/
def HighHit : Prop :=
  (below m e k + 1) * gridStep e k < upperEnd m * gridUnit e k ∨
    ((below m e k + 1) * gridStep e k = upperEnd m * gridUnit e k ∧ m % 2 = 0)

instance : Decidable (LowHit m e k) := inferInstanceAs (Decidable (_ ∨ _))

instance : Decidable (HighHit m e k) := inferInstanceAs (Decidable (_ ∨ _))

/-- The decimal of the two around the number that is nearer to it. -/
def nearer? : Option Nat :=
  if 2 * (4 * m * gridUnit e k % gridStep e k) < gridStep e k then some (below m e k)
  else if gridStep e k < 2 * (4 * m * gridUnit e k % gridStep e k) then some (below m e k + 1)
  else match tie with
    | .toEven => some (if below m e k % 2 = 0 then below m e k else below m e k + 1)
    | .up => some (below m e k + 1)

/-- On a grid a number is hit where it lies on a point, and otherwise by the neighbours that read
back as it, the nearer one when both do. -/
theorem gridHit?_eq : gridHit? tie m e k =
    if below m e k * gridStep e k = 4 * m * gridUnit e k then some (below m e k)
    else if LowHit m e k ∧ HighHit m e k then nearer? tie m e k
    else if LowHit m e k then some (below m e k)
    else if HighHit m e k then some (below m e k + 1)
    else none := rfl

/-- The nearer one of two neighbours is one of the two. -/
theorem nearer?_cases :
    nearer? tie m e k = some (below m e k) ∨ nearer? tie m e k = some (below m e k + 1) := by
  unfold nearer?
  cases tie <;> grind

/-- A hit is the decimal below the number, when it is in the interval, or the next one. -/
theorem gridHit?_cases {digits : Nat} (h : gridHit? tie m e k = some digits) :
    (digits = below m e k ∧ (below m e k * gridStep e k = 4 * m * gridUnit e k ∨ LowHit m e k)) ∨
      digits = below m e k + 1 := by
  have hnearer := nearer?_cases tie m e k
  rw [gridHit?_eq] at h
  grind

/-- A decimal above the number is a hit when it is in the interval. -/
theorem exists_gridHit? (h : HighHit m e k) : ∃ digits, gridHit? tie m e k = some digits := by
  have hnearer := nearer?_cases tie m e k
  rw [gridHit?_eq]
  grind

end

/-- **A hit is no zero.** -/
theorem pos_of_gridHit? (hm : 0 < m) {digits : Nat} (h : gridHit? tie m e k = some digits) :
    0 < digits := by
  have hunit : 0 < gridUnit e k :=
    Nat.mul_pos (twoPower_fst_pos _) (Nat.pow_pos (by decide))
  have hnum : 0 < 4 * m * gridUnit e k := Nat.mul_pos (by omega) hunit
  have hlow : 0 < lowerEnd m e * gridUnit e k := Nat.mul_pos (lowerEnd_pos hm e) hunit
  rcases gridHit?_cases tie m e k h with ⟨rfl, hhit⟩ | rfl
  · have hpos : 0 < below m e k * gridStep e k := by
      rcases hhit with hexact | habove | ⟨hend, -⟩ <;> omega
    exact Nat.pos_of_mul_pos_right hpos
  · exact Nat.succ_pos _

/-- **The walk ends at a hit,** or without one on its last grid. -/
theorem firstHit_cases (tie : Tie) (m : Nat) (e : Int) (steps : Nat) (k : Int) :
    gridHit? tie m e (firstHit tie m e steps k).2 = some (firstHit tie m e steps k).1 ∨
      (firstHit tie m e steps k).2 = k - steps ∧ gridHit? tie m e (k - steps) = none := by
  induction steps generalizing k with
  | zero =>
    rw [firstHit, Int.natCast_zero, Int.sub_zero]
    cases gridHit? tie m e k with
    | none => exact .inr ⟨rfl, rfl⟩
    | some digits => exact .inl rfl
  | succ steps ih =>
    rw [firstHit]
    split
    · exact .inl ‹_›
    · rw [Int.natCast_succ, show k - (steps + 1 : Int) = k - 1 - steps by omega]
      exact ih (k - 1)

/-- A grid whose step is at most half of the interval has a hit. -/
theorem exists_gridHit?_of_le (tie : Tie) (m : Nat)
    (hstep : gridStep e k ≤ 2 * gridUnit e k) : ∃ digits, gridHit? tie m e k = some digits := by
  have hbelow : below m e k * gridStep e k ≤ 4 * m * gridUnit e k := Nat.div_mul_le_self _ _
  rcases hbelow.eq_or_lt with hexact | hlt
  · exact ⟨_, (gridHit?_eq tie m e k).trans (if_pos hexact)⟩
  · refine exists_gridHit? tie m e k (.inl ?_)
    rw [upperEnd, Nat.add_mul, Nat.add_mul]
    omega

/-- On the last grid of the walk, whole numbers of up to sixteen digits have a hit. -/
theorem exists_gridHit?_last (tie : Tie) (hpos : 0 < m) (hm : m < fullWidth) (hk : 1 ≤ k)
    (hk' : k ≤ 16) (hlast : k = (Nat.log2 m + e) * 30103 / 100000 - 22) :
    ∃ digits, gridHit? tie m e k = some digits := by
  have hlog : Nat.log2 m < 53 := (Nat.log2_lt hpos.ne').2 hm
  obtain ⟨a, rfl⟩ := Int.eq_ofNat_of_zero_le (show 0 ≤ k by omega)
  obtain ⟨b, hb⟩ := Int.eq_ofNat_of_zero_le (show 0 ≤ e - 2 by omega)
  have hab : 4 * a ≤ b + 1 := by omega
  refine exists_gridHit?_of_le tie m ?_
  rw [gridStep, gridUnit, hb]
  calc (twoPower b).2 * (tenPower a).1 = 10 ^ a := by simp [twoPower, tenPower]
    _ ≤ 16 ^ a := Nat.pow_le_pow_left (by decide) a
    _ = 2 ^ (4 * a) := by rw [Nat.pow_mul]
    _ ≤ 2 ^ (b + 1) := Nat.pow_le_pow_right (by decide) hab
    _ = 2 * ((twoPower b).1 * (tenPower a).2) := by simp [twoPower, tenPower, pow_succ']

/-- **The shortest decimal of a number that is not zero has no zero for its digits,** when it
writes a whole number of up to sixteen digits. -/
theorem pos_of_shortest (tie : Tie) (hpos : 0 < m) (hm : m < fullWidth) (e : Int)
    (hk : 1 ≤ (shortest tie m e).2) (hk' : (shortest tie m e).2 ≤ 16) :
    0 < (shortest tie m e).1 := by
  rw [shortest] at hk hk' ⊢
  rcases firstHit_cases tie m e 24 ((Nat.log2 m + e) * 30103 / 100000 + 2) with
    hhit | ⟨hlast, hnone⟩
  · exact pos_of_gridHit? hpos hhit
  · rw [hlast] at hk hk'
    obtain ⟨digits, hhit⟩ := exists_gridHit?_last (e := e) tie hpos hm hk hk' (by omega)
    rw [hnone] at hhit
    cases hhit

end Binary64
end Querysmith
