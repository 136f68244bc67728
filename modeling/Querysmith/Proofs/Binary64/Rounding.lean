/-
# Rounding

The exponent of a rounded ratio is the one that gives the significand its bits (`exponentOf_spec`),
so the significand never exceeds them (`exists_round`), and a ratio below `2^64` has a finite number
with a small exponent (`isSmall_round`).  A power of ten is at least two, so the quotient of a small
number by one is small again (`isSmall_overTen`): dividing over and over never leaves the format.
-/

import Mathlib.Algebra.Order.Field.Power
import Mathlib.Algebra.Order.Field.Rat
import Mathlib.Tactic.Linarith
import Mathlib.Tactic.Ring
import Querysmith.Binary64

namespace Querysmith
namespace Binary64

/-- The number is finite, and its significand has no more bits than the format. -/
def IsKept : Binary64 → Prop
  | finite _ m _ => m < fullWidth
  | _ => False

/-- The number is finite and at most `2^65`. -/
def IsSmall : Binary64 → Prop
  | finite _ m e => m < fullWidth ∧ e ≤ 12
  | _ => False

/-- A power of two is a ratio. -/
theorem twoPower_fst (e : Int) : ((twoPower e).1 : ℚ) = 2 ^ e * (twoPower e).2 := by
  rcases Int.le_total 0 e with he | he
  · obtain ⟨n, rfl⟩ := Int.eq_ofNat_of_zero_le he
    simp [twoPower]
  · obtain ⟨n, hn⟩ := Int.eq_ofNat_of_zero_le (Int.neg_nonneg_of_nonpos he)
    obtain rfl : e = -(n : Int) := by omega
    simp [twoPower]

/-- The numerator of a power of two is not zero. -/
theorem twoPower_fst_pos (e : Int) : 0 < (twoPower e).1 := Nat.pow_pos (by decide)

/-- The denominator of a power of two is not zero. -/
theorem twoPower_snd_pos (e : Int) : 0 < (twoPower e).2 := Nat.pow_pos (by decide)

/-- Powers of two are scaled over a denominator. -/
theorem two_zpow_le {a b : Int} (h : a ≤ b) (den : Nat) :
    (2 : ℚ) ^ a * den ≤ 2 ^ b * den := by
  have hpow : (2 : ℚ) ^ a ≤ 2 ^ b := zpow_le_zpow_right₀ one_le_two h
  gcongr

/-- The numbers of bits of a ratio's parts bound it. -/
theorem ratio_bounds {num : Nat} (hnum : 0 < num) (den : Nat) :
    2 ^ ((Nat.log2 num : Int) - Nat.log2 den - 1) * den ≤ (num : ℚ) ∧
      (0 < den → (num : ℚ) < 2 ^ ((Nat.log2 num : Int) - Nat.log2 den + 1) * den) := by
  have hpow : ∀ n : Nat, ((2 ^ n : Nat) : ℚ) = 2 ^ (n : Int) := by
    intro n
    rw [zpow_natCast, Nat.cast_pow, Nat.cast_ofNat]
  constructor
  · -- The denominator is below the power of two above it, and the numerator is at least its own.
    have hden : (den : ℚ) ≤ ((2 ^ (den.log2 + 1) : Nat) : ℚ) := by
      exact_mod_cast Nat.lt_log2_self.le
    calc (2 : ℚ) ^ ((Nat.log2 num : Int) - Nat.log2 den - 1) * den
        ≤ 2 ^ ((Nat.log2 num : Int) - Nat.log2 den - 1) * ((2 ^ (den.log2 + 1) : Nat) : ℚ) := by
          gcongr
      _ = ((2 ^ num.log2 : Nat) : ℚ) := by
          rw [hpow, hpow, ← zpow_add₀ two_ne_zero]
          congr 1
          omega
      _ ≤ num := by exact_mod_cast Nat.log2_self_le hnum.ne'
  · -- The same the other way round: the numerator is below the power above it.
    intro hden
    have hle : ((2 ^ den.log2 : Nat) : ℚ) ≤ den := by
      exact_mod_cast Nat.log2_self_le hden.ne'
    calc (num : ℚ) < ((2 ^ (num.log2 + 1) : Nat) : ℚ) := by exact_mod_cast Nat.lt_log2_self
      _ = 2 ^ ((Nat.log2 num : Int) - Nat.log2 den + 1) * ((2 ^ den.log2 : Nat) : ℚ) := by
          rw [hpow, hpow, ← zpow_add₀ two_ne_zero]
          congr 1
          omega
      _ ≤ 2 ^ ((Nat.log2 num : Int) - Nat.log2 den + 1) * den := by gcongr

/-- The quotient by a power of two has so many bits when the ratio is great enough. -/
theorem pow_le_quotient_iff {num den : Nat} (hden : 0 < den) (e : Int) (bits : Nat) :
    2 ^ bits ≤ num * (twoPower e).2 / (den * (twoPower e).1) ↔
      2 ^ (e + bits) * den ≤ (num : ℚ) := by
  have hdown : (0 : ℚ) < (twoPower e).2 := by exact_mod_cast twoPower_snd_pos e
  have hcast : ((2 ^ bits * (den * (twoPower e).1) : Nat) : ℚ) =
      2 ^ (e + bits) * den * (twoPower e).2 := by
    push_cast
    rw [twoPower_fst, zpow_add₀ two_ne_zero, zpow_natCast]
    ring
  rw [Nat.le_div_iff_mul_le (Nat.mul_pos hden (twoPower_fst_pos e)),
    ← Nat.cast_le (α := ℚ), hcast, Nat.cast_mul, mul_le_mul_iff_of_pos_right hdown]

/-- The exponent gives a ratio a significand below `2^53`, and one from `2^52` on unless it is the
least exponent. -/
theorem exponentOf_spec {num den : Nat} (hnum : 0 < num) (hden : 0 < den) :
    (num : ℚ) < 2 ^ (exponentOf num den + 53) * den ∧
      (exponentOf num den = minExponent ∨
        2 ^ (exponentOf num den + 52) * den ≤ (num : ℚ)) := by
  -- The numbers of bits leave two exponents to choose from, and the quotient decides between them.
  obtain ⟨hlow, hhigh⟩ := ratio_bounds hnum den
  generalize hguess : (Nat.log2 num : Int) - Nat.log2 den - 53 = guess
  have hfull : fullWidth ≤ num * (twoPower guess).2 / (den * (twoPower guess).1) ↔
      2 ^ (guess + 53) * den ≤ (num : ℚ) := pow_le_quotient_iff hden guess 53
  have hexponent : exponentOf num den = max minExponent
      (if 2 ^ (guess + 53) * den ≤ (num : ℚ) then guess + 1 else guess) := by
    rw [← if_congr hfull rfl rfl, ← hguess]
    rfl
  rw [hexponent]
  split
  · rename_i hfull
    constructor
    · exact (hhigh hden).trans_le (two_zpow_le (by omega) den)
    · rcases Int.le_total (guess + 1) minExponent with hmin | hmin
      · exact .inl (max_eq_left hmin)
      · rw [max_eq_right hmin]
        exact .inr (le_trans (two_zpow_le (by omega) den) hfull)
  · rename_i hfull
    constructor
    · exact (not_le.1 hfull).trans_le (two_zpow_le (by omega) den)
    · rcases Int.le_total guess minExponent with hmin | hmin
      · exact .inl (max_eq_left hmin)
      · rw [max_eq_right hmin]
        exact .inr (le_trans (two_zpow_le (by omega) den) hlow)

/-- A rounded quotient is at most one more than the quotient without its fraction. -/
theorem divideToEven_le (num den : Nat) : divideToEven num den ≤ num / den + 1 := by
  rw [divideToEven]
  grind

/-- A rounded quotient is no less than the quotient without its fraction. -/
theorem div_le_divideToEven (num den : Nat) : num / den ≤ divideToEven num den := by
  rw [divideToEven]
  grind

/-- The quotient by the power of the exponent has the bits of a significand. -/
theorem quotient_spec {num den : Nat} (hnum : 0 < num) (hden : 0 < den) :
    divideToEven (num * (twoPower (exponentOf num den)).2)
        (den * (twoPower (exponentOf num den)).1) ≤ fullWidth ∧
      (exponentOf num den = minExponent ∨
        halfWidth ≤ divideToEven (num * (twoPower (exponentOf num den)).2)
          (den * (twoPower (exponentOf num den)).1)) := by
  obtain ⟨hhigh, hlow⟩ := exponentOf_spec hnum hden
  generalize exponentOf num den = e at hhigh hlow
  have hquotient : num * (twoPower e).2 / (den * (twoPower e).1) < fullWidth :=
    not_le.1 fun hfull => hhigh.not_ge ((pow_le_quotient_iff hden e 53).1 hfull)
  refine ⟨(divideToEven_le _ _).trans hquotient, hlow.imp_right fun hlow => ?_⟩
  exact ((pow_le_quotient_iff hden e 52).2 hlow).trans (div_le_divideToEven _ _)

/-- **What rounding gives:** a significand in its bounds, and the exponent of the ratio or, where
the significand was rounded up to its bound, the next one. -/
theorem exists_round (negative : Bool) {num den : Nat} (hnum : 0 < num) (hden : 0 < den) :
    ∃ m e, m < fullWidth ∧ (e = exponentOf num den ∨ e = exponentOf num den + 1) ∧
      (exponentOf num den = minExponent ∨ halfWidth ≤ m) ∧
      round negative num den = if maxExponent < e then infinity negative
        else finite negative m e := by
  obtain ⟨hfull, hhalf⟩ := quotient_spec hnum hden
  rw [round, if_neg hnum.ne']
  simp only
  split
  · exact ⟨_, _, by decide, .inr rfl, .inr le_rfl, rfl⟩
  · rename_i hne
    exact ⟨_, _, lt_of_le_of_ne hfull hne, .inl rfl, hhalf, rfl⟩

/-- Rounding gives an infinity or a number with a significand of the format. -/
theorem round_cases (negative : Bool) (num : Nat) {den : Nat} (hden : 0 < den) :
    round negative num den = infinity negative ∨
      ∃ m e, round negative num den = finite negative m e ∧ m < fullWidth := by
  rcases Nat.eq_zero_or_pos num with rfl | hnum
  · exact .inr ⟨0, minExponent, rfl, by decide⟩
  · obtain ⟨m, e, hm, -, -, hround⟩ := exists_round negative hnum hden
    rw [hround]
    split
    · exact .inl rfl
    · exact .inr ⟨m, e, rfl, hm⟩

/-- **A ratio below `2^64` rounds to a small number.** -/
theorem isSmall_round (negative : Bool) {num den : Nat} (hden : 0 < den)
    (h : num < 2 ^ 64 * den) : (round negative num den).IsSmall := by
  rcases Nat.eq_zero_or_pos num with rfl | hnum
  · exact ⟨by decide, by decide⟩
  · obtain ⟨m, e, hm, he, -, hround⟩ := exists_round negative hnum hden
    have hexponent : exponentOf num den ≤ 11 := by
      rcases (exponentOf_spec hnum hden).2 with hmin | hlow
      · rw [hmin]
        decide
      · have hcast : (num : ℚ) < 2 ^ (64 : Int) * den := by exact_mod_cast h
        by_contra hgreat
        exact absurd (two_zpow_le (by omega) den |>.trans hlow) hcast.not_ge
    rw [hround, if_neg (by rw [maxExponent]; omega)]
    exact ⟨hm, by omega⟩

/-- A whole number from two on rounds to no less than two. -/
theorem two_le_round {negative sign : Bool} {n m : Nat} {e : Int} (hn : 2 ≤ n)
    (h : round negative n 1 = finite sign m e) :
    2 * (twoPower e).2 ≤ m * (twoPower e).1 := by
  have hpos : 0 < n := by omega
  obtain ⟨hhigh, -⟩ := exponentOf_spec hpos one_pos
  -- With a smaller exponent the number would be below two.
  have hexponent : -51 ≤ exponentOf n 1 := by
    by_contra hlow
    have hcast : ((2 : ℚ)) ≤ n := by exact_mod_cast hn
    have hpow := two_zpow_le (a := exponentOf n 1 + 53) (b := 1) (by omega) 1
    rw [zpow_one, Nat.cast_one, mul_one, mul_one] at hpow
    rw [Nat.cast_one, mul_one] at hhigh
    linarith
  obtain ⟨m', e', hm, he, hhalf, hround⟩ := exists_round negative hpos one_pos
  -- So the exponent is not the least one, and the significand is full.
  have hm' : halfWidth ≤ m' := hhalf.resolve_left fun hmin => by
    rw [hmin] at hexponent
    exact absurd hexponent (by decide)
  rw [hround] at h
  split at h
  · cases h
  · obtain ⟨-, rfl, rfl⟩ := finite.inj h
    calc 2 * (twoPower e').2 ≤ 2 * 2 ^ 51 := by
          have hdown : (twoPower e').2 ≤ 2 ^ 51 :=
            Nat.pow_le_pow_right (by decide) (show (-e').toNat ≤ 51 by omega)
          omega
      _ ≤ m' * 1 := by rw [halfWidth] at hm'; omega
      _ ≤ m' * (twoPower e').1 := Nat.mul_le_mul_left _ (twoPower_fst_pos e')

/-- A small number is below `2^65`. -/
theorem IsSmall.lt {negative : Bool} {m : Nat} {e : Int} (h : (finite negative m e).IsSmall) :
    m * (twoPower e).1 < 2 ^ 65 * (twoPower e).2 := by
  have hup : (twoPower e).1 ≤ 2 ^ 12 :=
    Nat.pow_le_pow_right (by decide) (show e.toNat ≤ 12 by have := h.2; omega)
  calc m * (twoPower e).1 ≤ m * 2 ^ 12 := Nat.mul_le_mul_left _ hup
    _ < fullWidth * 2 ^ 12 := Nat.mul_lt_mul_of_pos_right h.1 (by decide)
    _ = 2 ^ 65 * 1 := by decide
    _ ≤ 2 ^ 65 * (twoPower e).2 := Nat.mul_le_mul_left _ (twoPower_snd_pos e)

/-- **The quotient of a small number by a power of ten is small.** -/
theorem isSmall_overTen {x : Binary64} (h : x.IsSmall) {n : Nat} (hn : 0 < n) :
    (x.overTen n).IsSmall := by
  have hpow : 2 ≤ Nat.pow 10 n :=
    (show 2 ≤ 10 ^ 1 by decide).trans (Nat.pow_le_pow_right (by decide) hn)
  rw [overTen.eq_def]
  split
  · rename_i negative m e negative' m' e' hpower
    have htwo : 2 * (twoPower e').2 ≤ m' * (twoPower e').1 := two_le_round hpow hpower
    have hdown := twoPower_snd_pos e
    have hdown' := twoPower_snd_pos e'
    have hpos : 0 < m' * (twoPower e').1 := by omega
    refine isSmall_round negative (Nat.mul_pos hdown hpos) ?_
    calc m * (twoPower e).1 * (twoPower e').2 < 2 ^ 65 * (twoPower e).2 * (twoPower e').2 :=
          Nat.mul_lt_mul_of_pos_right h.lt hdown'
      _ = 2 ^ 64 * ((twoPower e).2 * (2 * (twoPower e').2)) := by ring
      _ ≤ 2 ^ 64 * ((twoPower e).2 * (m' * (twoPower e').1)) := by gcongr
  · exact h

/-- A small number has a significand of the format. -/
theorem IsSmall.isKept {x : Binary64} (h : x.IsSmall) : x.IsKept := by
  cases x with
  | finite negative m e => exact h.1
  | infinity _ | nan => exact h

/-- A zero of either sign is a number of the format. -/
theorem isKept_zero (negative : Bool) : (zero negative).IsKept := by
  show 0 < fullWidth
  decide

/-- What rounding keeps finite has a significand of the format. -/
theorem isKept_round {negative : Bool} {num den : Nat} (hden : 0 < den)
    (h : (round negative num den).isFinite = true) : (round negative num den).IsKept := by
  rcases round_cases negative num hden with hround | ⟨m, e, hround, hm⟩
  · rw [hround] at h
    cases h
  · rw [hround]
    exact hm

/-- A product with a power of ten that is finite has a significand of the format. -/
theorem isKept_timesTen {x : Binary64} (hx : x.IsKept) {n : Nat}
    (h : (x.timesTen n).isFinite = true) : (x.timesTen n).IsKept := by
  rw [timesTen.eq_def] at h ⊢
  split at h
  · exact isKept_round (Nat.mul_pos (twoPower_snd_pos _) (twoPower_snd_pos _)) h
  · exact hx

/-- **A decimal becomes a number of the format** unless it is out of range. -/
theorem isKept_ofDecimal {negative : Bool} {digits width : Nat} {exponent : Int}
    (h : (ofDecimal negative digits width exponent).isFinite = true) :
    (ofDecimal negative digits width exponent).IsKept := by
  unfold ofDecimal at h ⊢
  split at h
  · rw [if_pos ‹_›]
    exact isKept_zero negative
  rw [if_neg ‹_›]
  split at h
  · cases h
  · rw [if_neg ‹_›]
    exact isKept_round (Nat.pow_pos (by decide)) h

/-- A finite number that a text writes has a significand of the format. -/
theorem isKept_of_ofText? {s : String} {x : Binary64} (h : ofText? s = some x)
    (hx : x.isFinite = true) : x.IsKept := by
  have hdecimal : ∀ {negative digits width exponent},
      some (ofDecimal negative digits width exponent) = some x → x.IsKept := by
    rintro negative digits width exponent ⟨⟩
    exact isKept_ofDecimal hx
  unfold ofText? at h
  simp only at h
  split_ifs at h
  · cases h
    cases hx
  · cases h
    cases hx
  · repeat' split at h
    all_goals first | exact hdecimal h | cases h

end Binary64
end Querysmith
