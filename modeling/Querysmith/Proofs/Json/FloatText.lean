/-
# The numeral of a floating number

A floating number is written as a numeral (`text_eq_spelled`): its shortest digits, plain when they
are neither too great nor too small, else with an exponent.  The value of the numeral is the
decimal itself (`value_ofFloat`), which need not be that of the floating number.  It is one that
JSON knows (`isProper_ofFloat`): the only digits that could begin with a zero and go on are those of
a whole number that is filled up with zeros, and these are not zero.  The reader makes no floating
numbers but those whose significand has the bits of the format (`isKept_of_toJson?`).
-/

import Mathlib.Data.List.Induction
import Querysmith.Binary64.Layout
import Querysmith.Proofs.Binary64.Shortest
import Querysmith.Proofs.Json.Numeral

namespace Querysmith
namespace Json
namespace Numeral

/-- Digits with the point after the first `point` of them. -/
def plain (negative : Bool) (digits : List Char) (point : Int) : Numeral :=
  if point ≤ 0 then ⟨negative, ['0'], List.replicate (-point).toNat '0' ++ digits, none⟩
  else if digits.length ≤ point.toNat then
    ⟨negative, digits ++ List.replicate (point.toNat - digits.length) '0', ['0'], none⟩
  else ⟨negative, digits.take point.toNat, digits.drop point.toNat, none⟩

/-- Digits with the point after the first one, and a power of ten. -/
def scientific (negative : Bool) (digits : List Char) (power : Int) : Numeral :=
  ⟨negative, digits.take 1, digits.drop 1, some (decide (power < 0), Text.decimal power.natAbs)⟩

/-- The layout of digits in front of a power of ten. -/
def ofDigits (negative : Bool) (digits : List Char) (k : Int) : Numeral :=
  if -5 ≤ digits.length + k - 1 ∧ digits.length + k - 1 < 16 then
    plain negative digits (digits.length + k)
  else scientific negative digits (digits.length + k - 1)

/-- The shortest digits of a magnitude and their power of ten. -/
def shortestOf (m : Nat) (e : Int) : Nat × Int :=
  if m = 0 then (0, 0) else Binary64.shortest .toEven m e

/-- The numeral that a finite number is written as. -/
def ofFloat : Binary64 → Numeral
  | .finite negative m e =>
    ofDigits negative (Text.decimal (shortestOf m e).1) (shortestOf m e).2
  | _ => ofInt 0

/-! ### What is written -/

section

variable {negative : Bool} {digits : List Char}

/-- A numeral with a fraction is spelled with its point. -/
theorem spelled_fraction {whole fraction : List Char} (hne : fraction ≠ []) :
    spelled ⟨negative, whole, fraction, none⟩ =
      (if negative then ['-'] else []) ++ (whole ++ '.' :: fraction) := by
  simp [spelled, fractionChars, exponentChars, hne]

/-- The plain numeral is spelled as the plain digits of the number. -/
theorem spelled_plain (hne : digits ≠ []) (point : Int) : (plain negative digits point).spelled =
    (if negative then ['-'] else []) ++ Binary64.plainDigits true digits point := by
  rw [plain, Binary64.plainDigits]
  by_cases hsmall : point ≤ 0
  · rw [if_pos hsmall, if_pos hsmall, spelled_fraction (List.append_ne_nil_of_right_ne_nil _ hne)]
    rfl
  rw [if_neg hsmall, if_neg hsmall]
  by_cases hgreat : digits.length ≤ point.toNat
  · rw [if_pos hgreat, if_pos hgreat, spelled_fraction (List.cons_ne_nil _ _), if_pos rfl]
  · have hbehind : digits.drop point.toNat ≠ [] := by rwa [ne_eq, List.drop_eq_nil_iff]
    rw [if_neg hgreat, if_neg hgreat, spelled_fraction hbehind]

/-- The scientific numeral is spelled as the digits of the number with their exponent. -/
theorem spelled_scientific (power : Int) : (scientific negative digits power).spelled =
    (if negative then ['-'] else []) ++ Binary64.exponentDigits digits power := by
  rw [scientific, spelled, Binary64.exponentDigits]
  cases digits.drop 1 <;> simp [fractionChars, exponentChars]

/-- The numeral of the shortest digits is spelled as the number is written, plain or scientific by
the place of its point. -/
theorem spelled_ofDigits (hne : digits ≠ []) (k : Int) : (ofDigits negative digits k).spelled =
    (if negative then ['-'] else []) ++
      if -5 ≤ digits.length + k - 1 ∧ digits.length + k - 1 < 16 then
        Binary64.plainDigits true digits (digits.length + k - 1 + 1)
      else Binary64.exponentDigits digits (digits.length + k - 1) := by
  rw [ofDigits, Int.sub_add_cancel]
  split
  · exact spelled_plain hne _
  · exact spelled_scientific _

end

/-- **A finite number is written as its numeral.** -/
theorem text_eq_spelled (negative : Bool) (m : Nat) (e : Int) :
    ((Binary64.finite negative m e).text numberLayout).toList =
      (ofFloat (.finite negative m e)).spelled := by
  rw [ofFloat, spelled_ofDigits (Text.decimal_ne_nil _), Binary64.text, String.toList_ofList]
  have hdigits : (if m = 0 then (0, 0) else Binary64.shortest numberLayout.tie m e) =
      shortestOf m e := rfl
  simp only [hdigits]
  simp only [numberLayout, decide_eq_true_eq]
  cases negative <;> rfl

/-! ### What a numeral of digits is -/

section

variable {digits : List Char} (hne : digits ≠ []) (hdigits : ∀ c ∈ digits, c.isDigit = true)
  (hzero : ∀ c cs, digits ≠ '0' :: c :: cs)

include hne hdigits hzero

/-- Digits with a point are a numeral, when those that are filled up begin with no zero. -/
theorem isProper_plain (negative : Bool) {point : Int}
    (hfill : digits.length < point → digits.head? ≠ some '0') :
    (plain negative digits point).IsProper := by
  have hzeros : ∀ n, ∀ c ∈ List.replicate n '0', c.isDigit = true := by
    intro n c hc
    rw [List.eq_of_mem_replicate hc]
    rfl
  rw [plain]
  -- The point stands in front of the digits, behind them or among them.
  split_ifs with hsmall hgreat
  · exact ⟨List.cons_ne_nil _ _, by simp, by simp,
      List.forall_mem_append.2 ⟨hzeros _, hdigits⟩, by simp⟩
  · refine ⟨List.append_ne_nil_of_left_ne_nil hne _,
      List.forall_mem_append.2 ⟨hdigits, hzeros _⟩, ?_, by simp, by simp⟩
    intro c cs hwhole
    obtain ⟨d, ds, rfl⟩ := List.exists_cons_of_ne_nil hne
    obtain rfl : d = '0' := (List.cons.inj hwhole).1
    have hrest : ds ++ List.replicate (point.toNat - ('0' :: ds).length) '0' = c :: cs :=
      (List.cons.inj hwhole).2
    rcases hgreat.eq_or_lt with hfull | hlt
    · rw [← hfull, Nat.sub_self, List.replicate_zero, List.append_nil] at hrest
      exact hzero c cs (by rw [hrest])
    · exact hfill (by omega) rfl
  · have htake : digits.take point.toNat ≠ [] := by
      rw [ne_eq, List.take_eq_nil_iff, not_or]
      exact ⟨by omega, hne⟩
    refine ⟨htake, fun c hc => hdigits c (List.mem_of_mem_take hc), ?_,
      fun c hc => hdigits c (List.mem_of_mem_drop hc), by simp⟩
    intro c cs hwhole
    exact hzero c (cs ++ digits.drop point.toNat) <| by
      rw [← List.cons_append, ← List.cons_append, ← hwhole, List.take_append_drop]

/-- Digits with an exponent are a numeral. -/
theorem isProper_scientific (negative : Bool) (power : Int) :
    (scientific negative digits power).IsProper := by
  obtain ⟨d, ds, rfl⟩ := List.exists_cons_of_ne_nil hne
  refine ⟨List.cons_ne_nil _ _, fun c hc => hdigits c (List.mem_of_mem_take hc),
    by simp [scientific], fun c hc => hdigits c (List.mem_of_mem_drop hc), ?_⟩
  intro back exponent h
  obtain ⟨-, rfl⟩ := Prod.mk.inj (Option.some.inj h)
  exact ⟨Text.decimal_ne_nil _, fun _ => Text.isDigit_of_mem_decimal⟩

end

/-- Digits that are filled up with zeros are not zero. -/
theorem pos_of_shortestOf {m : Nat} {e : Int} (hm : m < Binary64.fullWidth)
    (hk : 1 ≤ (shortestOf m e).2) (hk' : (shortestOf m e).2 ≤ 16) : 0 < (shortestOf m e).1 := by
  rw [shortestOf] at hk hk' ⊢
  split at hk
  · exact absurd hk (by decide)
  · rename_i hne
    rw [if_neg hne] at hk' ⊢
    exact Binary64.pos_of_shortest .toEven (Nat.pos_of_ne_zero hne) hm e hk hk'

/-- **The numeral of a number is one that JSON knows.** -/
theorem isProper_ofFloat {x : Binary64} (h : x.IsKept) : (ofFloat x).IsProper := by
  cases x with
  | infinity _ | nan => cases h
  | finite negative m e =>
    rw [ofFloat, ofDigits]
    split
    · exact isProper_plain (Text.decimal_ne_nil _) (fun _ => Text.isDigit_of_mem_decimal)
        (Text.decimal_ne_zero_cons _) negative fun hfill =>
          Text.head?_decimal (pos_of_shortestOf h (by omega) (by omega))
    · exact isProper_scientific (Text.decimal_ne_nil _) (fun _ => Text.isDigit_of_mem_decimal)
        (Text.decimal_ne_zero_cons _) negative _

/-! ### What it is worth -/

/-- Digits in front count for the power of ten of the digits behind them. -/
theorem readDecimal_append (cs ds : List Char) :
    Text.readDecimal (cs ++ ds) = Text.readDecimal cs * 10 ^ ds.length + Text.readDecimal ds := by
  induction ds using List.reverseRecOn with
  | nil => simp [Text.readDecimal]
  | append_singleton ds d ih =>
    rw [← List.append_assoc, Text.readDecimal_append_singleton, ih,
      Text.readDecimal_append_singleton, List.length_append, List.length_singleton]
    ring

/-- Zeros alone spell zero. -/
theorem readDecimal_zeros (n : Nat) : Text.readDecimal (List.replicate n '0') = 0 := by
  induction n with
  | zero => rfl
  | succ n ih => rw [List.replicate_succ', Text.readDecimal_append_singleton, ih]; rfl

/-- A numeral with a fraction and no exponent has the value of all its digits, over the power of ten
that the fraction is long. -/
theorem value_point (negative : Bool) (whole fraction : List Char) :
    value ⟨negative, whole, fraction, none⟩ = (if negative then -1 else 1) *
      Text.readDecimal (whole ++ fraction) * 10 ^ (-(fraction.length : Int)) := by
  rw [value, power, Int.zero_sub]

/-- The value of digits with a point. -/
theorem value_plain (negative : Bool) (digits : List Char) (point : Int) :
    (plain negative digits point).value =
      (if negative then -1 else 1) * Text.readDecimal digits * 10 ^ (point - digits.length) := by
  rw [plain]
  -- Zeros in front of the digits are worth nothing, and the fraction is as much longer.
  by_cases hsmall : point ≤ 0
  · have hread : Text.readDecimal (['0'] ++ (List.replicate (-point).toNat '0' ++ digits)) =
        Text.readDecimal digits := by
      rw [← List.append_assoc, List.singleton_append, ← List.replicate_succ, readDecimal_append,
        readDecimal_zeros, Nat.zero_mul, Nat.zero_add]
    rw [if_pos hsmall, value_point, hread, List.length_append, List.length_replicate]
    congr 2
    omega
  rw [if_neg hsmall]
  -- Zeros behind the digits are worth their powers of ten, and one of them is the fraction.
  by_cases hgreat : digits.length ≤ point.toNat
  · have hread : Text.readDecimal (digits ++
        List.replicate (point.toNat - digits.length) '0' ++ ['0']) =
          Text.readDecimal digits * 10 ^ (point.toNat - digits.length + 1) := by
      rw [List.append_assoc, ← List.replicate_succ', readDecimal_append, readDecimal_zeros,
        Nat.add_zero, List.length_replicate]
    have hpower : point - digits.length =
        ((point.toNat - digits.length + 1 : Nat) : Int) + -1 := by omega
    rw [if_pos hgreat, value_point, hread, hpower, zpow_add₀ (by decide), zpow_natCast]
    push_cast
    rw [List.length_singleton, Nat.cast_one, mul_assoc, mul_assoc, mul_assoc]
  · rw [if_neg hgreat, value_point, List.take_append_drop, List.length_drop]
    congr 2
    omega

/-- The value of digits with an exponent. -/
theorem value_scientific (negative : Bool) {digits : List Char} (hne : digits ≠ []) (power : Int) :
    (scientific negative digits power).value = (if negative then -1 else 1) *
      Text.readDecimal digits * 10 ^ (power + 1 - digits.length) := by
  have hpower : (scientific negative digits power).power = power := by
    rw [scientific, Numeral.power]
    simp only [Text.readDecimal_decimal, decide_eq_true_eq]
    split <;> omega
  have hlength := List.length_pos_iff.2 hne
  rw [value, hpower, scientific, List.take_append_drop, List.length_drop]
  congr 2
  omega

/-- **The numeral of a number has the value of its shortest decimal.** -/
theorem value_ofFloat (negative : Bool) (m : Nat) (e : Int) :
    (ofFloat (.finite negative m e)).value =
      (if negative then -1 else 1) * (shortestOf m e).1 * 10 ^ (shortestOf m e).2 := by
  rw [ofFloat, ofDigits]
  split
  · rw [value_plain, Text.readDecimal_decimal, add_sub_cancel_left]
  · rw [value_scientific _ (Text.decimal_ne_nil _), Text.readDecimal_decimal]
    congr 2
    omega

end Numeral

/-! ### What is read -/

/-- A small number stays small however far it is scaled down. -/
theorem isSmall_scaleDown {x : Binary64} (h : x.IsSmall) {n : Nat} (hn : 0 < n) :
    (scaleDown x n).IsSmall := by
  induction x, n using scaleDown.induct with
  | case1 x n hlast =>
    rw [scaleDown, if_pos hlast]
    exact Binary64.isSmall_overTen h hn
  | case2 x n hmore hzero =>
    rw [scaleDown, if_neg hmore, if_pos hzero]
    exact h
  | case3 x n hmore hzero ih =>
    rw [scaleDown, if_neg hmore, if_neg hzero]
    exact ih (Binary64.isSmall_overTen h (by decide)) (by omega)

/-- The digits that are gathered stay below the bound of the significand. -/
theorem gatherDigits_lt {n : Nat} (h : n < significandBound) (cs : List Char) :
    (gatherDigits n cs).1 < significandBound := by
  induction cs generalizing n with
  | nil => exact h
  | cons c cs ih =>
    rw [gatherDigits]
    split
    · exact ih ‹_›
    · exact h

section

variable {negative : Bool} {significand : Nat} {exponent : Int} {x : Binary64}

/-- A significand below the bound rounds to a small number. -/
theorem isSmall_significand (negative : Bool) (h : significand < significandBound) :
    (Binary64.round negative significand 1).IsSmall :=
  Binary64.isSmall_round negative Nat.one_pos h

/-- A scaled significand is a finite number of the format. -/
theorem isKept_of_scale (hsignificand : significand < significandBound)
    (h : scale negative significand exponent = some x) : x.IsKept := by
  have hsmall := isSmall_significand negative hsignificand
  rw [scale] at h
  simp only at h
  split_ifs at h with hneg hzero hbeyond hfinite
  · obtain rfl := Option.some.inj h
    exact (isSmall_scaleDown hsmall (by omega)).isKept
  · obtain rfl := Option.some.inj h
    exact hsmall.isKept
  · obtain rfl := Option.some.inj h
    exact Binary64.isKept_timesTen hsmall.isKept hfinite

/-- A significand scaled by an exponent field is a finite number of the format. -/
theorem Numeral.isKept_of_scaled? (hsignificand : significand < significandBound)
    {field : Option (Bool × List Char)}
    (h : scaled? negative significand exponent field = some x) : x.IsKept := by
  cases field with
  | none => exact isKept_of_scale hsignificand h
  | some field =>
    rw [scaled?, withExponent] at h
    split_ifs at h
    · obtain rfl := Option.some.inj h
      exact Binary64.isKept_zero negative
    · exact isKept_of_scale hsignificand h
    · exact isKept_of_scale hsignificand h

end

/-- **The reader makes no floating number but those of the format.** -/
theorem Numeral.isKept_of_toJson? {n : Numeral} {x : Binary64} (h : n.toJson? = some (float x)) :
    x.IsKept := by
  have hwhole : (gatherDigits 0 n.whole).1 < significandBound := gatherDigits_lt (by decide) _
  rw [toJson?] at h
  simp only at h
  split_ifs at h
  · rw [ofInteger] at h
    split_ifs at h
    · cases h
    · obtain rfl := float.inj (Option.some.inj h)
      exact (isSmall_significand true hwhole).isKept
    · cases h
  · obtain ⟨y, hy, hxy⟩ := Option.map_eq_some_iff.1 h
    obtain rfl := float.inj hxy
    exact isKept_of_scaled? hwhole hy
  · obtain ⟨y, hy, hxy⟩ := Option.map_eq_some_iff.1 h
    obtain rfl := float.inj hxy
    exact isKept_of_scaled? (gatherDigits_lt hwhole _) hy

end Json
end Querysmith
