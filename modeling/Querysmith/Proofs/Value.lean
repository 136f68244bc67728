/-
# Values on one line

A dry run writes a value as text.  Of all values only a text can hold the end of a line, and writing
keeps it: the quotes of the text are written twice and nothing else is changed.  So a value is
written on one line exactly when it is no text of more lines (`isLine_inline_iff`).
-/

import Querysmith.Proofs.Lists
import Querysmith.Proofs.Sql.Comment
import Querysmith.Value

namespace Querysmith

open Sql

variable {P : Char → Prop}

namespace Binary64

/-- What a number is written with when its layout has no exponents. -/
theorem forall_mem_plainDigits (hpoint : P '.') (hzero : P '0') {digits : List Char}
    (h : ∀ c ∈ digits, P c) (keepFraction : Bool) (point : Int) :
    ∀ c ∈ plainDigits keepFraction digits point, P c := by
  have hzeros : ∀ n, ∀ c ∈ List.replicate n '0', P c := fun n c hc =>
    List.eq_of_mem_replicate hc ▸ hzero
  rw [plainDigits]
  split
  · rw [List.forall_mem_cons, List.forall_mem_cons, List.forall_mem_append]
    exact ⟨hzero, hpoint, hzeros _, h⟩
  · split
    · rw [List.forall_mem_append, List.forall_mem_append]
      refine ⟨⟨h, hzeros _⟩, ?_⟩
      split
      · simp [hpoint, hzero]
      · simp
    · rw [List.forall_mem_append, List.forall_mem_cons]
      exact ⟨fun c hc => h c (List.mem_of_mem_take hc), hpoint,
        fun c hc => h c (List.mem_of_mem_drop hc)⟩

/-- What a number of a dry run is written with. -/
theorem forall_mem_inline (hdigit : ∀ c, c.isDigit = true → P c)
    (hletter : ∀ c ∈ "-.NaNinf".toList, P c) (x : Binary64) :
    ∀ c ∈ (x.text SqlValue.inlineLayout).toList, P c := by
  cases x with
  | nan =>
    have hword : "NaN".toList ⊆ "-.NaNinf".toList := by decide
    exact fun c hc => hletter c (hword hc)
  | infinity s =>
    have hword : (if s then "-inf" else "inf").toList ⊆ "-.NaNinf".toList := by
      cases s <;> decide
    exact fun c hc => hletter c (hword hc)
  | finite s m e =>
    rw [text]
    split
    rename_i digits k _
    have hbody := forall_mem_plainDigits (P := P) (hletter '.' (by decide)) (hdigit '0' rfl)
      (fun c hc => hdigit c (Text.isDigit_of_mem_decimal (n := digits) hc))
    rw [String.toList_ofList]
    cases s with
    | false => exact hbody _ _
    | true => exact List.forall_mem_cons.2 ⟨hletter '-' (by decide), hbody _ _⟩

end Binary64

namespace SqlValue

variable {ends : Char → Bool}

/-- The digits of a byte stand on one line. -/
theorem isLine_byteDigits (hends : LineRule ends) (b : UInt8) : IsLine ends (byteDigits b) := by
  have hdigit : ∀ d : Fin 16,
      (Text.hexDigit d).toUpper ≠ '\n' ∧ (Text.hexDigit d).toUpper ≠ '\r' := by
    decide
  have hhex : ∀ n, ends (Text.hexDigit n).toUpper = false := fun n => by
    have hmod : Text.hexDigit n = Text.hexDigit (n % 16) := by
      simp [Text.hexDigit]
    rw [hmod]
    exact hends.eq_false (hdigit ⟨n % 16, Nat.mod_lt n (by decide)⟩)
  simp [byteDigits, IsLine, hhex]

/-- An integer is written on one line. -/
theorem isLine_ofInt (hends : LineRule ends) (i : Int) : IsLine ends (Text.ofInt i).toList := by
  have hdecimal : ∀ n, IsLine ends (Text.decimal n) := fun n c hc =>
    hends.eq_false_of_isDigit (Text.isDigit_of_mem_decimal hc)
  rw [Text.ofInt]
  split
  · rw [String.toList_ofList, IsLine, List.forall_mem_cons]
    exact ⟨hends.eq_false (by decide), hdecimal _⟩
  · rw [Text.ofNat, String.toList_ofList]
    exact hdecimal _

/-- What stands between quotes ends a line where the text does. -/
theorem isLine_quoted_iff (hends : LineRule ends) (s : String) :
    IsLine ends (text s).inline.toList ↔ IsLine ends s.toList := by
  have hquote : ends '\'' = false := hends.eq_false (by decide)
  simp [inline, IsLine, Text.mem_double, or_imp, forall_and, hquote]

/-- **A value is written on one line exactly when it is no text of more lines.** -/
theorem isLine_inline_iff (hends : LineRule ends) (v : SqlValue) :
    IsLine ends v.inline.toList ↔ ∀ s, v = text s → IsLine ends s.toList := by
  -- Whatever holds no line feed and no carriage return is one line, and everything but a text is
  -- made of such parts.
  have hword : ∀ cs : List Char, cs.all (fun c => decide (c ≠ '\n' ∧ c ≠ '\r')) = true →
      IsLine ends cs := fun cs h c hc => hends.eq_false (forall_mem_of_all h c hc)
  cases v with
  | null => exact iff_of_true (hword "NULL".toList rfl) fun s h => nomatch h
  | bool b =>
    have hline : IsLine ends (bool b).inline.toList := by
      cases b
      · exact hword "FALSE".toList rfl
      · exact hword "TRUE".toList rfl
    exact iff_of_true hline fun s h => nomatch h
  | int i => exact iff_of_true (isLine_ofInt hends i) fun s h => nomatch h
  | float x =>
    have hline := x.forall_mem_inline (fun c => hends.eq_false_of_isDigit)
      (hword "-.NaNinf".toList rfl)
    exact iff_of_true hline fun s h => nomatch h
  | text s =>
    rw [isLine_quoted_iff hends]
    exact ⟨fun h t ht => text.inj ht ▸ h, fun h => h s rfl⟩
  | blob bytes =>
    have hline : IsLine ends (blob bytes).inline.toList := by
      have hfixed := hword ['X', '\''] rfl
      intro c hc
      simp only [inline, String.toList_ofList, List.mem_cons, List.mem_append, List.mem_flatMap,
        List.not_mem_nil, or_false] at hc
      rcases hc with (rfl | rfl | ⟨b, -, hc⟩) | rfl
      · exact hfixed _ (by simp)
      · exact hfixed _ (by simp)
      · exact isLine_byteDigits hends b c hc
      · exact hfixed _ (by simp)
    exact iff_of_true hline fun s h => nomatch h

end SqlValue
end Querysmith
