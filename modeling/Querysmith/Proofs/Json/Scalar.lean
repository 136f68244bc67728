/-
# Integers and strings read back

An integer reads back from its digits, whatever follows it that could not go on a number (`Closes`):
the digits fit 64 bits and have no leading zero (`number_ofInt`).  A string reads back from its
characters, since every one of them reads back from its escape (`stringBody_escape`): it is written
as it is, behind a backslash, or by its number below 32.
-/

import Querysmith.Proofs.Json.Reading

namespace Querysmith
namespace Text

/-- A hexadecimal digit has the value it is written for. -/
theorem hexValue?_hexDigit {d : Nat} (h : d < 16) : hexValue? (hexDigit d) = some d := by
  have hall : ∀ d : Fin 16, hexValue? (hexDigit d) = some d.val := by decide
  exact hall ⟨d, h⟩

/-- The digits of a positive number begin with another digit than zero. -/
theorem head?_decimal {n : Nat} (h : 0 < n) : (decimal n).head? ≠ some '0' := by
  induction n using decimal.induct with
  | case1 n hn =>
    have hall : ∀ d : Fin 10, 0 < d.val → digitChar d ≠ '0' := by decide
    rw [decimal, if_pos hn]
    simpa using hall ⟨n, hn⟩ h
  | case2 n hn ih =>
    have hpos : 0 < n / 10 := by omega
    obtain ⟨c, cs, hcs⟩ := List.exists_cons_of_ne_nil (decimal_ne_nil (n / 10))
    have hfirst := ih hpos
    rw [hcs] at hfirst
    rw [decimal, if_neg hn, hcs]
    exact hfirst

/-- No number is written with a leading zero. -/
theorem decimal_ne_zero_cons (n : Nat) (c : Char) (cs : List Char) :
    decimal n ≠ '0' :: c :: cs := by
  intro h
  rcases Nat.eq_zero_or_pos n with rfl | hn
  · rw [decimal, if_pos (by decide)] at h
    cases h
  · exact head?_decimal hn (by rw [h]; rfl)

end Text

namespace Json

/-! ### Numbers -/

/-- A number that digits are read behind only grows. -/
theorem le_foldl_digits (cs : List Char) (n : Nat) :
    n ≤ cs.foldl (fun n c => 10 * n + Text.digitValue c) n := by
  induction cs generalizing n with
  | nil => exact Nat.le_refl n
  | cons c cs ih =>
    have := ih (10 * n + Text.digitValue c)
    rw [List.foldl_cons]
    omega

/-- Digits of a number that fits are all taken. -/
theorem gatherDigits_of_lt {cs : List Char} {n : Nat}
    (h : cs.foldl (fun n c => 10 * n + Text.digitValue c) n < significandBound) :
    gatherDigits n cs = (cs.foldl (fun n c => 10 * n + Text.digitValue c) n, []) := by
  induction cs generalizing n with
  | nil => rfl
  | cons c cs ih =>
    rw [List.foldl_cons] at h ⊢
    have hnext := le_foldl_digits cs (10 * n + Text.digitValue c)
    rw [gatherDigits, if_pos (by omega), ih h]

/-- The digits of a number below the bound of the significand are gathered to the number. -/
theorem gatherDigits_decimal {n : Nat} (h : n < significandBound) :
    gatherDigits 0 (Text.decimal n) = (n, []) := by
  have hread := Text.readDecimal_decimal n
  unfold Text.readDecimal at hread
  rw [gatherDigits_of_lt (by rwa [hread]), hread]

/-- What follows a value inside an array or object, or at the end of a text. -/
def Closes (rest : List Char) : Prop :=
  ∀ c ∈ rest.head?, c = ',' ∨ c = ']' ∨ c = '\x7d'

/-- The end of the text closes a value. -/
theorem closes_nil : Closes [] := by
  intro c hc
  cases hc

/-- A comma or a closing bracket closes a value. -/
theorem closes_cons {c : Char} (hc : c = ',' ∨ c = ']' ∨ c = '\x7d') (cs : List Char) :
    Closes (c :: cs) := by
  intro c' hc'
  obtain rfl := Option.some.inj hc'
  exact hc

/-- A run of digits ends where a value does. -/
theorem digits_append {ds rest : List Char} (hds : ∀ c ∈ ds, c.isDigit = true)
    (hrest : Closes rest) : (ds ++ rest).takeWhile Char.isDigit = ds ∧
      (ds ++ rest).dropWhile Char.isDigit = rest := by
  rw [List.takeWhile_append_of_pos hds, List.dropWhile_append_of_pos hds]
  cases rest with
  | nil => simp
  | cons c rest =>
    have hc : ¬c.isDigit = true := by
      rcases hrest c rfl with rfl | rfl | rfl <;> decide
    rw [List.takeWhile_cons_of_neg hc, List.dropWhile_cons_of_neg hc, List.append_nil]
    exact ⟨rfl, rfl⟩

/-- Digits that fit and are followed by no part of a number are an integer. -/
theorem numberTail_of_closes {rest : List Char} (hrest : Closes rest) {n : Nat}
    (hn : n < significandBound) (negative : Bool) :
    numberTail negative (Text.decimal n) rest = numberTail.integer negative rest n := by
  cases rest with
  | nil =>
    rw [numberTail_nil_eq, gatherDigits_decimal hn]
    rfl
  | cons c rest =>
    have hc : c ≠ '.' ∧ c ≠ 'e' ∧ c ≠ 'E' := by
      rcases hrest c rfl with rfl | rfl | rfl <;> decide
    rw [numberTail_of_ne_point _ _ hc.1, gatherDigits_decimal hn]
    simp [hc.2]

/-- Digits alone are an integer, with the sign in front of them. -/
theorem number_decimal {cs rest : List Char} {negative : Bool} {n : Nat}
    (hcs : minusSign cs = (negative, Text.decimal n ++ rest)) (hn : n < significandBound)
    (hrest : Closes rest) : number cs = numberTail.integer negative rest n := by
  obtain ⟨htake, hdrop⟩ := digits_append (fun _ => Text.isDigit_of_mem_decimal (n := n)) hrest
  rw [number_eq, hcs]
  simp only [htake, hdrop]
  split
  · exact absurd ‹_› (Text.decimal_ne_nil n)
  · exact absurd ‹_› (Text.decimal_ne_zero_cons n _ _)
  · exact numberTail_of_closes hrest hn negative

/-- **An integer reads back from its digits,** if it fits 64 bits with a sign or without. -/
theorem number_ofInt {i : Int} (hlow : Int64.minValue.toInt ≤ i) (hhigh : i < UInt64.size)
    {rest : List Char} (hrest : Closes rest) :
    number ((Text.ofInt i).toList ++ rest) = some (int i, rest) := by
  have hnegated : -(maxNegated : Int) = Int64.minValue.toInt := by decide
  have hbound : significandBound = UInt64.size := by decide
  have hless : maxNegated < significandBound := by decide
  rw [Text.ofInt]
  split
  · rename_i hi
    -- A negative integer is read with a sign, which zero never has.
    have hminus : minusSign ('-' :: (Text.decimal i.natAbs ++ rest)) =
        (true, Text.decimal i.natAbs ++ rest) := rfl
    rw [String.toList_ofList, List.cons_append, number_decimal hminus (by omega) hrest,
      numberTail.integer]
    have hsign : ¬(i.natAbs = 0 ∨ maxNegated < i.natAbs) := by omega
    have habs : -(i.natAbs : Int) = i := by omega
    rw [if_neg (by decide), if_neg hsign, habs]
  · rename_i hi
    obtain ⟨c, cs, hcs⟩ := List.exists_cons_of_ne_nil (Text.decimal_ne_nil i.natAbs)
    have hc : c ≠ '-' := by
      rintro rfl
      have hdigit := Text.isDigit_of_mem_decimal (hcs ▸ List.mem_cons_self)
      cases hdigit
    -- Any other one begins with a digit, so no sign is read.
    have hplain : minusSign (Text.decimal i.natAbs ++ rest) =
        (false, Text.decimal i.natAbs ++ rest) := by
      rw [hcs]
      exact minusSign_of_ne hc _
    have habs : (i.natAbs : Int) = i := by omega
    rw [Text.ofNat, String.toList_ofList, number_decimal hplain (by omega) hrest,
      numberTail.integer, if_pos (by decide), habs]

/-! ### Strings -/

/-- A control character below 32 is written by its number. -/
theorem hexQuad?_hexDigits {n : Nat} (h : n < 32) (rest : List Char) :
    hexQuad? ('0' :: '0' :: Text.hexDigit (n / 16) :: Text.hexDigit (n % 16) :: rest) =
      some (n, rest) := by
  have hzero : Text.hexValue? '0' = some 0 := by decide
  have hhigh := Text.hexValue?_hexDigit (d := n / 16) (by omega)
  have hlow := Text.hexValue?_hexDigit (d := n % 16) (by omega)
  have hvalue : 4096 * 0 + 256 * 0 + 16 * (n / 16) + n % 16 = n := by omega
  simp only [hexQuad?, hzero, hhigh, hlow, Option.bind_eq_bind, Option.bind_some, hvalue]

/-- A character stands for itself in a string, or is read behind a backslash. -/
theorem escape_cases (c : Char) :
    (escape c = [c] ∧ c ≠ '"' ∧ c ≠ '\\' ∧ 32 ≤ c.toNat) ∨
      ∃ ds, escape c = '\\' :: ds ∧ ∀ rest, escaped? (ds ++ rest) = some (c, rest) := by
  unfold escape
  split
  · subst c
    exact .inr ⟨_, rfl, fun _ => rfl⟩
  split
  · subst c
    exact .inr ⟨_, rfl, fun _ => rfl⟩
  split
  · subst c
    exact .inr ⟨_, rfl, fun _ => rfl⟩
  split
  · subst c
    exact .inr ⟨_, rfl, fun _ => rfl⟩
  split
  · subst c
    exact .inr ⟨_, rfl, fun _ => rfl⟩
  -- Two control characters have a letter of their own too, and the others below 32 their number.
  have hcode : ∀ n, c.toNat = n → Char.ofNat n = c := fun n h => h ▸ Char.ofNat_toNat c
  split
  · exact .inr ⟨_, rfl, fun _ => by rw [← hcode 8 ‹_›]; rfl⟩
  split
  · exact .inr ⟨_, rfl, fun _ => by rw [← hcode 12 ‹_›]; rfl⟩
  split
  · rename_i hlow
    refine .inr ⟨_, rfl, fun rest => ?_⟩
    have hsurrogate : c.toNat < 0xD800 ∨ 0xDFFF < c.toNat := by omega
    simp only [List.cons_append, List.nil_append, escaped?, hexQuad?_hexDigits hlow,
      Option.bind_eq_bind, Option.bind_some, if_pos hsurrogate, Char.ofNat_toNat]
  · exact .inl ⟨rfl, ‹_›, ‹_›, by omega⟩

/-- **A character reads back from its escape.** -/
theorem stringBody_escape (fuel : Nat) (acc : List Char) (c : Char) (rest : List Char) :
    stringBody (fuel + 1) acc (escape c ++ rest) = stringBody fuel (c :: acc) rest := by
  rcases escape_cases c with ⟨hescape, hquote, hslash, hlow⟩ | ⟨ds, hescape, hread⟩
  · rw [hescape, List.singleton_append, stringBody.eq_3 _ _ _ _ ?_ ?_, if_neg (by omega)]
    · exact hquote
    · rintro rfl
      exact absurd rfl hslash
  · rw [hescape, List.cons_append, stringBody, hread]

/-- The characters of a string read back up to its closing quote. -/
theorem stringBody_flatMap_escape (cs acc rest : List Char) {fuel : Nat} (h : cs.length ≤ fuel) :
    stringBody fuel acc (cs.flatMap escape ++ '"' :: rest) =
      some (String.ofList (acc.reverse ++ cs), rest) := by
  induction cs generalizing acc fuel with
  | nil => rw [List.flatMap_nil, List.nil_append, stringBody, List.append_nil]
  | cons c cs ih =>
    cases fuel with
    | zero => cases h
    | succ fuel =>
      rw [List.flatMap_cons, List.append_assoc, stringBody_escape, ih _ (Nat.le_of_succ_le_succ h),
        List.reverse_cons, List.append_assoc, List.singleton_append]

/-- A text is not longer than its escaped form. -/
theorem length_le_flatMap_escape (cs : List Char) : cs.length ≤ (cs.flatMap escape).length := by
  induction cs with
  | nil => exact Nat.le_refl 0
  | cons c cs ih =>
    have hc : 0 < (escape c).length := by
      rcases escape_cases c with ⟨hescape, -⟩ | ⟨ds, hescape, -⟩ <;> simp [hescape]
    rw [List.flatMap_cons, List.length_append, List.length_cons]
    omega

/-- The text of a string is its escaped characters between quotes. -/
theorem toList_stringText (s : String) :
    (stringText s).toList = '"' :: (s.toList.flatMap escape ++ ['"']) := by
  simp [stringText]

/-- **A string reads back from its text,** whatever follows it. -/
theorem string_escape (s : String) (rest : List Char) :
    string (s.toList.flatMap escape ++ '"' :: rest) = some (s, rest) := by
  have hfuel : s.toList.length ≤ (s.toList.flatMap escape ++ '"' :: rest).length := by
    have := length_le_flatMap_escape s.toList
    rw [List.length_append]
    omega
  rw [string, stringBody_flatMap_escape _ _ _ hfuel]
  simp

end Json
end Querysmith
