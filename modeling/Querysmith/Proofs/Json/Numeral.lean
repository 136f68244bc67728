/-
# Numerals

A number as a JSON text writes it: a sign, whole digits, the digits of a fraction, and an exponent
with a sign of its own.  It has an exact value, which is a rational number.  The reader of values
takes a numeral from the text first and then makes a number of what it has taken, which may be
another one, or none (`number_eq_bind`).  A numeral that is spelled out reads back, whatever follows
it that could not go on a number (`read?_spelled`).
-/

import Mathlib.Algebra.Order.Field.Rat
import Mathlib.Algebra.Order.Field.Power
import Mathlib.Tactic.Ring
import Querysmith.Proofs.Json.Scalar

namespace Querysmith
namespace Json

/-- A number as JSON writes it. -/
structure Numeral where
  negative : Bool
  whole : List Char
  /-- The digits behind the point; none when there is no point. -/
  fraction : List Char
  /-- Whether the exponent is negative, and its digits. -/
  exponent : Option (Bool × List Char)
  deriving DecidableEq, Repr

namespace Numeral

/-- The power of ten that the exponent writes. -/
def power (n : Numeral) : Int :=
  match n.exponent with
  | none => 0
  | some (back, digits) => if back then -(Text.readDecimal digits) else Text.readDecimal digits

/-- The value, without any rounding. -/
def value (n : Numeral) : ℚ :=
  (if n.negative then -1 else 1) * Text.readDecimal (n.whole ++ n.fraction) *
    10 ^ (n.power - n.fraction.length)

/-- The exponent that may follow the digits of a numeral. -/
def exponentPart : List Char → Option (Option (Bool × List Char) × List Char)
  | [] => some (none, [])
  | c :: cs =>
    if c = 'e' ∨ c = 'E' then
      if ((exponentSign cs).2.takeWhile Char.isDigit).isEmpty then none
      else some (some ((exponentSign cs).1, (exponentSign cs).2.takeWhile Char.isDigit),
        (exponentSign cs).2.dropWhile Char.isDigit)
    else some (none, c :: cs)

/-- The fraction that may follow the whole digits of a numeral. -/
def fractionPart : List Char → Option (List Char × List Char)
  | '.' :: cs =>
    if (cs.takeWhile Char.isDigit).isEmpty then none
    else some (cs.takeWhile Char.isDigit, cs.dropWhile Char.isDigit)
  | cs => some ([], cs)

/-- The rest of a numeral behind its whole digits. -/
def readTail (negative : Bool) (whole cs : List Char) : Option (Numeral × List Char) :=
  (fractionPart cs).bind fun f =>
    (exponentPart f.2).map fun e => (⟨negative, whole, f.1, e.1⟩, e.2)

/-- The numeral at the head of a text. -/
def read? (cs : List Char) : Option (Numeral × List Char) :=
  match (minusSign cs).2.takeWhile Char.isDigit with
  | [] => none
  | '0' :: _ :: _ => none
  | whole => readTail (minusSign cs).1 whole ((minusSign cs).2.dropWhile Char.isDigit)

/-- What the reader makes of a significand and a power of ten that an exponent may raise. -/
def scaled? (negative : Bool) (significand : Nat) (power : Int) :
    Option (Bool × List Char) → Option Binary64
  | none => scale negative significand power
  | some (back, digits) => withExponent negative significand power back digits

/-- What the reader makes of digits alone. -/
def ofInteger (negative : Bool) (significand : Nat) : Json :=
  if !negative then int significand
  else if significand = 0 ∨ maxNegated < significand then
    float (Binary64.round true significand 1)
  else int (-(significand : Int))

/-- The number that the reader makes of a numeral; none of one that is beyond the format. -/
def toJson? (n : Numeral) : Option Json :=
  let gathered := gatherDigits 0 n.whole
  if n.fraction.isEmpty then
    if n.exponent.isNone ∧ gathered.2.isEmpty then some (ofInteger n.negative gathered.1)
    else (scaled? n.negative gathered.1 gathered.2.length n.exponent).map float
  else
    let more := gatherDigits gathered.1 n.fraction
    (scaled? n.negative more.1 (gathered.2.length - (n.fraction.length - more.2.length : Nat))
      n.exponent).map float

/-- The characters of a fraction with its point. -/
def fractionChars (fraction : List Char) : List Char :=
  if fraction.isEmpty then [] else '.' :: fraction

/-- The characters of an exponent. -/
def exponentChars : Option (Bool × List Char) → List Char
  | none => []
  | some (back, digits) => 'e' :: (if back then '-' else '+') :: digits

/-- The characters of a numeral. -/
def spelled (n : Numeral) : List Char :=
  (if n.negative then ['-'] else []) ++
    (n.whole ++ (fractionChars n.fraction ++ exponentChars n.exponent))

/-- The parts of a numeral are digits, without a leading zero, and neither the whole part nor an
exponent is empty. -/
structure IsProper (n : Numeral) : Prop where
  whole_ne_nil : n.whole ≠ []
  isDigit_whole : ∀ c ∈ n.whole, c.isDigit = true
  no_leading_zero : ∀ c cs, n.whole ≠ '0' :: c :: cs
  isDigit_fraction : ∀ c ∈ n.fraction, c.isDigit = true
  exponent : ∀ back digits, n.exponent = some (back, digits) →
    digits ≠ [] ∧ ∀ c ∈ digits, c.isDigit = true

/-- The numeral of an integer. -/
def ofInt (i : Int) : Numeral := ⟨decide (i < 0), Text.decimal i.natAbs, [], none⟩

/-! ### What the reader takes -/

/-- **Reading an exponent is taking its characters and then scaling by them.** -/
theorem exponentField_eq_bind (negative : Bool) (significand : Nat) (exponent : Int)
    (cs : List Char) :
    exponentField negative significand exponent cs = (exponentPart cs).bind fun p =>
      (scaled? negative significand exponent p.1).map (float ·, p.2) := by
  cases cs with
  | nil => rfl
  | cons c cs =>
    rw [exponentField_cons, exponentPart]
    split
    · split <;> rfl
    · rfl

/-- Digits with neither fraction nor exponent are read as an integer. -/
theorem integer_eq (negative : Bool) (cs : List Char) (significand : Nat) :
    numberTail.integer negative cs significand = some (ofInteger negative significand, cs) := by
  rw [numberTail.integer, ofInteger]
  split
  · rfl
  · split <;> rfl

/-- Without a point there is no fraction. -/
theorem fractionPart_of_ne_point {c : Char} (hc : c ≠ '.') (cs : List Char) :
    fractionPart (c :: cs) = some ([], c :: cs) := by
  rw [fractionPart.eq_def]
  grind

/-- An exponent is taken where its letter stands, and nothing elsewhere. -/
theorem exponentPart_of_ne {c : Char} (hc : ¬(c = 'e' ∨ c = 'E')) (cs : List Char) :
    exponentPart (c :: cs) = some (none, c :: cs) := by
  rw [exponentPart, if_neg hc]

/-- Behind an `e` an exponent is read, or nothing at all. -/
theorem exists_of_exponentPart {c : Char} (hc : c = 'e' ∨ c = 'E') {cs rest : List Char}
    {exponent : Option (Bool × List Char)} (h : exponentPart (c :: cs) = some (exponent, rest)) :
    exponent.isNone = false := by
  rw [exponentPart, if_pos hc] at h
  split at h
  · cases h
  · obtain ⟨rfl, -⟩ := Prod.mk.inj (Option.some.inj h)
    rfl

section

variable (negative : Bool) (whole : List Char)

/-- Digits alone are an integer as far as they can be gathered, else a floating number. -/
theorem toJson?_digits : toJson? ⟨negative, whole, [], none⟩ =
    if (gatherDigits 0 whole).2.isEmpty then some (ofInteger negative (gatherDigits 0 whole).1)
    else (scale negative (gatherDigits 0 whole).1 (gatherDigits 0 whole).2.length).map float := by
  simp [toJson?, scaled?]

/-- Digits with an exponent are a floating number. -/
theorem toJson?_exponent {exponent : Option (Bool × List Char)} (h : exponent.isNone = false) :
    toJson? ⟨negative, whole, [], exponent⟩ =
      (scaled? negative (gatherDigits 0 whole).1 (gatherDigits 0 whole).2.length exponent).map
        float := by
  simp [toJson?, h]

/-- Digits with a fraction are a floating number, scaled for the digits behind the point. -/
theorem toJson?_fraction {fraction : List Char} (h : ¬fraction.isEmpty = true)
    (exponent : Option (Bool × List Char)) :
    toJson? ⟨negative, whole, fraction, exponent⟩ =
      (scaled? negative (gatherDigits (gatherDigits 0 whole).1 fraction).1
        ((gatherDigits 0 whole).2.length - (fraction.length -
          (gatherDigits (gatherDigits 0 whole).1 fraction).2.length : Nat)) exponent).map float :=
  if_neg h

end

/-- Behind the whole digits a fraction and an exponent are taken, and a number is made of all. -/
theorem numberTail_eq_bind (negative : Bool) (whole cs : List Char) :
    numberTail negative whole cs =
      (readTail negative whole cs).bind fun p => p.1.toJson?.map (·, p.2) := by
  cases cs with
  | nil =>
    have htail : readTail negative whole [] = some (⟨negative, whole, [], none⟩, []) := rfl
    rw [numberTail_nil_eq, integer_eq, htail, Option.bind_some, toJson?_digits, exponentField]
    split
    · rfl
    · rw [Option.map_map]
      rfl
  | cons c cs =>
    -- What the next character is decides whether a fraction or an exponent follows, or neither.
    by_cases hpoint : c = '.'
    · subst hpoint
      rw [numberTail_point, readTail, fractionPart]
      split
      · rfl
      · rename_i hfraction
        rw [Option.bind_some, Option.bind_map, exponentField_eq_bind]
        refine Option.bind_congr fun p _ => ?_
        rw [Function.comp_apply, toJson?_fraction _ _ hfraction, Option.map_map]
        rfl
    · rw [numberTail_of_ne_point _ _ hpoint, readTail, fractionPart_of_ne_point hpoint, integer_eq,
        exponentField_eq_bind, Option.bind_some, Option.bind_map]
      by_cases hexponent : c = 'e' ∨ c = 'E'
      · rw [if_pos (or_assoc.1 (.inl hexponent))]
        refine Option.bind_congr fun p hp => ?_
        rw [Function.comp_apply, toJson?_exponent _ _ (exists_of_exponentPart hexponent hp),
          Option.map_map]
        rfl
      · rw [exponentPart_of_ne hexponent, Option.bind_some, Option.bind_some, Function.comp_apply,
          toJson?_digits]
        rw [not_or] at hexponent
        simp only [hexponent.1, hexponent.2, false_or, Bool.not_eq_true']
        cases (gatherDigits 0 whole).2.isEmpty with
        | true => rfl
        | false => simp [scaled?, Function.comp_def]

/-- Digits without a leading zero are the whole part of a numeral. -/
theorem read?_eq_readTail {cs whole : List Char}
    (hwhole : (minusSign cs).2.takeWhile Char.isDigit = whole) (hnil : whole ≠ [])
    (hzero : ∀ d ds, whole ≠ '0' :: d :: ds) :
    read? cs = readTail (minusSign cs).1 whole ((minusSign cs).2.dropWhile Char.isDigit) := by
  rw [read?, hwhole]
  split
  · exact absurd rfl hnil
  · exact absurd rfl (hzero _ _)
  · rfl

/-- **The reader of values takes a numeral** and makes a number of it. -/
theorem number_eq_bind (cs : List Char) :
    number cs = (read? cs).bind fun p => p.1.toJson?.map (·, p.2) := by
  rw [number_eq]
  split
  · rename_i hwhole
    rw [read?, hwhole]
    rfl
  · rename_i hwhole
    rw [read?, hwhole]
    rfl
  · rename_i hnil hzero
    rw [read?_eq_readTail rfl hnil hzero]
    exact numberTail_eq_bind _ _ _

/-! ### Spelling out -/

/-- Digits end where another character stands. -/
theorem run_digits {ds rest : List Char} (hds : ∀ c ∈ ds, c.isDigit = true)
    (hrest : rest.head?.any Char.isDigit = false) :
    (ds ++ rest).takeWhile Char.isDigit = ds ∧ (ds ++ rest).dropWhile Char.isDigit = rest := by
  rw [List.takeWhile_append_of_pos hds, List.dropWhile_append_of_pos hds]
  cases rest with
  | nil => simp
  | cons c rest =>
    have hc : ¬c.isDigit = true := by simpa using hrest
    rw [List.takeWhile_cons_of_neg hc, List.dropWhile_cons_of_neg hc, List.append_nil]
    exact ⟨rfl, rfl⟩

/-- What closes a value begins with no digit. -/
theorem head?_of_closes {rest : List Char} (h : Closes rest) :
    rest.head?.any Char.isDigit = false := by
  cases rest with
  | nil => rfl
  | cons c rest => rcases h c rfl with rfl | rfl | rfl <;> rfl

/-- The characters of an exponent are read as the exponent. -/
theorem exponentPart_chars {exponent : Option (Bool × List Char)} {rest : List Char}
    (h : ∀ back digits, exponent = some (back, digits) →
      digits ≠ [] ∧ ∀ c ∈ digits, c.isDigit = true) (hrest : Closes rest) :
    exponentPart (exponentChars exponent ++ rest) = some (exponent, rest) := by
  cases exponent with
  | none =>
    cases rest with
    | nil => rfl
    | cons c rest =>
      have hc : ¬(c = 'e' ∨ c = 'E') := by
        rcases hrest c rfl with rfl | rfl | rfl <;> decide
      exact exponentPart_of_ne hc rest
  | some exponent =>
    obtain ⟨back, digits⟩ := exponent
    obtain ⟨hne, hdigits⟩ := h back digits rfl
    obtain ⟨htake, hdrop⟩ := run_digits hdigits (head?_of_closes hrest)
    have hsign : exponentSign ((if back then '-' else '+') :: (digits ++ rest)) =
        (back, digits ++ rest) := by
      cases back <;> rfl
    rw [exponentChars, List.cons_append, List.cons_append, exponentPart, if_pos (.inl rfl), hsign,
      htake, hdrop, if_neg (by simpa using hne)]

/-- An exponent and what closes it begin neither with a digit nor with a point. -/
theorem head?_exponentChars {exponent : Option (Bool × List Char)} {rest : List Char}
    (hrest : Closes rest) : (exponentChars exponent ++ rest).head?.any Char.isDigit = false ∧
      (exponentChars exponent ++ rest).head? ≠ some '.' := by
  cases exponent with
  | none =>
    refine ⟨head?_of_closes hrest, fun hpoint => ?_⟩
    rcases hrest '.' hpoint with hc | hc | hc <;> exact absurd hc (by decide)
  | some exponent => exact ⟨rfl, by simp [exponentChars]⟩

/-- The characters of a fraction are read as the fraction. -/
theorem fractionPart_chars {fraction rest : List Char} (h : ∀ c ∈ fraction, c.isDigit = true)
    (hdigit : rest.head?.any Char.isDigit = false) (hpoint : rest.head? ≠ some '.') :
    fractionPart (fractionChars fraction ++ rest) = some (fraction, rest) := by
  rw [fractionChars]
  split
  · rename_i hempty
    rw [List.isEmpty_iff.1 hempty, List.nil_append]
    cases rest with
    | nil => rfl
    | cons c rest => exact fractionPart_of_ne_point (by simpa using hpoint) rest
  · rename_i hne
    obtain ⟨htake, hdrop⟩ := run_digits h hdigit
    rw [List.cons_append, fractionPart, htake, hdrop, if_neg hne]

/-- A fraction and a rest without a digit in front begin with no digit. -/
theorem head?_fractionChars {fraction rest : List Char}
    (hrest : rest.head?.any Char.isDigit = false) :
    (fractionChars fraction ++ rest).head?.any Char.isDigit = false := by
  rw [fractionChars]
  split
  · exact hrest
  · rfl

/-- **A numeral that is spelled out reads back.** -/
theorem read?_spelled {n : Numeral} (h : n.IsProper) {rest : List Char} (hrest : Closes rest) :
    read? (n.spelled ++ rest) = some (n, rest) := by
  obtain ⟨negative, whole, fraction, exponent⟩ := n
  have hexponent := @head?_exponentChars exponent rest hrest
  have hfraction := @head?_fractionChars fraction _ hexponent.1
  obtain ⟨htake, hdrop⟩ := run_digits h.isDigit_whole hfraction
  -- The sign is read off first, then the whole digits, and the tail is what was spelled behind
  -- them.
  have hsign : minusSign (spelled ⟨negative, whole, fraction, exponent⟩ ++ rest) =
      (negative, whole ++ (fractionChars fraction ++ (exponentChars exponent ++ rest))) := by
    cases negative with
    | true => simp [spelled, minusSign]
    | false =>
      obtain ⟨c, cs, rfl⟩ := List.exists_cons_of_ne_nil h.whole_ne_nil
      have hc : c ≠ '-' := by
        rintro rfl
        exact absurd (h.isDigit_whole '-' List.mem_cons_self) (by decide)
      simp [spelled, minusSign_of_ne hc]
  have htail : readTail negative whole
      (fractionChars fraction ++ (exponentChars exponent ++ rest)) =
        some (⟨negative, whole, fraction, exponent⟩, rest) := by
    rw [readTail, fractionPart_chars h.isDigit_fraction hexponent.1 hexponent.2, Option.bind_some,
      exponentPart_chars h.exponent hrest, Option.map_some]
  rw [read?_eq_readTail (hsign ▸ htake) h.whole_ne_nil h.no_leading_zero, hsign, hdrop]
  exact htail

/-! ### Integers -/

/-- The numeral of an integer is proper. -/
theorem isProper_ofInt (i : Int) : (ofInt i).IsProper where
  whole_ne_nil := Text.decimal_ne_nil _
  isDigit_whole := fun _ => Text.isDigit_of_mem_decimal
  no_leading_zero := Text.decimal_ne_zero_cons _
  isDigit_fraction := fun _ hc => absurd hc List.not_mem_nil
  exponent := fun _ _ h => nomatch h

/-- The numeral of an integer is spelled as the integer is written. -/
theorem spelled_ofInt (i : Int) : (ofInt i).spelled = (Text.ofInt i).toList := by
  rw [Text.ofInt]
  split
  · rename_i hi
    simp [spelled, ofInt, hi, fractionChars, exponentChars]
  · rename_i hi
    simp [spelled, ofInt, hi, fractionChars, exponentChars, Text.ofNat]

/-- The value of digits without a fraction and an exponent. -/
theorem value_digits (negative : Bool) (whole : List Char) :
    value ⟨negative, whole, [], none⟩ = (if negative then -1 else 1) * Text.readDecimal whole := by
  simp [value, power]

/-- The numeral of an integer has its value. -/
theorem value_ofInt (i : Int) : (ofInt i).value = i := by
  rw [ofInt, value_digits, Text.readDecimal_decimal]
  rw [Nat.cast_natAbs]
  by_cases hi : i < 0
  · simp [hi, abs_of_neg hi]
  · simp [hi, abs_of_nonneg (not_lt.1 hi)]

end Numeral
end Json
end Querysmith
