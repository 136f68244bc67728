/-
# The forms of a text

The rules for texts ask for a boolean word, a document, digits, signed digits or a decimal.  Some of
these exclude each other: a boolean word has no characters but its letters, a document has a bracket
or a brace, a decimal has a point (`spellsDecimal_iff`) and neither digits nor signed digits have
one.  So does what the normalizer writes itself: the text of a number holds a digit, a point or the
name of a number that is none, and is no boolean word.
-/

import Querysmith.Normalizer
import Querysmith.Proofs.Json.Document

namespace Querysmith

namespace Text

/-- A text that was split is what stands before the mark, the mark, and what stands after it. -/
theorem eq_of_splitFirst {mark : Char} {cs before after : List Char}
    (h : splitFirst [mark] cs = some (before, after)) : cs = before ++ mark :: after := by
  induction cs generalizing before with
  | nil => cases h
  | cons c cs ih =>
    rw [splitFirst] at h
    split at h
    · rename_i hmark
      obtain ⟨rfl, rfl⟩ := Prod.mk.inj (Option.some.inj h)
      obtain rfl : mark = c := by simpa using hmark
      rfl
    · obtain ⟨⟨before', after'⟩, hsplit, heq⟩ := Option.map_eq_some_iff.1 h
      obtain ⟨rfl, rfl⟩ := Prod.mk.inj heq
      rw [ih hsplit, List.cons_append]

/-- A text is split at its first mark. -/
theorem splitFirst_append {mark : Char} {before : List Char} (h : mark ∉ before)
    (after : List Char) : splitFirst [mark] (before ++ mark :: after) = some (before, after) := by
  induction before with
  | nil => simp [splitFirst]
  | cons c before ih =>
    rw [List.mem_cons, not_or] at h
    rw [List.cons_append, splitFirst, if_neg (by simpa using h.1), ih h.2]
    rfl

/-- What stands before the place of a split holds no mark. -/
theorem not_mem_of_splitFirst {mark : Char} {cs before after : List Char}
    (h : splitFirst [mark] cs = some (before, after)) : mark ∉ before := by
  induction cs generalizing before with
  | nil => cases h
  | cons c cs ih =>
    rw [splitFirst] at h
    split at h
    · obtain ⟨rfl, rfl⟩ := Prod.mk.inj (Option.some.inj h)
      exact List.not_mem_nil
    · rename_i hmark
      obtain ⟨⟨before', after'⟩, hsplit, heq⟩ := Option.map_eq_some_iff.1 h
      obtain ⟨rfl, rfl⟩ := Prod.mk.inj heq
      rw [List.mem_cons, not_or]
      exact ⟨fun hc => hmark (by simp [hc]), ih hsplit⟩

/-- A text of digits holds nothing but digits. -/
theorem isDigit_of_isDigits {cs : List Char} (h : isDigits cs = true) :
    ∀ c ∈ cs, c.isDigit = true := by
  rw [isDigits, Bool.and_eq_true] at h
  exact List.all_eq_true.1 h.2

/-- Among digits stands no point. -/
theorem point_not_mem_of_isDigits {cs : List Char} (h : isDigits cs = true) : '.' ∉ cs := by
  intro hmem
  have hpoint := isDigit_of_isDigits h _ hmem
  cases hpoint

/-- Signed digits are digits behind an optional minus sign. -/
theorem isSignedDigits_eq (cs : List Char) :
    isSignedDigits cs = isDigits (Json.minusSign cs).2 := by
  rw [isSignedDigits.eq_def, Json.minusSign.eq_def]
  grind

end Text

/-- Digits, a point and digits, perhaps with a minus sign in front. -/
def SpellsDecimal (cs : List Char) : Prop :=
  ∃ sign whole fraction, cs = sign ++ whole ++ '.' :: fraction ∧ (sign = [] ∨ sign = ['-']) ∧
    Text.isDigits whole = true ∧ Text.isDigits fraction = true

/-- A decimal text is two texts of digits around a point, behind an optional minus sign. -/
theorem isDecimalText_eq (cs : List Char) :
    isDecimalText cs = (Text.splitFirst ['.'] (Json.minusSign cs).2).any fun parts =>
      Text.isDigits parts.1 && Text.isDigits parts.2 := by
  cases cs with
  | nil => rfl
  | cons c cs =>
    by_cases hc : c = '-'
    · subst hc
      rw [isDecimalText, Json.minusSign]
      cases Text.splitFirst ['.'] cs <;> rfl
    · rw [Json.minusSign_of_ne hc]
      simp only [isDecimalText]
      cases hsplit : Text.splitFirst ['.'] (c :: cs) <;> simp [hc, hsplit]

/-- The sign that was taken off stood in front. -/
theorem Json.eq_minusSign (cs : List Char) :
    ∃ sign, cs = sign ++ (minusSign cs).2 ∧ (sign = [] ∨ sign = ['-']) := by
  rw [minusSign.eq_def]
  split
  · exact ⟨['-'], rfl, .inr rfl⟩
  · exact ⟨[], rfl, .inl rfl⟩

/-- A sign is taken off in front of digits. -/
theorem Json.minusSign_append_digits {sign cs : List Char} (hsign : sign = [] ∨ sign = ['-'])
    (hcs : cs.head?.all Char.isDigit = true) : (minusSign (sign ++ cs)).2 = cs := by
  rcases hsign with rfl | rfl
  · rw [List.nil_append, minusSign.eq_def]
    split
    · cases hcs
    · rfl
  · rfl

/-- **The decimals are spelled** with digits on both sides of one point. -/
theorem spellsDecimal_iff (cs : List Char) : SpellsDecimal cs ↔ isDecimalText cs = true := by
  rw [isDecimalText_eq]
  constructor
  · rintro ⟨sign, whole, fraction, rfl, hsign, hwhole, hfraction⟩
    have hhead : (whole ++ '.' :: fraction).head?.all Char.isDigit = true := by
      cases whole with
      | nil => cases hwhole
      | cons c whole => exact Text.isDigit_of_isDigits hwhole c List.mem_cons_self
    rw [List.append_assoc, Json.minusSign_append_digits hsign hhead,
      Text.splitFirst_append (Text.point_not_mem_of_isDigits hwhole)]
    simp [hwhole, hfraction]
  · intro h
    obtain ⟨sign, hcs, hsign⟩ := Json.eq_minusSign cs
    obtain ⟨⟨whole, fraction⟩, hsplit, hdigits⟩ := (Option.any_eq_true _ _).1 h
    rw [Bool.and_eq_true] at hdigits
    rw [Text.eq_of_splitFirst hsplit] at hcs
    exact ⟨sign, whole, fraction, by rw [hcs, List.append_assoc], hsign, hdigits.1, hdigits.2⟩

namespace SpellsDecimal

variable {cs : List Char}

/-- A decimal has a point. -/
theorem point_mem (h : SpellsDecimal cs) : '.' ∈ cs := by
  obtain ⟨sign, whole, fraction, rfl, -⟩ := h
  simp

/-- A decimal has no characters but digits, a point and a sign. -/
theorem forall_mem (h : SpellsDecimal cs) : ∀ c ∈ cs, c.isDigit = true ∨ c = '-' ∨ c = '.' := by
  obtain ⟨sign, whole, fraction, rfl, hsign, hwhole, hfraction⟩ := h
  intro c hc
  rw [List.mem_append, List.mem_append, List.mem_cons] at hc
  rcases hc with (hc | hc) | hc | hc
  · rcases hsign with rfl | rfl
    · cases hc
    · exact .inr (.inl (List.mem_singleton.1 hc))
  · exact .inl (Text.isDigit_of_isDigits hwhole c hc)
  · exact .inr (.inr hc)
  · exact .inl (Text.isDigit_of_isDigits hfraction c hc)

/-- A decimal is no integer. -/
theorem isSignedDigits (h : SpellsDecimal cs) : Text.isSignedDigits cs = false := by
  rw [Bool.eq_false_iff, Text.isSignedDigits_eq]
  intro hdigits
  obtain ⟨sign, hcs, hsign⟩ := Json.eq_minusSign cs
  have hpoint := h.point_mem
  rw [hcs, List.mem_append] at hpoint
  rcases hpoint with hpoint | hpoint
  · rcases hsign with rfl | rfl
    · cases hpoint
    · exact absurd hpoint (by decide)
  · exact Text.point_not_mem_of_isDigits hdigits hpoint

/-- A decimal is no run of digits. -/
theorem isDigits (h : SpellsDecimal cs) : Text.isDigits cs = false := by
  rw [Bool.eq_false_iff]
  exact fun hdigits => Text.point_not_mem_of_isDigits hdigits h.point_mem

/-- A decimal is no document. -/
theorem isDocumentText {s : String} (h : SpellsDecimal s.toList) :
    Json.isDocumentText s = false := by
  rw [Bool.eq_false_iff]
  intro hdocument
  obtain ⟨c, hmem, hc⟩ := Json.exists_bracket_of_isDocumentText hdocument
  have := h.forall_mem c hmem
  rcases hc with rfl | rfl <;> revert this <;> decide

end SpellsDecimal

/-! ### Boolean words -/

/-- A boolean word is `true` or `false` in some case. -/
theorem booleanText?_eq_some_iff {s : String} {b : Bool} :
    booleanText? s = some b ↔ Text.lowerAscii s = if b then "true" else "false" := by
  rw [booleanText?]
  cases b <;> grind

/-- The letters of the boolean words. -/
def booleanLetters : List Char :=
  "truefalse".toList

/-- A text with any other character is no boolean word. -/
theorem booleanText?_of_mem {s : String} {c : Char} (hmem : c ∈ s.toList)
    (hc : c.toLower ∉ booleanLetters) : booleanText? s = none := by
  cases h : booleanText? s with
  | none => rfl
  | some b =>
    have hword := congrArg String.toList (booleanText?_eq_some_iff.1 h)
    rw [Text.lowerAscii, String.toList_ofList] at hword
    have hlower : c.toLower ∈ (if b then "true" else "false").toList :=
      hword ▸ List.mem_map_of_mem hmem
    cases b
    · exact absurd (List.mem_append_right "true".toList hlower) hc
    · exact absurd (List.mem_append_left "false".toList hlower) hc

/-- A document text is no boolean word. -/
theorem booleanText?_of_isDocumentText {s : String} (h : Json.isDocumentText s = true) :
    booleanText? s = none := by
  obtain ⟨c, hmem, hc⟩ := Json.exists_bracket_of_isDocumentText h
  refine booleanText?_of_mem hmem ?_
  rcases hc with rfl | rfl <;> decide

/-- A decimal text is no boolean word. -/
theorem SpellsDecimal.booleanText? {s : String} (h : SpellsDecimal s.toList) :
    booleanText? s = none :=
  booleanText?_of_mem h.point_mem (by decide)

/-- A digit is no letter of a boolean word. -/
theorem toLower_not_mem_of_isDigit {c : Char} (h : c.isDigit = true) :
    c.toLower ∉ booleanLetters := by
  have hdigits : "0123456789".toList.all (fun c => !booleanLetters.contains c.toLower) = true := by
    decide
  simpa using List.all_eq_true.1 hdigits c (Text.mem_of_isDigit h)

/-- A sign in front of a text with another character makes it no boolean word either. -/
theorem booleanText?_signed {body : List Char} (negative : Bool)
    (h : ∃ c ∈ body, c.toLower ∉ booleanLetters) :
    booleanText? (String.ofList (if negative then '-' :: body else body)) = none := by
  obtain ⟨c, hmem, hc⟩ := h
  refine booleanText?_of_mem (c := c) ?_ hc
  rw [String.toList_ofList]
  cases negative
  · exact hmem
  · exact List.mem_cons_of_mem _ hmem

/-- The text of an integer is no boolean word. -/
theorem booleanText?_ofInt (i : Int) : booleanText? (Text.ofInt i) = none := by
  have hsign : Text.ofInt i = String.ofList
      (if decide (i < 0) then '-' :: Text.decimal i.natAbs else Text.decimal i.natAbs) := by
    rw [Text.ofInt, Text.ofNat]
    by_cases h : i < 0 <;> simp [h]
  obtain ⟨c, ds, hc⟩ := List.exists_cons_of_ne_nil (Text.decimal_ne_nil i.natAbs)
  have hmem : c ∈ Text.decimal i.natAbs := hc ▸ List.mem_cons_self
  rw [hsign]
  exact booleanText?_signed _
    ⟨c, hmem, toLower_not_mem_of_isDigit (Text.isDigit_of_mem_decimal hmem)⟩

namespace Binary64

/-- Digits written plainly keep a digit or get a point. -/
theorem exists_mem_plainDigits (keepFraction : Bool) {c : Char} {ds : List Char} (point : Int) :
    ∃ d ∈ plainDigits keepFraction (c :: ds) point, d = c ∨ d = '.' := by
  rw [plainDigits]
  split
  · exact ⟨'.', by simp, .inr rfl⟩
  · split
    · exact ⟨c, by simp, .inl rfl⟩
    · exact ⟨'.', by simp, .inr rfl⟩

/-- Digits written with an exponent keep the first one. -/
theorem mem_exponentDigits (c : Char) (ds : List Char) (power : Int) :
    c ∈ exponentDigits (c :: ds) power := by
  simp [exponentDigits]

/-- The text of a floating number is no boolean word, in any layout. -/
theorem booleanText?_text (layout : Layout) (x : Binary64) :
    booleanText? (x.text layout) = none := by
  cases x with
  | nan => exact booleanText?_of_mem (c := 'N') (s := "NaN") (by decide) (by decide)
  | infinity s =>
    cases s
    · exact booleanText?_of_mem (c := 'n') (s := "inf") (by decide) (by decide)
    · exact booleanText?_of_mem (c := 'n') (s := "-inf") (by decide) (by decide)
  | finite s m e =>
    rw [text]
    split
    rename_i digits k _
    obtain ⟨c, ds, hds⟩ := List.exists_cons_of_ne_nil (Text.decimal_ne_nil digits)
    have hc : c.isDigit = true := Text.isDigit_of_mem_decimal (hds ▸ List.mem_cons_self)
    -- A digit or a point is in the text of every finite number, and in no boolean word.
    have hbody : ∀ (plainly : Bool) (power : Int), ∃ d ∈ (if plainly then
        plainDigits layout.keepFraction (c :: ds) (power + 1) else exponentDigits (c :: ds) power),
        d.toLower ∉ booleanLetters := by
      intro plainly power
      cases plainly
      · exact ⟨c, mem_exponentDigits c ds power, toLower_not_mem_of_isDigit hc⟩
      · obtain ⟨d, hd, rfl | rfl⟩ := exists_mem_plainDigits layout.keepFraction (power + 1)
        · exact ⟨c, hd, toLower_not_mem_of_isDigit hc⟩
        · exact ⟨'.', hd, by decide⟩
    rw [hds]
    exact booleanText?_signed s (hbody _ _)

end Binary64

end Querysmith
