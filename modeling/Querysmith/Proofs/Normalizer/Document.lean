/-
# Texts that are documents

A text is taken for a JSON document by a look at its first and last character and by the reader.
Both together take the arrays and the objects and nothing else, whatever blanks stand around them
(`isDocumentText_exact`).  Said without the reader of values, these are the texts that write an
array or an object whose parts nest at most 127 deep and whose numerals are in range.  None of them
is a text that another rule of the normalizer could take: a boolean word, digits or a decimal.
-/

import Querysmith.Proofs.Compiler.Integers
import Querysmith.Proofs.Json.Brackets
import Querysmith.Proofs.Json.Rereading

namespace Querysmith
namespace Json

/-- An array is read for an array and an object for an object, and a scalar for neither. -/
theorem Tree.isStructured_toJson (t : Tree Numeral) : t.toJson.isStructured = t.isStructured := by
  cases t with
  | arr items => rfl
  | obj fields => rfl
  | scalar v =>
    cases v with
    | null | bool b | str s => rfl
    | number n =>
      show (n.toJson?.getD .null).isStructured = false
      rcases n.toJson?_cases with h | ⟨i, h⟩ | ⟨x, h⟩ <;> rw [h] <;> rfl

/-- The arrays and objects that are read are those that fit. -/
theorem exists_structured_iff {s : String} : (∃ v, parse? s = some v ∧ v.isStructured = true) ↔
    ∃ t, Tree.ofText? s = some t ∧ t.isStructured = true ∧ t.Fits maxDepth := by
  rw [Tree.parse?_eq_bind]
  constructor
  · rintro ⟨v, hread, hv⟩
    obtain ⟨t, ht, hfits⟩ := Option.bind_eq_some_iff.1 hread
    split at hfits
    · obtain rfl := Option.some.inj hfits
      exact ⟨t, ht, t.isStructured_toJson ▸ hv, ‹t.Fits maxDepth›⟩
    · cases hfits
  · rintro ⟨t, ht, hstructured, hfits⟩
    refine ⟨t.toJson, ?_, t.isStructured_toJson.trans hstructured⟩
    rw [ht, Option.bind_some, if_pos hfits]

/-- A document is no run of digits, with or without a sign. -/
theorem isSignedDigits_of_isDocumentText {s : String} (h : isDocumentText s = true) :
    Text.isDigits s.toList = false ∧ Text.isSignedDigits s.toList = false := by
  have hsigned : Text.isSignedDigits s.toList = false := by
    rw [Bool.eq_false_iff]
    intro hdigits
    have hspells : SpellsInteger s (Text.readSigned s.toList) := spellsInteger_iff.2 ⟨hdigits, rfl⟩
    rw [hspells.isDocumentText] at h
    cases h
  refine ⟨?_, hsigned⟩
  rw [Bool.eq_false_iff]
  intro hdigits
  rw [Text.isSignedDigits_of_isDigits hdigits] at hsigned
  cases hsigned

/-- A document is no decimal. -/
theorem isDecimalText_of_isDocumentText {s : String} (h : isDocumentText s = true) :
    isDecimalText s.toList = false := by
  rw [Bool.eq_false_iff]
  intro hdecimal
  rw [((spellsDecimal_iff _).2 hdecimal).isDocumentText] at h
  cases h

/-- **A text is taken for a document exactly when** without the blanks around it it reads as an
array or an object, which is when it writes one that nests at most 127 deep and has its numerals in
range; and no such text is a boolean word, digits with or without a sign, or a decimal. -/
theorem isDocumentText_exact (s : String) :
    (isDocumentText s = true ↔ ∃ v, parse? (Text.trim s) = some v ∧ v.isStructured = true) ∧
    (isDocumentText s = true ↔ ∃ t, Tree.ofText? (Text.trim s) = some t ∧
      t.isStructured = true ∧ t.depth ≤ 127 ∧ ∀ n ∈ t.numbers, n.toJson?.isSome = true) ∧
    (isDocumentText s = true → booleanText? s = none ∧ Text.isDigits s.toList = false ∧
      Text.isSignedDigits s.toList = false ∧ isDecimalText s.toList = false) := by
  refine ⟨isDocumentText_iff_parse?, isDocumentText_iff_parse?.trans exists_structured_iff,
    fun h => ?_⟩
  obtain ⟨hdigits, hsigned⟩ := isSignedDigits_of_isDocumentText h
  exact ⟨booleanText?_of_isDocumentText h, hdigits, hsigned, isDecimalText_of_isDocumentText h⟩

end Json
end Querysmith
