/-
# Integers stay what they are

An integer comes to a write as a number or as a text of digits, and on its way to a parameter it may
change from one to the other: a number becomes its text on a column with a text marker or when it is
beyond 64 bits, and a text becomes a number on a column of ids, or when doubles hold it exactly.
None of that rounds it.  What is bound is the integer or a text that spells it, whatever the column
is and however long the text (`integer_is_bound`).  What a text spells is said by the value of its
digits (`SpellsInteger`), and that is what the normalizer reads (`spellsInteger_iff`).
-/

import Mathlib.Data.Nat.Digits.Defs
import Querysmith.Proofs.Compiler.Binding
import Querysmith.Proofs.Normalizer.Text

namespace Querysmith

/-- The text is digits, perhaps with a minus sign in front, and they have the value of the
integer. -/
def SpellsInteger (s : String) (i : Int) : Prop :=
  ∃ digits : List Nat, digits ≠ [] ∧ (∀ d ∈ digits, d < 10) ∧
    (s.toList = digits.map Text.digitChar ∧ i = (Nat.ofDigits 10 digits.reverse : Nat) ∨
      s.toList = '-' :: digits.map Text.digitChar ∧ i = -(Nat.ofDigits 10 digits.reverse : Nat))

namespace Text

/-- The value of digits is the one that they are read as. -/
theorem readDecimal_map_digitChar {digits : List Nat} (h : ∀ d ∈ digits, d < 10) :
    readDecimal (digits.map digitChar) = Nat.ofDigits 10 digits.reverse := by
  induction digits using List.reverseRecOn with
  | nil => rfl
  | append_singleton ds d ih =>
    rw [List.forall_mem_append, List.forall_mem_singleton] at h
    rw [List.map_append, List.map_singleton, readDecimal_append_singleton, ih h.1,
      digitValue_digitChar h.2, List.reverse_append, List.reverse_singleton, List.singleton_append,
      Nat.ofDigits_cons]
    omega

/-- Digits are written as digits. -/
theorem isDigits_map_digitChar {digits : List Nat} (hne : digits ≠ []) :
    isDigits (digits.map digitChar) = true := by
  rw [isDigits, Bool.and_eq_true, List.all_eq_true, List.forall_mem_map]
  exact ⟨by simpa using hne, fun d _ => isDigit_digitChar d⟩

/-- Digits are the characters of their values. -/
theorem exists_digits {cs : List Char} (h : isDigits cs = true) :
    ∃ digits : List Nat, digits ≠ [] ∧ (∀ d ∈ digits, d < 10) ∧ cs = digits.map digitChar := by
  have hdigit : ∀ c ∈ "0123456789".toList, digitValue c < 10 ∧ digitChar (digitValue c) = c :=
    forall_mem_of_all (by decide)
  have hcs : ∀ c ∈ cs, digitValue c < 10 ∧ digitChar (digitValue c) = c :=
    fun c hc => hdigit c (mem_of_isDigit (isDigit_of_isDigits h c hc))
  have hne : cs ≠ [] := by
    rintro rfl
    cases h
  refine ⟨cs.map digitValue, by simpa using hne, ?_, ?_⟩
  · exact List.forall_mem_map.2 fun c hc => (hcs c hc).1
  · rw [List.map_map]
    exact ((List.map_congr_left fun c hc => (hcs c hc).2).trans (List.map_id cs)).symm

/-- Digits alone are digits that a sign might stand before. -/
theorem isSignedDigits_of_isDigits {cs : List Char} (h : isDigits cs = true) :
    isSignedDigits cs = true := by
  unfold isSignedDigits
  split
  · cases h
  · exact h

/-- Digits without a sign are read as the natural number that they write. -/
theorem readSigned_of_isDigits {cs : List Char} (h : isDigits cs = true) :
    readSigned cs = readDecimal cs := by
  unfold readSigned
  split
  · cases h
  · rfl

end Text

/-- **The texts that spell an integer** are those that the normalizer takes for it. -/
theorem spellsInteger_iff {s : String} {i : Int} :
    SpellsInteger s i ↔ Text.isSignedDigits s.toList = true ∧ Text.readSigned s.toList = i := by
  constructor
  · rintro ⟨digits, hne, hlt, ⟨hs, rfl⟩ | ⟨hs, rfl⟩⟩
    -- With a sign or without one, the characters are those of the digits.
    all_goals
      have hdigits := Text.isDigits_map_digitChar hne
      rw [hs, ← Text.readDecimal_map_digitChar hlt]
    · exact ⟨Text.isSignedDigits_of_isDigits hdigits, Text.readSigned_of_isDigits hdigits⟩
    · exact ⟨hdigits, rfl⟩
  · rintro ⟨hsigned, rfl⟩
    unfold Text.isSignedDigits at hsigned
    split at hsigned
    · rename_i cs heq
      obtain ⟨digits, hne, hlt, rfl⟩ := Text.exists_digits hsigned
      rw [SpellsInteger, heq, Text.readSigned, Text.readDecimal_map_digitChar hlt]
      exact ⟨digits, hne, hlt, .inr ⟨rfl, rfl⟩⟩
    · obtain ⟨digits, hne, hlt, hs⟩ := Text.exists_digits hsigned
      rw [SpellsInteger, Text.readSigned_of_isDigits hsigned, hs,
        Text.readDecimal_map_digitChar hlt]
      exact ⟨digits, hne, hlt, .inl ⟨rfl, rfl⟩⟩

/-- The text of an integer spells it. -/
theorem spellsInteger_ofInt (i : Int) : SpellsInteger (Text.ofInt i) i := by
  rw [spellsInteger_iff, Text.ofInt]
  have hdigits := Text.isDigits_decimal i.natAbs
  split
  · have habs : -(i.natAbs : Int) = i := by omega
    rw [String.toList_ofList]
    refine ⟨hdigits, ?_⟩
    rw [Text.readSigned, Text.readDecimal_decimal, habs]
  · have habs : (i.natAbs : Int) = i := by omega
    rw [Text.ofNat, String.toList_ofList]
    refine ⟨Text.isSignedDigits_of_isDigits hdigits, ?_⟩
    rw [Text.readSigned_of_isDigits hdigits, Text.readDecimal_decimal, habs]

namespace SpellsInteger

variable {s : String} {i : Int}

/-- A text that spells an integer has no characters but digits and a sign. -/
theorem forall_mem (h : SpellsInteger s i) : ∀ c ∈ s.toList, Text.isSignedDigit c = true := by
  obtain ⟨digits, -, -, ⟨hs, -⟩ | ⟨hs, -⟩⟩ := h
  all_goals
    have hdigits : ∀ c ∈ digits.map Text.digitChar, Text.isSignedDigit c = true :=
      List.forall_mem_map.2 fun d _ => Text.isSignedDigit_of_isDigit (Text.isDigit_digitChar d)
    rw [hs]
  · exact hdigits
  · exact List.forall_mem_cons.2 ⟨rfl, hdigits⟩

/-- A text of digits is no document. -/
theorem isDocumentText (h : SpellsInteger s i) : Json.isDocumentText s = false := by
  rw [Bool.eq_false_iff]
  intro hdocument
  obtain ⟨c, hmem, hc⟩ := Json.exists_bracket_of_isDocumentText hdocument
  have hdigit := h.forall_mem c hmem
  rcases hc with rfl | rfl <;> cases hdigit

/-- A text of digits is no boolean word. -/
theorem booleanText? (h : SpellsInteger s i) : booleanText? s = none := by
  obtain ⟨digits, hne, -, hs⟩ := h
  obtain ⟨d, ds, rfl⟩ := List.exists_cons_of_ne_nil hne
  have hmem : Text.digitChar d ∈ s.toList := by
    rcases hs with ⟨hs, -⟩ | ⟨hs, -⟩ <;> simp [hs]
  exact booleanText?_of_mem hmem (toLower_not_mem_of_isDigit (Text.isDigit_digitChar d))

end SpellsInteger

/-- The value is the integer, or a text that spells it. -/
inductive Json.IsInteger (i : Int) : Json → Prop
  | int : IsInteger i (.int i)
  | str {s : String} (h : SpellsInteger s i) : IsInteger i (.str s)

/-- The bound value is the integer, or a text that spells it. -/
inductive SqlValue.IsInteger (i : Int) : SqlValue → Prop
  | int : IsInteger i (.int i)
  | text {s : String} (h : SpellsInteger s i) : IsInteger i (.text s)

/-- An integer is bound as it is, or as its digits. -/
theorem Json.IsInteger.ofJson {i : Int} {v : Json} (h : v.IsInteger i) :
    (SqlValue.ofJson v).IsInteger i := by
  cases h with
  | int =>
    rw [SqlValue.ofJson]
    split
    · exact .int
    · exact .text (spellsInteger_ofInt i)
  | str h => exact .text h

namespace Normalizer

variable (n : Normalizer) (column : String) {s : String} {i : Int}

/-- **A text that spells an integer is kept or read as that integer,** and read outside a column of
ids only when doubles hold it exactly. -/
theorem normalizeText_of_spellsInteger (h : SpellsInteger s i) :
    n.normalizeText column s = .str s ∨ n.normalizeText column s = .int i ∧
      (isIdColumn column = false → -maxSafeInteger ≤ i ∧ i ≤ maxSafeInteger) := by
  obtain ⟨hsigned, hread⟩ := spellsInteger_iff.1 h
  rw [normalizeText, h.booleanText?, h.isDocumentText, hsigned, hread]
  simp only [Bool.false_eq_true, if_false, if_true]
  split
  · rename_i hid
    rw [Bool.and_eq_true] at hid
    rw [← Text.readSigned_of_isDigits hid.2, hread]
    split
    · refine .inr ⟨rfl, fun hother => ?_⟩
      rw [hid.1] at hother
      cases hother
    · exact .inl rfl
  split
  · exact .inl rfl
  split
  · exact .inr ⟨rfl, fun _ => ‹_›⟩
  · exact .inl rfl

/-- **Normalizing rounds no integer.** -/
theorem normalize_isInteger {v : Json} (h : v.IsInteger i) :
    (n.normalize column v).IsInteger i := by
  cases h with
  | int =>
    rw [normalize, normalizeInt]
    split
    · exact .int
    split
    · exact .str (spellsInteger_ofInt i)
    · exact .int
  | str h =>
    rw [normalize]
    rcases n.normalizeText_of_spellsInteger column h with heq | ⟨heq, -⟩
    · rw [heq]
      exact .str h
    · rw [heq]
      exact .int

end Normalizer

namespace Compiler

variable {c : Compiler} {i : Int}

/-- In the document of a merged record an integer is itself or a text that spells it, too. -/
theorem sourceCell_isInteger (c : Compiler) (column : String) {v : Json} (h : v.IsInteger i) :
    (c.sourceCell column v).IsInteger i := by
  have hnormal := c.normalizer.normalize_isInteger column h
  rw [sourceCell]
  generalize c.normalizer.normalize column v = normal at hnormal
  cases hnormal with
  | int => exact .int
  | str h =>
    simp only [h.isDocumentText, Bool.false_eq_true, if_false]
    exact .str h

/-- What a text binds as an integer outside a column of ids is one that doubles hold exactly. -/
theorem bounds_of_ofJson_normalizeText (n : Normalizer) {column s : String}
    (h : SpellsInteger s i) (hid : isIdColumn column = false) {k : Int}
    (hk : SqlValue.ofJson (n.normalizeText column s) = .int k) :
    -(2 ^ 53 - 1) ≤ k ∧ k ≤ 2 ^ 53 - 1 := by
  rcases n.normalizeText_of_spellsInteger column h with heq | ⟨heq, hsafe⟩
  · rw [heq] at hk
    cases hk
  · have hbounds := hsafe hid
    rw [heq, SqlValue.ofJson] at hk
    split at hk
    · obtain rfl := SqlValue.int.inj hk
      unfold maxSafeInteger at hbounds
      omega
    · cases hk

/-- **No integer is rounded on its way to a parameter.**  For a number, or a text of digits that
spells it, a write binds the integer or a text that spells it, in every column; and what it binds as
an integer for a text is one that doubles hold exactly, unless the column is one of ids.  A merge
has the integer or such a text in its document. -/
theorem integer_is_bound (c : Compiler) (column : String) {v : Json} (h : v.IsInteger i) :
    (∀ (table : String) (spec : Option ConstraintSpec) (rows : RowSet) (plan : WritePlan),
      c.writing table spec rows = .ok plan →
      List.Forall₂ (c.Binds spec rows.columns) (c.chunked rows) plan.statements) ∧
    (∃ bound, c.boundValue? column v = some bound ∧ bound.IsInteger i ∧
      ∀ s, v = .str s → isIdColumn column = false →
        ∀ k, bound = .int k → -(2 ^ 53 - 1) ≤ k ∧ k ≤ 2 ^ 53 - 1) ∧
    (c.sourceCell column v).IsInteger i := by
  have hnull : v ≠ .null := by
    rintro rfl
    cases h
  refine ⟨fun _ _ _ _ hplan => binds_of_writing hplan, ⟨_, c.boundValue?_of_ne_null column hnull,
    (c.normalizer.normalize_isInteger column h).ofJson, ?_⟩, c.sourceCell_isInteger column h⟩
  rintro s rfl hid k hk
  cases h with
  | str h => exact bounds_of_ofJson_normalizeText c.normalizer h hid hk

/-- The least integer that doubles do not hold exactly, as a text of digits, in a column of ids and
in another one, and the greatest number of 64 bits. -/
theorem integer_is_bound_long :
    ∃ rows plan,
      RowSet.ofJson (.obj [("id", .str "0009007199254740993"),
        ("total", .str "0009007199254740993"), ("size", .int 18446744073709551615)]) =
        .ok rows ∧
      (ofDialect .sqlite).insert "file" rows = .ok plan ∧
      List.Forall₂ ((ofDialect .sqlite).Binds none rows.columns)
        ((ofDialect .sqlite).chunked rows) plan.statements ∧
      plan.statements.map (·.params) = [[.int 9007199254740993, .text "0009007199254740993",
        .text "18446744073709551615"]] ∧
      ∃ bound, (ofDialect .sqlite).boundValue? "total" (.str "0009007199254740993") =
        some bound ∧ bound.IsInteger 9007199254740993 := by
  have ht : TableName.resolve "file" (ofDialect .sqlite).options.schema =
      .ok ⟨none, "file"⟩ := rfl
  have hplan := (insert_yields (c := ofDialect .sqlite) ht ⟨["id", "total", "size"],
    [[.str "0009007199254740993", .str "0009007199254740993", .int 18446744073709551615]]⟩ _).2
      ⟨by decide, rfl⟩
  have hspells : SpellsInteger "0009007199254740993" 9007199254740993 :=
    spellsInteger_iff.2 ⟨by decide +kernel, by decide +kernel⟩
  obtain ⟨hbinds, ⟨bound, hbound, hinteger, -⟩, -⟩ :=
    integer_is_bound (ofDialect .sqlite) "total" (.str hspells)
  exact ⟨_, _, rfl, hplan, hbinds "file" none _ _ hplan, by decide +kernel, bound, hbound, hinteger⟩

end Compiler
end Querysmith
