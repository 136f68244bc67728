/-
# The number of a count

A count is answered with a row that holds its number under `number`.  Which number a cell tells is
said here without the engine (`Json.Tells`): an integer from `0` to `2^64 - 1` tells itself, and a
text tells the number of that range that it spells, in decimal digits that perhaps follow a plus
sign, with any blanks around them (`Text.Spells`).  The engine takes a number from a cell when the
cell tells it and not otherwise (`countValue?_eq_some_iff`).  So it reports the number that the
answer tells (`reports_ok_iff`), and zero when the answer tells none or the count has failed
(`reports_error_iff`).
-/

import Querysmith.Engine
import Querysmith.Proofs.Json.Document
import Querysmith.Proofs.Json.Scalar

namespace Querysmith

namespace Text

/-- The characters are decimal digits of a number, leading zeros included, perhaps behind a plus
sign. -/
def SpelledBy (n : Nat) (cs : List Char) : Prop :=
  ∃ plus digits, cs = plus ++ digits ∧ (plus = [] ∨ plus = ['+']) ∧ isDigits digits = true ∧
    readDecimal digits = n

/-- The text spells a natural number, with any blanks around it. -/
def Spells (s : String) (n : Nat) : Prop :=
  ∃ before cs behind, s.toList = before ++ (cs ++ behind) ∧ SpelledBy n cs ∧
    ∀ c ∈ before ++ behind, isBlank c = true

variable {cs : List Char} {n : Nat}

/-- No blank takes part in spelling a number. -/
theorem SpelledBy.isBlank_eq_false (h : SpelledBy n cs) {c : Char} (hc : c ∈ cs) :
    isBlank c = false := by
  obtain ⟨plus, digits, rfl, hplus, hdigits, -⟩ := h
  rw [isDigits, Bool.and_eq_true, List.all_eq_true] at hdigits
  rcases List.mem_append.1 hc with hc | hc
  · rcases hplus with rfl | rfl
    · cases hc
    · obtain rfl := List.mem_singleton.1 hc
      decide
  · exact isBlank_of_isDigit (hdigits.2 c hc)

/-- Behind a plus sign there are digits.  The sign is no digit, so it cannot be one of them. -/
theorem spelledBy_plus_iff :
    SpelledBy n ('+' :: cs) ↔ isDigits cs = true ∧ readDecimal cs = n := by
  constructor
  · rintro ⟨plus, digits, hplus, rfl | rfl, hdigits, hn⟩
    · rw [← List.nil_append digits, ← hplus] at hdigits
      cases hdigits
    · obtain rfl := (List.cons.inj hplus).2
      exact ⟨hdigits, hn⟩
  · rintro ⟨hdigits, hn⟩
    exact ⟨['+'], cs, rfl, .inr rfl, hdigits, hn⟩

/-- Without a plus sign there are digits alone. -/
theorem spelledBy_iff_of_ne_plus (h : ∀ ds, cs ≠ '+' :: ds) :
    SpelledBy n cs ↔ isDigits cs = true ∧ readDecimal cs = n := by
  constructor
  · rintro ⟨plus, digits, rfl, rfl | rfl, hdigits, hn⟩
    · exact ⟨hdigits, hn⟩
    · exact absurd rfl (h digits)
  · rintro ⟨hdigits, hn⟩
    exact ⟨[], cs, rfl, .inl rfl, hdigits, hn⟩

/-- A text spells a number when what is left of it by trimming does. -/
theorem spells_iff_trim {s : String} : Spells s n ↔ SpelledBy n (trim s).toList := by
  rw [trim, String.toList_ofList]
  constructor
  · rintro ⟨before, cs, behind, hs, hcs, hblank⟩
    rw [List.forall_mem_append] at hblank
    have hhead : ∀ c ∈ cs.head?, isBlank c = false := fun c hc =>
      hcs.isBlank_eq_false (List.mem_of_mem_head? hc)
    have hlast : ∀ c ∈ cs.getLast?, isBlank c = false := fun c hc =>
      hcs.isBlank_eq_false (List.mem_of_mem_getLast? hc)
    rwa [hs, trimChars_padded hblank.1 hblank.2 hhead hlast]
  · intro h
    refine ⟨leadingBlanks s.toList, _, trailingBlanks s.toList, eq_trimChars s.toList, h, ?_⟩
    exact List.forall_mem_append.2 ⟨fun c => isBlank_of_mem_leadingBlanks,
      fun c => isBlank_of_mem_trailingBlanks⟩

end Text

namespace Config

variable {bound n : Nat}

/-- Digits are read up to the bound.  A number that has grown past it stays past it, so reading may
stop there. -/
theorem readDigits_eq_ok_iff {acc : Nat} (hacc : acc ≤ bound) (cs : List Char) :
    readDigits bound acc cs = .ok n ↔ (∀ c ∈ cs, c.isDigit = true) ∧
      cs.foldl (fun n c => 10 * n + Text.digitValue c) acc = n ∧ n ≤ bound := by
  induction cs generalizing acc with
  | nil =>
    rw [readDigits, Except.ok.injEq]
    constructor
    · rintro rfl
      exact ⟨List.forall_mem_nil _, rfl, hacc⟩
    · exact fun h => h.2.1
  | cons c cs ih =>
    rw [readDigits, List.forall_mem_cons, List.foldl_cons]
    by_cases hdigit : c.isDigit = true
    · by_cases hlarge : bound < 10 * acc + Text.digitValue c
      · have hgrown := Json.le_foldl_digits cs (10 * acc + Text.digitValue c)
        simp only [hdigit, hlarge, if_true, reduceCtorEq, false_iff]
        rintro ⟨-, rfl, hn⟩
        omega
      · simp only [hdigit, hlarge, if_true, if_false, true_and]
        exact ih (by omega)
    · simp [hdigit]

/-- Digits alone spell the number that they write; an empty text spells none. -/
theorem digits_eq_ok_iff (cs : List Char) :
    (if cs.isEmpty then Except.error .badDigit else readDigits bound 0 cs) = .ok n ↔
      (Text.isDigits cs = true ∧ Text.readDecimal cs = n) ∧ n ≤ bound := by
  rw [Text.isDigits, Text.readDecimal, Bool.and_eq_true, List.all_eq_true]
  cases cs with
  | nil => simp
  | cons c cs => simp [readDigits_eq_ok_iff (Nat.zero_le bound), and_assoc]

/-- **A natural number is read where it is spelled,** and up to the bound. -/
theorem readNatural_eq_ok_iff (s : String) :
    readNatural bound s = .ok n ↔ Text.SpelledBy n s.toList ∧ n ≤ bound := by
  rw [readNatural, digits_eq_ok_iff]
  refine and_congr_left fun _ => ?_
  split
  · rename_i cs hplus
    rw [hplus, Text.spelledBy_plus_iff]
  · rename_i hplus
    rw [Text.spelledBy_iff_of_ne_plus hplus]

end Config

/-- The cell tells a number from `0` to `2^64 - 1`: it is that integer, or a text that spells it. -/
inductive Json.Tells : Json → Nat → Prop
  | int {n : Nat} (h : n < UInt64.size) : Tells (.int n) n
  | text {s : String} {n : Nat} (h : Text.Spells s n) (hn : n < UInt64.size) : Tells (.str s) n

namespace Engine

variable {answer : Except Error (List Record)} {number : Nat}

/-- The first row of the answer holds a cell `number` that tells the number. -/
def AnswerTells (answer : Except Error (List Record)) (number : Nat) : Prop :=
  ∃ row rows cell, answer = .ok (row :: rows) ∧ row.lookup "number" = some cell ∧ cell.Tells number

/-- The number that is reported for the answer to a count: the one that the answer tells, and zero
when it tells none, as when the count has failed. -/
def Reports (answer : Except Error (List Record)) (number : Nat) : Prop :=
  AnswerTells answer number ∨ number = 0 ∧ ∀ told, ¬AnswerTells answer told

/-- **A number is taken from a cell that tells it,** and from no other. -/
theorem countValue?_eq_some_iff {cell : Json} :
    countValue? cell = some number ↔ cell.Tells number := by
  have hword : ∀ n, n ≤ maxWord ↔ n < UInt64.size := fun n => Nat.lt_succ_iff.symm
  match cell with
  | .int (.ofNat m) =>
    have hcell : countValue? (.int (.ofNat m)) = if m ≤ maxWord then some m else none := by
      simp [countValue?]
    rw [hcell, Option.ite_none_right_eq_some, Option.some.injEq, hword]
    constructor
    · rintro ⟨h, rfl⟩
      exact .int h
    · rintro (h | _)
      exact ⟨h, rfl⟩
  | .int (.negSucc m) =>
    constructor
    · intro h
      simp [countValue?] at h
    · rintro ⟨⟩
  | .str s =>
    have htold : ∀ told : Except NumberFault Nat, told.toOption = some number ↔ told = .ok number :=
      fun told => by cases told <;> simp [Except.toOption]
    rw [countValue?, htold, Config.readNatural_eq_ok_iff, hword, ← Text.spells_iff_trim]
    constructor
    · rintro ⟨h, hn⟩
      exact .text h hn
    · rintro (_ | ⟨h, hn⟩)
      exact ⟨h, hn⟩
  | .null | .bool _ | .float _ | .arr _ | .obj _ =>
    constructor <;> intro h <;> cases h

/-- The engine finds a number in the rows of an answer just when the answer tells it. -/
theorem answerTells_ok_iff {rows : List Record} : AnswerTells (.ok rows) number ↔
    (rows.head?.bind (·.lookup "number")).bind countValue? = some number := by
  cases rows with
  | nil => simp [AnswerTells]
  | cons row rows => simp [AnswerTells, Option.bind_eq_some_iff, countValue?_eq_some_iff]

/-- The engine reports what the first row tells. -/
theorem reports_ok_iff {rows : List Record} : Reports (.ok rows) number ↔
    number = ((rows.head?.bind (·.lookup "number")).bind countValue?).getD 0 := by
  simp only [Reports, answerTells_ok_iff]
  cases (rows.head?.bind (·.lookup "number")).bind countValue? <;> simp [eq_comm]

/-- A count that has failed is reported as zero. -/
theorem reports_error_iff {err : Error} : Reports (.error err) number ↔ number = 0 := by
  simp [Reports, AnswerTells]

end Engine
end Querysmith
