/-
# Patterns of fixed texts

A pattern of plain characters leads from a position to at most one other, the one behind these
characters.  With `$` behind them it matches the texts that end in them (`isMatch_ending_iff`), and
with `^` in front as well, it matches just the one text (`isMatch_whole_iff`).  The patterns for
columns of ids are of these two forms, and find the columns that the normalizer takes for columns of
ids (`any_idPatterns`).
-/

import Mathlib.Data.List.Infix
import Querysmith.Cast
import Querysmith.Normalizer

namespace Querysmith
namespace Pattern

/-- The pattern with plain characters behind it. -/
def followedBy (p : Pattern) (cs : List Char) : Pattern :=
  cs.foldl (fun p c => seq p (literal c)) p

variable {p : Pattern} {q q' : Position}

/-- A sequence ends nowhere when its first part does. -/
theorem ends_seq_of_nil (h : ends p q = []) (a : Pattern) : ends (seq p a) q = [] := by
  rw [ends, h]
  rfl

/-- When the first part of a sequence has one end, the sequence ends where the second part does
behind it. -/
theorem ends_seq_of_singleton (h : ends p q = [q']) (a : Pattern) :
    ends (seq p a) q = (ends a q').eraseDups := by
  rw [ends, h, List.flatMap_singleton]

/-- No literal stands at the end of a text. -/
theorem ends_literal_nil (c : Char) (first : Bool) : ends (literal c) ⟨first, []⟩ = [] := rfl

/-- A plain character leads behind it where it stands, and nowhere else. -/
theorem ends_literal_cons (c d : Char) (first : Bool) (cs : List Char) :
    ends (literal c) ⟨first, d :: cs⟩ = if d = c then [⟨false, cs⟩] else [] := by
  have hrange : (decide (c ≤ d) && decide (d ≤ c)) = decide (d = c) := by
    rw [Bool.eq_iff_iff, Bool.and_eq_true]
    simp only [decide_eq_true_eq]
    exact ⟨fun h => Char.le_antisymm h.2 h.1, fun h => h ▸ ⟨Char.le_refl d, Char.le_refl d⟩⟩
  simp only [literal, ends, List.any_cons, List.any_nil, Bool.or_false, Bool.bne_false, hrange,
    decide_eq_true_eq]

/-- What ends nowhere ends nowhere with literals behind it. -/
theorem ends_followedBy_of_nil (h : ends p q = []) (cs : List Char) (a : Pattern) :
    ends (seq (followedBy p cs) a) q = [] := by
  induction cs generalizing p with
  | nil => exact ends_seq_of_nil h a
  | cons c cs ih => exact ih (ends_seq_of_nil h _)

/-- **Plain characters up to the end** match where just these characters are left. -/
theorem ends_followedBy_atEnd (h : ends p q = [q']) (cs : List Char) :
    ends (seq (followedBy p cs) atEnd) q ≠ [] ↔ q'.rest = cs := by
  -- The characters are taken from the front, so the pattern before them grows along the list.
  induction cs generalizing p q' with
  | nil =>
    have hend : ends (seq (followedBy p []) atEnd) q = (ends atEnd q').eraseDups :=
      ends_seq_of_singleton h atEnd
    rw [hend, ends]
    cases q'.rest <;> simp [List.eraseDups_cons]
  | cons c cs ih =>
    obtain ⟨first, rest⟩ := q'
    have hstep := ends_seq_of_singleton h (literal c)
    cases rest with
    | nil =>
      rw [ends_literal_nil] at hstep
      have hnone : ends (seq (followedBy p (c :: cs)) atEnd) q = [] :=
        ends_followedBy_of_nil hstep cs atEnd
      simpa using hnone
    | cons d rest =>
      rw [ends_literal_cons] at hstep
      by_cases hd : d = c
      · rw [if_pos hd] at hstep
        exact (ih hstep).trans (by simp [hd])
      · rw [if_neg hd] at hstep
        have hnone : ends (seq (followedBy p (c :: cs)) atEnd) q = [] :=
          ends_followedBy_of_nil hstep cs atEnd
        simpa [hd] using hnone

/-- The positions behind a character are not the first one. -/
theorem not_first_of_mem_laterPositions {cs : List Char} (h : q ∈ laterPositions cs) :
    q.first = false := by
  induction cs with
  | nil => cases h
  | cons c cs ih =>
    rw [laterPositions, List.mem_cons] at h
    rcases h with rfl | h
    · rfl
    · exact ih h

/-- What is left at the positions of a text are its ends. -/
theorem map_rest_positions (cs : List Char) : (positions cs).map (·.rest) = cs.tails := by
  induction cs with
  | nil => rfl
  | cons c cs ih =>
    rw [List.tails_cons, ← ih]
    rfl

/-- The pattern matches when it leads anywhere from some position. -/
theorem isMatch_iff (p : Pattern) (s : String) :
    p.isMatch s = true ↔ ∃ q ∈ positions s.toList, ends p q ≠ [] := by
  simp [isMatch]

/-- **Plain characters up to the end match the texts that end in them.** -/
theorem isMatch_ending_iff (cs : List Char) (s : String) :
    (seq (followedBy empty cs) atEnd).isMatch s = true ↔ cs <:+ s.toList := by
  rw [isMatch_iff, ← List.mem_tails, ← map_rest_positions, List.mem_map]
  exact exists_congr fun q => and_congr_right fun _ => ends_followedBy_atEnd rfl cs

/-- **Plain characters from start to end match just that text.** -/
theorem isMatch_whole_iff (cs : List Char) (s : String) :
    (seq (followedBy (seq empty atStart) cs) atEnd).isMatch s = true ↔ s.toList = cs := by
  rw [isMatch_iff]
  constructor
  · rintro ⟨q, hq, hends⟩
    rcases List.mem_cons.1 hq with rfl | hlater
    · exact (ends_followedBy_atEnd rfl cs).1 hends
    · have hstart : ends (seq empty atStart) q = [] := by
        simp [ends, not_first_of_mem_laterPositions hlater]
      exact absurd (ends_followedBy_of_nil hstart cs atEnd) hends
  · intro heq
    exact ⟨⟨true, s.toList⟩, List.mem_cons_self, (ends_followedBy_atEnd rfl cs).2 heq⟩

end Pattern

/-- **The patterns of ids find the columns of ids.** -/
theorem CastRegistry.any_idPatterns (column : String) :
    (idPatterns.any fun pattern => pattern.pattern.isMatch column) = isIdColumn column := by
  have hpatterns : idPatterns = [
      ⟨"^id$", .seq (.followedBy (.seq .empty .atStart) "id".toList) .atEnd⟩,
      ⟨"_id$", .seq (.followedBy .empty "_id".toList) .atEnd⟩] := rfl
  rw [Bool.eq_iff_iff, hpatterns]
  simp only [List.any_cons, List.any_nil, Bool.or_false, Bool.or_eq_true,
    Pattern.isMatch_whole_iff, Pattern.isMatch_ending_iff]
  rw [isIdColumn, Text.endsWith, Bool.or_eq_true, List.isSuffixOf_iff_suffix, beq_iff_eq,
    String.toList_inj]

end Querysmith
