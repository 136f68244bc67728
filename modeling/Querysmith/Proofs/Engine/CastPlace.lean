/-
# Casts behind characters

Writing casts into a text leaves every character where it stands and puts a cast behind some of
them.  So the result is the text with a piece behind each character, most of them empty (`Marked`):
without the pieces it is the text, and with them it is what is written.  A cast stands behind the
last digit of a placeholder, never in front of another cast (`Placed`).  Where it stands decides
which one it is, and a cast begins unlike the text behind it, so that two ways to put casts into one
text write the same only when they put the same casts in the same places (`Placed.eq_of_written`).
-/

import Mathlib.Data.List.Basic
import Querysmith.Engine.InferredCast

namespace Querysmith
namespace InferredCast

/-- A text with a piece behind each of its characters. -/
abbrev Marked := List (Char × List Char)

namespace Marked

/-- The text without the pieces. -/
def original (ms : Marked) : List Char := ms.map (·.1)

/-- The text with the pieces. -/
def written (ms : Marked) : List Char := ms.flatMap fun m => m.1 :: m.2

/-- The text with one piece behind it. -/
def withEnd : List Char → List Char → Marked
  | [], _ => []
  | [c], piece => [(c, piece)]
  | c :: d :: cs, piece => (c, []) :: withEnd (d :: cs) piece

/-- A piece stands behind what the text begins with. -/
def HasPiece : Marked → List Char → Prop
  | (c, piece) :: ms, d :: before => d = c ∧ (before = [] ∧ piece ≠ [] ∨ HasPiece ms before)
  | _, _ => False

/-- A character is kept. -/
@[simp] theorem original_cons (c : Char) (piece : List Char) (ms : Marked) :
    original ((c, piece) :: ms) = c :: original ms := rfl

/-- A character is written with the piece behind it. -/
@[simp] theorem written_cons (c : Char) (piece : List Char) (ms : Marked) :
    written ((c, piece) :: ms) = c :: (piece ++ written ms) := rfl

/-- The characters of two stretches are kept one after another. -/
@[simp] theorem original_append (ms ns : Marked) :
    original (ms ++ ns) = original ms ++ original ns := List.map_append

/-- Two stretches are written one after another. -/
@[simp] theorem written_append (ms ns : Marked) :
    written (ms ++ ns) = written ms ++ written ns := List.flatMap_append

/-- A piece at the end changes no character. -/
theorem original_withEnd (cs piece : List Char) : original (withEnd cs piece) = cs := by
  fun_induction withEnd cs piece with
  | case1 | case2 => rfl
  | case3 c d cs piece ih => exact congrArg (c :: ·) ih

/-- A piece at the end is written behind all characters. -/
theorem written_withEnd {cs : List Char} (h : cs ≠ []) (piece : List Char) :
    written (withEnd cs piece) = cs ++ piece := by
  fun_induction withEnd cs piece with
  | case1 => exact absurd rfl h
  | case2 => simp [written]
  | case3 c d cs piece ih => exact congrArg (c :: ·) (ih (List.cons_ne_nil d cs))

/-- Nothing stands behind nothing. -/
@[simp] theorem not_hasPiece_nil (before : List Char) : ¬HasPiece [] before := by
  simp [HasPiece]

/-- A piece stands behind the first character, or behind a stretch that begins with it. -/
theorem hasPiece_cons {c : Char} {piece before : List Char} {ms : Marked} :
    HasPiece ((c, piece) :: ms) before ↔
      before = [c] ∧ piece ≠ [] ∨ ∃ rest, before = c :: rest ∧ ms.HasPiece rest := by
  cases before with
  | nil => simp [HasPiece]
  | cons d before =>
    rw [HasPiece, List.cons.injEq]
    constructor
    · rintro ⟨rfl, ⟨rfl, hpiece⟩ | hrest⟩
      · exact .inl ⟨⟨rfl, rfl⟩, hpiece⟩
      · exact .inr ⟨before, rfl, hrest⟩
    · rintro (⟨⟨rfl, rfl⟩, hpiece⟩ | ⟨rest, heq, hrest⟩)
      · exact ⟨rfl, .inl ⟨rfl, hpiece⟩⟩
      · obtain ⟨rfl, rfl⟩ := List.cons.inj heq
        exact ⟨rfl, .inr hrest⟩

/-- No piece stands in front of the text. -/
theorem not_hasPiece_of_nil (ms : Marked) : ¬HasPiece ms [] := by
  cases ms <;> simp [HasPiece]

/-- The piece behind a text stands behind all of it. -/
theorem hasPiece_withEnd_append {cs piece before : List Char} {ms : Marked} (h : cs ≠ []) :
    HasPiece (withEnd cs piece ++ ms) before ↔
      before = cs ∧ piece ≠ [] ∨ ∃ rest, before = cs ++ rest ∧ ms.HasPiece rest := by
  fun_induction withEnd cs piece generalizing before with
  | case1 => exact absurd rfl h
  | case2 c piece => exact hasPiece_cons
  | case3 c d cs piece ih =>
    rw [List.cons_append, hasPiece_cons]
    constructor
    · rintro (⟨-, hpiece⟩ | ⟨tail, rfl, htail⟩)
      · exact absurd rfl hpiece
      · obtain ⟨rfl, hpiece⟩ | ⟨rest, rfl, hrest⟩ := (ih (List.cons_ne_nil d cs)).1 htail
        · exact .inl ⟨rfl, hpiece⟩
        · exact .inr ⟨rest, rfl, hrest⟩
    · rintro (⟨rfl, hpiece⟩ | ⟨rest, rfl, hrest⟩)
      · exact .inr ⟨_, rfl, (ih (List.cons_ne_nil d cs)).2 (.inl ⟨rfl, hpiece⟩)⟩
      · exact .inr ⟨_, rfl, (ih (List.cons_ne_nil d cs)).2 (.inr ⟨rest, rfl, hrest⟩)⟩

end Marked

/-- A cast stands behind a text that ends in a placeholder whose entry is set, where neither another
digit nor a cast follows. -/
structure IsCast (casts : List (Option String)) (before piece behind : List Char) : Prop where
  exists_placeholder : ∃ start digits, before = start ++ '$' :: digits ∧ digits ≠ [] ∧
    (∀ c ∈ digits, c.isDigit = true) ∧ ∃ target, 0 < Text.readDecimal digits ∧
      casts[Text.readDecimal digits - 1]? = some (some target) ∧ piece = ':' :: ':' :: target.toList
  no_digit : behind.head?.any Char.isDigit = false
  no_cast : [':', ':'].isPrefixOf behind = false

/-- Every piece behind a character is a cast. -/
def Placed (casts : List (Option String)) : List Char → Marked → Prop
  | _, [] => True
  | before, (c, piece) :: ms =>
    (piece = [] ∨ IsCast casts (before ++ [c]) piece (Marked.original ms)) ∧
      Placed casts (before ++ [c]) ms

variable {casts : List (Option String)} {before : List Char}

/-- The digits that a text ends in, behind a sign, are told by the text. -/
theorem digits_unique {start start' digits digits' : List Char}
    (h : start ++ '$' :: digits = start' ++ '$' :: digits')
    (hdigits : ∀ c ∈ digits, c.isDigit = true) (hdigits' : ∀ c ∈ digits', c.isDigit = true) :
    digits = digits' := by
  have hrun : ∀ {start digits : List Char}, (∀ c ∈ digits, c.isDigit = true) →
      (start ++ '$' :: digits).reverse.takeWhile Char.isDigit = digits.reverse := by
    intro start digits hdigits
    have hreverse : ∀ c ∈ digits.reverse, c.isDigit = true := by simpa using hdigits
    rw [List.reverse_append, List.reverse_cons, List.append_assoc,
      List.takeWhile_append_of_pos hreverse, List.singleton_append,
      List.takeWhile_cons_of_neg (by decide), List.append_nil]
  have := @hrun start digits hdigits
  rw [h, hrun hdigits', List.reverse_inj] at this
  exact this.symm

/-- One place has one cast. -/
theorem IsCast.unique {piece piece' behind behind' : List Char}
    (h : IsCast casts before piece behind) (h' : IsCast casts before piece' behind') :
    piece = piece' := by
  obtain ⟨start, digits, hbefore, -, hdigits, target, -, htarget, rfl⟩ := h.exists_placeholder
  obtain ⟨start', digits', hbefore', -, hdigits', target', -, htarget', rfl⟩ :=
    h'.exists_placeholder
  obtain rfl := digits_unique (hbefore.symm.trans hbefore') hdigits hdigits'
  rw [htarget] at htarget'
  simp_all

namespace Placed

/-- Only behind a digit stands a cast, so that no cast stands behind a colon. -/
theorem piece_colon {piece : List Char} {ms : Marked}
    (h : Placed casts before ((':', piece) :: ms)) : piece = [] := by
  refine h.1.resolve_right fun hcast => ?_
  obtain ⟨start, digits, hbefore, hne, hdigits, -⟩ := hcast.exists_placeholder
  obtain ⟨init, last, rfl⟩ := (List.eq_nil_or_concat digits).resolve_left hne
  have hlast : [':'] = [last] := by
    rw [List.concat_eq_append, ← List.cons_append, ← List.append_assoc] at hbefore
    exact (List.append_inj' hbefore rfl).2
  obtain rfl := List.singleton_inj.1 hlast
  exact absurd (hdigits ':' (by simp)) (by decide)

/-- What is written behind a cast does not begin with a cast. -/
theorem no_cast_written {ms : Marked} (h : Placed casts before ms)
    (hcast : [':', ':'].isPrefixOf (Marked.original ms) = false) :
    [':', ':'].isPrefixOf (Marked.written ms) = false := by
  match ms, h with
  | [], _ => rfl
  | (c, piece) :: ms, h =>
    by_cases hc : c = ':'
    · subst hc
      obtain rfl := h.piece_colon
      match ms, h.2 with
      | [], _ => rfl
      | (d, piece) :: ms, _ => simpa [List.isPrefixOf] using hcast
    · simp [List.isPrefixOf, Ne.symm hc]

/-- **Casts in one text that write the same are the same casts in the same places.** -/
theorem eq_of_written {ms ns : Marked} (hm : Placed casts before ms) (hn : Placed casts before ns)
    (horiginal : ms.original = ns.original) (hwritten : ms.written = ns.written) : ms = ns := by
  induction ms generalizing ns before with
  | nil =>
    cases ns with
    | nil => rfl
    | cons n ns => cases horiginal
  | cons m ms ih =>
    cases ns with
    | nil => cases horiginal
    | cons n ns =>
      obtain ⟨c, piece⟩ := m
      obtain ⟨d, piece'⟩ := n
      rw [Marked.original_cons, Marked.original_cons, List.cons.injEq] at horiginal
      obtain ⟨rfl, horiginal⟩ := horiginal
      rw [Marked.written_cons, Marked.written_cons, List.cons.injEq] at hwritten
      have hwritten := hwritten.2
      have hpiece : piece = piece' := by
        rcases hm.1 with rfl | hcast <;> rcases hn.1 with rfl | hcast'
        · rfl
        · -- One way writes a cast here and the other one goes on with the text.
          obtain ⟨-, -, -, -, -, target, -, -, rfl⟩ := hcast'.exists_placeholder
          have hno := hm.2.no_cast_written (horiginal ▸ hcast'.no_cast)
          rw [List.nil_append] at hwritten
          rw [hwritten] at hno
          simp [List.isPrefixOf] at hno
        · obtain ⟨-, -, -, -, -, target, -, -, rfl⟩ := hcast.exists_placeholder
          have hno := hn.2.no_cast_written (horiginal ▸ hcast.no_cast)
          rw [List.nil_append] at hwritten
          rw [← hwritten] at hno
          simp [List.isPrefixOf] at hno
        · exact hcast.unique hcast'
      subst hpiece
      rw [ih hm.2 hn.2 horiginal (List.append_cancel_left hwritten)]

/-- Casts in one text are the same when they stand in the same places. -/
theorem ext_iff {ms ns : Marked} (hm : Placed casts before ms) (hn : Placed casts before ns)
    (horiginal : ms.original = ns.original) :
    ms = ns ↔ ∀ front, ms.HasPiece front ↔ ns.HasPiece front := by
  refine ⟨fun h front => by rw [h], fun h => ?_⟩
  induction ms generalizing ns before with
  | nil =>
    cases ns with
    | nil => rfl
    | cons n ns => cases horiginal
  | cons m ms ih =>
    cases ns with
    | nil => cases horiginal
    | cons n ns =>
      obtain ⟨c, piece⟩ := m
      obtain ⟨d, piece'⟩ := n
      rw [Marked.original_cons, Marked.original_cons, List.cons.injEq] at horiginal
      obtain ⟨rfl, horiginal⟩ := horiginal
      have hpiece : piece = piece' := by
        -- The place behind the first character has a cast in both or in neither, and a cast is
        -- determined by its place.
        have hset := h [c]
        simp only [Marked.HasPiece, Marked.not_hasPiece_of_nil, true_and, or_false] at hset
        rcases hm.1 with rfl | hcast
        · exact (not_not.1 (hset.not.1 (not_not.2 rfl))).symm
        · rcases hn.1 with rfl | hcast'
          · exact not_not.1 (hset.not.2 (not_not.2 rfl))
          · exact hcast.unique (horiginal ▸ hcast')
      subst hpiece
      refine congrArg _ (ih hm.2 hn.2 horiginal fun front => ?_)
      cases front with
      | nil => simp only [Marked.not_hasPiece_of_nil]
      | cons e front =>
        have hrest := h (c :: e :: front)
        simpa only [Marked.HasPiece, true_and, List.cons_ne_nil, false_and, false_or] using hrest

/-- Behind a text with one piece at its end, casts go on. -/
theorem withEnd_append {cs piece : List Char} {ms : Marked} (hne : cs ≠ [])
    (hpiece : piece = [] ∨ IsCast casts (before ++ cs) piece ms.original)
    (h : Placed casts (before ++ cs) ms) : Placed casts before (Marked.withEnd cs piece ++ ms) := by
  fun_induction Marked.withEnd cs piece generalizing before with
  | case1 => exact absurd rfl hne
  | case2 c piece => exact ⟨hpiece, h⟩
  | case3 c d cs piece ih =>
    refine ⟨.inl rfl, ih (List.cons_ne_nil d cs) ?_ ?_⟩
    · rwa [List.append_assoc, List.singleton_append]
    · rwa [List.append_assoc, List.singleton_append]

end Placed

end InferredCast
end Querysmith
