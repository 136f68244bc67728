/-
# Brackets around documents

The reader takes a value from the head of a text and leaves what follows it, so what it leaves is
the end of the text (`leavesEnd`).  An array or object is left right behind its closing bracket, and
it begins with its opening one.  A text without blanks at its ends has nothing around such a value,
so it begins and ends with the brackets of the value: looking at the first and the last character
refuses no array and no object (`isBracketed_of_parse?`), and lets nothing else through
(`isDocumentText_iff_parse?`).
-/

import Mathlib.Data.List.DropRight
import Querysmith.Proofs.Json.Document

namespace Querysmith

namespace Text

/-- Neither the first nor the last character of a trimmed text is blank. -/
theorem isBlank_trimChars (cs : List Char) :
    (∀ c ∈ (trimChars cs).head?, isBlank c = false) ∧
      ∀ c ∈ (trimChars cs).getLast?, isBlank c = false := by
  have htrim : trimChars cs = (cs.dropWhile isBlank).rdropWhile isBlank := rfl
  rw [htrim]
  constructor
  · intro c hc
    obtain ⟨behind, hbehind⟩ := List.rdropWhile_prefix isBlank (cs.dropWhile isBlank)
    have hhead : c ∈ (cs.dropWhile isBlank).head? := by
      rw [← hbehind]
      exact List.mem_head?_append_of_mem_head? hc
    have hnot := List.head?_dropWhile_not isBlank cs
    rw [Option.mem_def.1 hhead] at hnot
    simpa using hnot
  · intro c hc
    obtain ⟨hne, rfl⟩ := List.mem_getLast?_eq_getLast hc
    simpa using List.rdropWhile_last_not isBlank (cs.dropWhile isBlank) hne

/-- The last character that is no blank, with blanks behind it at most, is the last one of a text
that does not end in a blank. -/
theorem getLast?_of_suffix {c : Char} {cs rest : List Char} (h : c :: rest <:+ cs)
    (hrest : ∀ d ∈ rest, isBlank d = true) (hlast : ∀ d ∈ cs.getLast?, isBlank d = false) :
    cs.getLast? = some c := by
  obtain ⟨before, rfl⟩ := h
  rw [List.getLast?_append_of_ne_nil _ (List.cons_ne_nil c rest)] at hlast ⊢
  induction rest using List.reverseRecOn with
  | nil => rfl
  | append_singleton rest d _ =>
    rw [← List.cons_append, List.getLast?_concat] at hlast
    have hblank := hrest d (List.mem_append_right _ (List.mem_singleton_self d))
    rw [hlast d rfl] at hblank
    cases hblank

end Text

namespace Json

variable {cs rest : List Char} {v : Json}

/-! ### Strings and numbers -/

/-- Behind four hexadecimal digits stands the end of the text. -/
theorem hexQuad?_suffix {n : Nat} (h : hexQuad? cs = some (n, rest)) : rest <:+ cs := by
  match cs, h with
  | a :: b :: c :: d :: cs, h =>
    simp only [hexQuad?, Option.bind_eq_bind, Option.bind_eq_some_iff] at h
    obtain ⟨a', -, b', -, c', -, d', -, h⟩ := h
    obtain ⟨rfl, rfl⟩ : _ ∧ cs = rest := by simpa using h
    exact ⟨[a, b, c, d], rfl⟩

/-- Behind an escape stands the end of the text. -/
theorem escaped?_suffix {c : Char} (h : escaped? cs = some (c, rest)) : rest <:+ cs := by
  rw [escaped?.eq_def] at h
  split at h
  case h_9 cs =>
    obtain ⟨⟨high, behind⟩, hhigh, h⟩ := Option.bind_eq_some_iff.1 h
    have hbehind : behind <:+ 'u' :: cs := (hexQuad?_suffix hhigh).trans (List.suffix_cons _ _)
    simp only at h
    split at h
    · obtain ⟨rfl, rfl⟩ : _ ∧ behind = rest := by simpa using h
      exact hbehind
    · split at h
      · cases h
      · split at h
        · rename_i ds
          obtain ⟨⟨low, tail⟩, hlow, h⟩ := Option.bind_eq_some_iff.1 h
          simp only at h
          split at h
          · cases h
          · obtain ⟨rfl, rfl⟩ : _ ∧ tail = rest := by simpa using h
            refine (hexQuad?_suffix hlow).trans (List.IsSuffix.trans ?_ hbehind)
            exact ⟨['\\', 'u'], rfl⟩
        · cases h
  case h_10 => cases h
  all_goals
    obtain ⟨rfl, rfl⟩ := Prod.mk.inj (Option.some.inj h)
    exact List.suffix_cons _ _

/-- Behind the closing quote of a string stands the end of the text. -/
theorem stringBody_suffix {fuel : Nat} {acc : List Char} {s : String}
    (h : stringBody fuel acc cs = some (s, rest)) : rest <:+ cs := by
  induction fuel, acc, cs using stringBody.induct with
  | case1 fuel acc cs =>
    rw [stringBody] at h
    obtain ⟨rfl, rfl⟩ := Prod.mk.inj (Option.some.inj h)
    exact List.suffix_cons _ _
  | case2 fuel acc cs c tail hescape ih =>
    -- An escape is several characters of the text.
    rw [stringBody, hescape] at h
    exact ((ih h).trans (escaped?_suffix hescape)).trans (List.suffix_cons _ _)
  | case3 fuel acc cs hescape =>
    rw [stringBody, hescape] at h
    cases h
  | case4 fuel acc c cs hquote hescape hlow =>
    rw [stringBody.eq_3 _ _ _ _ hquote hescape, if_pos hlow] at h
    cases h
  | case5 fuel acc c cs hquote hescape hlow ih =>
    rw [stringBody.eq_3 _ _ _ _ hquote hescape, if_neg hlow] at h
    exact (ih h).trans (List.suffix_cons _ _)
  | case6 fuel acc cs hquote hescape hplain =>
    rw [stringBody.eq_4 _ _ _ hquote hescape hplain] at h
    cases h

/-- Behind a string stands the end of the text. -/
theorem string_suffix {s : String} (h : string cs = some (s, rest)) : rest <:+ cs :=
  stringBody_suffix h

/-- Behind the sign of an exponent stands the end of the text. -/
theorem exponentSign_suffix (cs : List Char) : (exponentSign cs).2 <:+ cs := by
  rw [exponentSign.eq_def]
  split
  · exact List.suffix_cons _ _
  · exact List.suffix_cons _ _
  · exact List.suffix_rfl

/-- Behind a minus sign stands the end of the text. -/
theorem minusSign_suffix (cs : List Char) : (minusSign cs).2 <:+ cs := by
  rw [minusSign.eq_def]
  split
  · exact List.suffix_cons _ _
  · exact List.suffix_rfl

/-- Behind an exponent, or the place where one may stand, stands the end of the text. -/
theorem exponentField_suffix {negative : Bool} {significand : Nat} {exponent : Int}
    (h : exponentField negative significand exponent cs = some (v, rest)) : rest <:+ cs := by
  cases cs with
  | nil => exact exponentField_nil h ▸ List.suffix_rfl
  | cons c cs =>
    rw [exponentField_cons] at h
    split at h
    · split at h
      · cases h
      · obtain ⟨x, -, heq⟩ := Option.map_eq_some_iff.1 h
        obtain ⟨-, rfl⟩ := Prod.mk.inj heq
        exact ((List.dropWhile_suffix _).trans (exponentSign_suffix cs)).trans
          (List.suffix_cons c cs)
    · obtain ⟨x, -, heq⟩ := Option.map_eq_some_iff.1 h
      obtain ⟨-, rfl⟩ := Prod.mk.inj heq
      exact List.suffix_rfl

/-- Behind the digits of a number and what may follow them stands the end of the text. -/
theorem numberTail_suffix {negative : Bool} {whole : List Char}
    (h : numberTail negative whole cs = some (v, rest)) : rest <:+ cs := by
  cases cs with
  | nil => exact numberTail_nil h ▸ List.suffix_rfl
  | cons c cs =>
    by_cases hc : c = '.'
    · subst hc
      rw [numberTail_point] at h
      split at h
      · cases h
      · exact ((exponentField_suffix h).trans (List.dropWhile_suffix _)).trans
          (List.suffix_cons _ _)
    · rw [numberTail_of_ne_point _ _ hc] at h
      split at h
      · exact exponentField_suffix h
      · exact (integer_append (t := []) h).1 ▸ List.suffix_rfl

/-- Behind a number stands the end of the text. -/
theorem number_suffix (h : number cs = some (v, rest)) : rest <:+ cs := by
  rw [number_eq] at h
  split at h
  · cases h
  · cases h
  · exact ((numberTail_suffix h).trans (List.dropWhile_suffix _)).trans (minusSign_suffix cs)

/-! ### Values -/

/-- Without the space at its head a text is an end of itself. -/
theorem skipSpace_suffix (cs : List Char) : skipSpace cs <:+ cs :=
  List.dropWhile_suffix isSpace

/-- A text behind spaces and a character is behind the spaces. -/
theorem suffix_of_skipSpace {c : Char} {ds : List Char} (h : skipSpace cs = c :: ds) :
    ds <:+ cs :=
  (List.suffix_cons c ds).trans (h ▸ skipSpace_suffix cs)

/-- What the reader leaves is the end of the text, for the parts of an array or object with the
closing bracket in front. -/
structure LeavesEnd (fuel : Nat) : Prop where
  value : ∀ depth cs v rest, value fuel depth cs = some (v, rest) → rest <:+ cs
  items : ∀ depth acc cs v rest, items fuel depth acc cs = some (v, rest) → ']' :: rest <:+ cs
  fields : ∀ depth acc cs v rest, fields fuel depth acc cs = some (v, rest) →
    '\x7d' :: rest <:+ cs

/-- Behind an opening bracket the closing one comes at the end of what is read. -/
theorem openBody_suffix {close : Char} {empty : Json}
    {body : List Char → Option (Json × List Char)} {ds : List Char}
    (hbody : ∀ cs, body cs = some (v, rest) → close :: rest <:+ cs)
    (h : openBody close empty body (skipSpace ds) = some (v, rest)) : close :: rest <:+ ds := by
  rw [openBody] at h
  split at h
  · rename_i hclose
    obtain ⟨-, rfl⟩ := Prod.mk.inj (Option.some.inj h)
    rw [List.cons_head?_tail (Option.mem_def.2 hclose)]
    exact skipSpace_suffix ds
  · exact (hbody _ h).trans (skipSpace_suffix ds)

namespace LeavesEnd

variable {fuel depth : Nat}

/-- A value leaves the end of the text when its items and fields do. -/
theorem value_succ (ih : LeavesEnd fuel) (h : Json.value (fuel + 1) depth cs = some (v, rest)) :
    rest <:+ cs := by
  have hvalue := h
  rw [Json.value] at h
  split at h
  -- A string.
  case h_4 ds hcs =>
    obtain ⟨⟨s, ds⟩, hs, heq⟩ := Option.map_eq_some_iff.1 h
    obtain ⟨-, rfl⟩ := Prod.mk.inj heq
    exact (string_suffix hs).trans (suffix_of_skipSpace hcs)
  -- An array, whose items are read with less fuel and less depth.
  case h_5 ds hcs =>
    cases depth with
    | zero => cases h
    | succ depth =>
      rw [value_array hcs] at hvalue
      exact ((List.suffix_cons _ _).trans (openBody_suffix (ih.items _ _ · _ _) hvalue)).trans
        (suffix_of_skipSpace hcs)
  -- An object, likewise.
  case h_6 ds hcs =>
    cases depth with
    | zero => cases h
    | succ depth =>
      rw [value_object hcs] at hvalue
      exact ((List.suffix_cons _ _).trans (openBody_suffix (ih.fields _ _ · _ _) hvalue)).trans
        (suffix_of_skipSpace hcs)
  case h_7 => exact (number_suffix h).trans (skipSpace_suffix cs)
  -- The three words.
  all_goals
    obtain ⟨-, rfl⟩ := Prod.mk.inj (Option.some.inj h)
    have hword := skipSpace_suffix cs
    rw [‹skipSpace cs = _›] at hword
    exact List.IsSuffix.trans (by simp [List.suffix_cons_iff]) hword

/-- The items of an array leave its closing bracket when the values and the later items leave an end
of the text. -/
theorem items_succ (ih : LeavesEnd fuel) {acc : List Json}
    (h : Json.items (fuel + 1) depth acc cs = some (v, rest)) : ']' :: rest <:+ cs := by
  rw [Json.items] at h
  split at h
  · cases h
  · rename_i item ds hitem
    have hds : ds <:+ cs := ih.value _ _ _ _ hitem
    split at h
    · rename_i hcomma
      exact ((ih.items _ _ _ _ _ h).trans (suffix_of_skipSpace hcomma)).trans hds
    · rename_i hclose
      obtain ⟨-, rfl⟩ := Prod.mk.inj (Option.some.inj h)
      exact List.IsSuffix.trans (hclose ▸ skipSpace_suffix ds) hds
    · cases h

/-- The fields of an object leave its closing brace when the values and the later fields leave an
end of the text. -/
theorem fields_succ (ih : LeavesEnd fuel) {acc : List (String × Json)}
    (h : Json.fields (fuel + 1) depth acc cs = some (v, rest)) : '\x7d' :: rest <:+ cs := by
  rw [Json.fields] at h
  split at h
  · rename_i hquote
    split at h
    · cases h
    · rename_i key ds hkey
      -- A key, a colon and a value are taken, and then more fields or the brace.
      have hds : ds <:+ cs := (string_suffix hkey).trans (suffix_of_skipSpace hquote)
      split at h
      · rename_i hcolon
        split at h
        · cases h
        · rename_i item es hitem
          have hes : es <:+ cs :=
            ((ih.value _ _ _ _ hitem).trans (suffix_of_skipSpace hcolon)).trans hds
          split at h
          · rename_i hcomma
            exact ((ih.fields _ _ _ _ _ h).trans (suffix_of_skipSpace hcomma)).trans hes
          · rename_i hclose
            obtain ⟨-, rfl⟩ := Prod.mk.inj (Option.some.inj h)
            exact List.IsSuffix.trans (hclose ▸ skipSpace_suffix es) hes
          · cases h
      · cases h
  · cases h

end LeavesEnd

/-- **The reader leaves the end of the text.** -/
theorem leavesEnd (fuel : Nat) : LeavesEnd fuel := by
  induction fuel with
  | zero =>
    refine ⟨fun _ _ _ _ h => ?_, fun _ _ _ _ _ h => ?_, fun _ _ _ _ _ h => ?_⟩ <;> cases h
  | succ fuel ih =>
    exact ⟨fun _ _ _ _ h => ih.value_succ h, fun _ _ _ _ _ h => ih.items_succ h,
      fun _ _ _ _ _ h => ih.fields_succ h⟩

/-- The brackets of an array or an object. -/
def AreBrackets (opening closing : Char) : Prop :=
  (opening = '[' ∧ closing = ']') ∨ (opening = '\x7b' ∧ closing = '\x7d')

/-- **An array or object stands between its brackets.** -/
theorem exists_brackets_of_value {fuel depth : Nat} (h : value fuel depth cs = some (v, rest))
    (hv : v.isStructured = true) :
    ∃ opening closing ds, AreBrackets opening closing ∧ skipSpace cs = opening :: ds ∧
      closing :: rest <:+ ds := by
  cases fuel with
  | zero => cases h
  | succ fuel =>
    have hvalue := h
    rw [value] at h
    split at h
    case h_5 ds hcs =>
      cases depth with
      | zero => cases h
      | succ depth =>
        rw [value_array hcs] at hvalue
        exact ⟨_, _, ds, .inl ⟨rfl, rfl⟩, hcs,
          openBody_suffix ((leavesEnd fuel).items _ _ · _ _) hvalue⟩
    case h_6 ds hcs =>
      cases depth with
      | zero => cases h
      | succ depth =>
        rw [value_object hcs] at hvalue
        exact ⟨_, _, ds, .inr ⟨rfl, rfl⟩, hcs,
          openBody_suffix ((leavesEnd fuel).fields _ _ · _ _) hvalue⟩
    -- No string, number or word is structured.
    case h_4 =>
      obtain ⟨p, -, heq⟩ := Option.map_eq_some_iff.1 h
      obtain ⟨rfl, -⟩ := Prod.mk.inj heq
      cases hv
    case h_7 =>
      rw [isStructured_of_number h] at hv
      cases hv
    all_goals
      obtain ⟨rfl, -⟩ := Prod.mk.inj (Option.some.inj h)
      cases hv

/-- The space of the grammar is among the blanks that are trimmed. -/
theorem isBlank_of_isSpace {c : Char} (h : isSpace c = true) : Text.isBlank c = true := by
  simp only [isSpace, Bool.or_eq_true, decide_eq_true_eq] at h
  rcases h with ((rfl | rfl) | rfl) | rfl <;> rfl

/-- **Looking at both ends refuses no array and no object** that a text without blanks at its ends
writes. -/
theorem isBracketed_of_parse? (hhead : ∀ c ∈ cs.head?, Text.isBlank c = false)
    (hlast : ∀ c ∈ cs.getLast?, Text.isBlank c = false)
    (h : parse? (String.ofList cs) = some v) (hv : v.isStructured = true) :
    (isBracketed '\x7b' '\x7d' cs || isBracketed '[' ']' cs) = true := by
  rw [parse?, String.toList_ofList] at h
  split at h
  case h_2 => cases h
  rename_i w rest hvalue
  split at h
  case isFalse => cases h
  rename_i hrest
  obtain rfl := Option.some.inj h
  obtain ⟨opening, closing, ds, hbrackets, hskip, hclosing⟩ := exists_brackets_of_value hvalue hv
  -- The first character is no blank, so there are no spaces in front.
  have hcs : cs = opening :: ds := by
    cases cs with
    | nil => cases hskip
    | cons c cs =>
      have hspace : ¬isSpace c = true := fun hspace => by
        have hblank := hhead c rfl
        rw [isBlank_of_isSpace hspace] at hblank
        cases hblank
      rwa [skipSpace, List.dropWhile_cons_of_neg hspace] at hskip
  -- Nor is the last one, so the closing bracket is the last character.
  have hblanks : ∀ c ∈ rest, Text.isBlank c = true := fun c hc =>
    isBlank_of_isSpace (List.dropWhile_eq_nil_iff.1 (List.isEmpty_iff.1 hrest) c hc)
  have hclosing := Text.getLast?_of_suffix
    (hclosing.trans (hcs ▸ List.suffix_cons opening ds)) hblanks hlast
  have hopening : cs.head? = some opening := hcs ▸ rfl
  rcases hbrackets with ⟨rfl, rfl⟩ | ⟨rfl, rfl⟩ <;> simp [isBracketed, hopening, hclosing]

/-- **A text looks like a document exactly when** it reads as an array or an object without the
blanks around it. -/
theorem isDocumentText_iff_parse? {s : String} : isDocumentText s = true ↔
    ∃ v, parse? (Text.trim s) = some v ∧ v.isStructured = true := by
  constructor
  · intro h
    obtain ⟨v, hv, hread, -⟩ := parse?_of_isDocumentText h
    exact ⟨v, hread, hv⟩
  · rintro ⟨v, hread, hv⟩
    obtain ⟨hhead, hlast⟩ := Text.isBlank_trimChars s.toList
    rw [isDocumentText, Bool.and_eq_true]
    exact ⟨isBracketed_of_parse? hhead hlast hread hv, Option.isSome_iff_exists.2 ⟨v, hread⟩⟩

end Json
end Querysmith
