/-
# Documents inside blanks

Whether a text looks like a JSON document is decided without the blanks around it, and every blank
of Unicode counts.  The reader takes the text as it stands and passes over the four blanks of JSON
only.  So a text that looks like a document reads as that document when no other blank stands
around it (`IsSpaced`), and otherwise it does not read at all (`parse?_of_isDocumentText`): a blank
in front is no beginning of a value, and a blank behind is left over.
-/

import Mathlib.Data.List.TakeWhile
import Querysmith.Json.Document
import Querysmith.Proofs.Json.Reading

namespace Querysmith
namespace Text

/-- The blanks in front of a text. -/
def leadingBlanks (cs : List Char) : List Char :=
  cs.takeWhile isBlank

/-- The blanks behind a text; a text of blanks alone has them all in front. -/
def trailingBlanks (cs : List Char) : List Char :=
  ((cs.dropWhile isBlank).reverse.takeWhile isBlank).reverse

/-- A text is its blanks in front, its trimmed text and its blanks behind. -/
theorem eq_trimChars (cs : List Char) :
    cs = leadingBlanks cs ++ (trimChars cs ++ trailingBlanks cs) := by
  rw [trimChars, trailingBlanks, ← List.reverse_append, List.takeWhile_append_dropWhile,
    List.reverse_reverse, leadingBlanks, List.takeWhile_append_dropWhile]

/-- **Trimming takes away the blanks around a text** that neither begins nor ends with one. -/
theorem trimChars_padded {before cs behind : List Char} (hbefore : ∀ c ∈ before, isBlank c = true)
    (hbehind : ∀ c ∈ behind, isBlank c = true) (hhead : ∀ c ∈ cs.head?, isBlank c = false)
    (hlast : ∀ c ∈ cs.getLast?, isBlank c = false) :
    trimChars (before ++ (cs ++ behind)) = cs := by
  have hself : ∀ ds : List Char, (∀ c ∈ ds.head?, isBlank c = false) → ds.dropWhile isBlank = ds
    | [], _ => rfl
    | c :: _, h => List.dropWhile_cons_of_neg (by simp [h c rfl])
  cases cs with
  | nil =>
    rw [List.nil_append, trimChars, List.dropWhile_append_of_pos hbefore,
      List.dropWhile_eq_nil_iff.2 hbehind]
    rfl
  | cons c cs =>
    have hbehind : ∀ d ∈ behind.reverse, isBlank d = true := by simpa using hbehind
    have hlast : ∀ d ∈ (c :: cs).reverse.head?, isBlank d = false := by
      rwa [List.head?_reverse]
    rw [trimChars, List.dropWhile_append_of_pos hbefore, hself (c :: cs ++ behind) hhead,
      List.reverse_append, List.dropWhile_append_of_pos hbehind, hself _ hlast,
      List.reverse_reverse]

/-- The leading blanks are blanks. -/
theorem isBlank_of_mem_leadingBlanks {cs : List Char} {c : Char} (h : c ∈ leadingBlanks cs) :
    isBlank c = true :=
  List.mem_takeWhile_imp h

/-- The trailing blanks are blanks. -/
theorem isBlank_of_mem_trailingBlanks {cs : List Char} {c : Char} (h : c ∈ trailingBlanks cs) :
    isBlank c = true :=
  List.mem_takeWhile_imp (List.mem_reverse.1 h)

/-- There are ten digits. -/
theorem mem_of_isDigit {c : Char} (h : c.isDigit = true) : c ∈ "0123456789".toList := by
  have hrange : 48 ≤ c.toNat ∧ c.toNat ≤ 57 := by
    simpa [Char.isDigit, UInt32.le_iff_toNat_le] using h
  have hdigits : ∀ d : Fin 10, Char.ofNat (48 + d.val) ∈ "0123456789".toList := by decide
  have hmem := hdigits ⟨c.toNat - 48, by omega⟩
  rwa [show 48 + (c.toNat - 48) = c.toNat by omega, Char.ofNat_toNat] at hmem

/-- A digit is no blank. -/
theorem isBlank_of_isDigit {c : Char} (h : c.isDigit = true) : isBlank c = false := by
  have hdigits : "0123456789".toList.all (fun c => !isBlank c) = true := by decide
  simpa using List.all_eq_true.1 hdigits c (mem_of_isDigit h)

end Text

namespace Json

/-- Around the text stand no blanks but those of JSON. -/
def IsSpaced (s : String) : Prop :=
  ∀ c ∈ Text.leadingBlanks s.toList ++ Text.trailingBlanks s.toList, isSpace c = true

instance (s : String) : Decidable (IsSpaced s) :=
  List.decidableBAll _ _

variable {fuel depth : Nat} {cs rest : List Char} {v : Json}

/-- The reader looks at what stands behind the spaces only. -/
theorem value_congr {ds : List Char} (h : skipSpace cs = skipSpace ds) (fuel depth : Nat) :
    value fuel depth cs = value fuel depth ds := by
  cases fuel with
  | zero => rfl
  | succ fuel => rw [value, value, h]

/-- No value begins with a blank. -/
theorem exists_cons_of_value (h : value fuel depth cs = some (v, rest)) :
    ∃ c ds, skipSpace cs = c :: ds ∧ Text.isBlank c = false := by
  cases fuel with
  | zero => cases h
  | succ fuel =>
    rw [value] at h
    split at h
    case h_7 =>
      obtain ⟨c, ds, hcs, hc⟩ := exists_cons_of_number h
      refine ⟨c, ds, hcs, ?_⟩
      rcases hc with rfl | hc
      · decide
      · exact Text.isBlank_of_isDigit hc
    all_goals exact ⟨_, _, ‹skipSpace cs = _›, by decide⟩

/-- The items in front of a closing bracket make an array. -/
theorem isStructured_of_items {acc : List Json} (h : items fuel depth acc cs = some (v, rest)) :
    v.isStructured = true := by
  induction fuel generalizing acc cs with
  | zero => cases h
  | succ fuel ih =>
    rw [items] at h
    split at h
    · cases h
    · split at h
      · exact ih h
      · obtain ⟨rfl, -⟩ := Prod.mk.inj (Option.some.inj h)
        rfl
      · cases h

/-- The fields in front of a closing brace make an object. -/
theorem isStructured_of_fields {acc : List (String × Json)}
    (h : fields fuel depth acc cs = some (v, rest)) : v.isStructured = true := by
  induction fuel generalizing acc cs with
  | zero => cases h
  | succ fuel ih =>
    rw [fields] at h
    split at h
    · split at h
      · cases h
      · split at h
        · split at h
          · cases h
          · split at h
            · exact ih h
            · obtain ⟨rfl, -⟩ := Prod.mk.inj (Option.some.inj h)
              rfl
            · cases h
        · cases h
    · cases h

/-- What is read behind an opening bracket is structured when the empty value and the filled one
are. -/
theorem isStructured_of_openBody {close : Char} {empty : Json}
    {body : List Char → Option (Json × List Char)} (hempty : empty.isStructured = true)
    (hbody : body cs = some (v, rest) → v.isStructured = true)
    (h : openBody close empty body cs = some (v, rest)) : v.isStructured = true := by
  rw [openBody] at h
  split at h
  · obtain ⟨rfl, -⟩ := Prod.mk.inj (Option.some.inj h)
    exact hempty
  · exact hbody h

/-- What begins with a bracket or a brace is an array or an object. -/
theorem isStructured_of_value {c : Char} {ds : List Char} (hc : c = '[' ∨ c = '\x7b')
    (hcs : skipSpace cs = c :: ds) (h : value fuel depth cs = some (v, rest)) :
    v.isStructured = true := by
  cases fuel with
  | zero => cases h
  | succ fuel =>
    rcases hc with rfl | rfl
    · cases depth with
      | zero =>
        rw [value, hcs] at h
        cases h
      | succ depth =>
        rw [value_array hcs] at h
        exact isStructured_of_openBody rfl isStructured_of_items h
    · cases depth with
      | zero =>
        rw [value, hcs] at h
        cases h
      | succ depth =>
        rw [value_object hcs] at h
        exact isStructured_of_openBody rfl isStructured_of_fields h

/-- What looks like a document without the blanks around it begins with a bracket or a brace and
reads as an array or an object, with spaces behind at most. -/
theorem exists_value_of_isDocumentText {s : String} (h : isDocumentText s = true) :
    ∃ c ds v rest, Text.trimChars s.toList = c :: ds ∧ (c = '[' ∨ c = '\x7b') ∧
      value (2 * (c :: ds).length + 2) maxDepth (c :: ds) = some (v, rest) ∧
      v.isStructured = true ∧ skipSpace rest = [] := by
  rw [isDocumentText, Bool.and_eq_true, parse?, String.toList_ofList] at h
  obtain ⟨hbrackets, hparse⟩ := h
  -- The look at the ends has found a bracket or a brace in front.
  obtain ⟨c, ds, hcs, hc⟩ : ∃ c ds, Text.trimChars s.toList = c :: ds ∧
      (c = '[' ∨ c = '\x7b') := by
    cases hcs : Text.trimChars s.toList with
    | nil =>
      rw [hcs] at hbrackets
      cases hbrackets
    | cons c ds =>
      refine ⟨c, ds, rfl, ?_⟩
      simp only [hcs, isBracketed, List.head?_cons, Bool.or_eq_true, Bool.and_eq_true,
        beq_iff_eq, Option.some.injEq] at hbrackets
      rcases hbrackets with ⟨hc, -⟩ | ⟨hc, -⟩
      · exact .inr hc
      · exact .inl hc
  have hskip : skipSpace (c :: ds) = c :: ds := by
    rcases hc with rfl | rfl <;> rfl
  rw [hcs] at hparse
  split at hparse
  · -- The reader begins there, since neither of them is space, and it has left space only.
    rename_i v rest hvalue
    split at hparse
    · rename_i hrest
      exact ⟨c, ds, v, rest, hcs, hc, hvalue, isStructured_of_value hc hskip hvalue,
        List.isEmpty_iff.1 hrest⟩
    · cases hparse
  · cases hparse

/-- A document text holds an opening bracket or brace. -/
theorem exists_bracket_of_isDocumentText {s : String} (h : isDocumentText s = true) :
    ∃ c ∈ s.toList, c = '[' ∨ c = '\x7b' := by
  obtain ⟨c, ds, v, rest, hcs, hc, -⟩ := exists_value_of_isDocumentText h
  refine ⟨c, ?_, hc⟩
  rw [Text.eq_trimChars s.toList, hcs]
  simp

/-- Blanks in front that the reader does not pass over are no beginning of a value. -/
theorem value_of_blank {before after : List Char} (hblank : ∀ c ∈ before, Text.isBlank c = true)
    (h : ¬∀ c ∈ before, isSpace c = true) : value fuel depth (before ++ after) = none := by
  have hne : skipSpace before ≠ [] := fun hnil => h (List.dropWhile_eq_nil_iff.1 hnil)
  obtain ⟨c, ds, hcs⟩ := List.exists_cons_of_ne_nil hne
  have hmem : c ∈ before := by
    refine (List.dropWhile_sublist isSpace).subset ?_
    rw [← skipSpace, hcs]
    exact List.mem_cons_self
  cases hvalue : value fuel depth (before ++ after) with
  | none => rfl
  | some result =>
    obtain ⟨c', ds', hcs', hc'⟩ := exists_cons_of_value hvalue
    rw [skipSpace_append hne, hcs] at hcs'
    obtain ⟨rfl, -⟩ := List.cons.inj hcs'
    rw [hblank c hmem] at hc'
    cases hc'

/-- **A text that looks like a document reads as that document when it is spaced, and else not at
all.**  The document is the one that the trimmed text writes. -/
theorem parse?_of_isDocumentText {s : String} (h : isDocumentText s = true) :
    ∃ v, v.isStructured = true ∧ parse? (Text.trim s) = some v ∧
      parse? s = if IsSpaced s then some v else none := by
  obtain ⟨c, ds, v, rest, hcs, hc, hvalue, hv, hrest⟩ := exists_value_of_isDocumentText h
  have htrim : parse? (Text.trim s) = some v := by
    rw [parse?, Text.trim, String.toList_ofList, hcs, hvalue]
    simp [hrest]
  refine ⟨v, hv, htrim, ?_⟩
  have hsplit := Text.eq_trimChars s.toList
  have hspaced : IsSpaced s ↔ (∀ c ∈ Text.leadingBlanks s.toList, isSpace c = true) ∧
      ∀ c ∈ Text.trailingBlanks s.toList, isSpace c = true := List.forall_mem_append
  have hblank : ∀ c ∈ Text.leadingBlanks s.toList, Text.isBlank c = true :=
    fun c => Text.isBlank_of_mem_leadingBlanks
  rw [if_congr hspaced rfl rfl, parse?]
  generalize Text.leadingBlanks s.toList = before at hsplit hblank
  generalize Text.trailingBlanks s.toList = after at hsplit
  rw [hcs] at hsplit
  rw [hsplit]
  by_cases hbefore : ∀ c ∈ before, isSpace c = true
  · have hskip : skipSpace (before ++ (c :: ds ++ after)) = skipSpace (c :: ds ++ after) :=
      List.dropWhile_append_of_pos hbefore
    -- the text is longer than its trimmed part, so the reader may take more steps
    have hfuel : 2 * (before ++ (c :: ds ++ after)).length + 2 =
        (2 * (c :: ds).length + 2) + 2 * (before.length + after.length) := by
      simp only [List.length_append]
      omega
    have hread := (persists _).value _ _ _ _ hvalue (fun _ => hv)
      (2 * (before.length + after.length)) after
    have hafter : (skipSpace (rest ++ after)).isEmpty = true ↔ ∀ c ∈ after, isSpace c = true := by
      rw [skipSpace, List.dropWhile_append_of_pos (List.dropWhile_eq_nil_iff.1 hrest),
        List.isEmpty_iff, List.dropWhile_eq_nil_iff]
    rw [hfuel, value_congr hskip, hread]
    exact if_congr (hafter.trans (and_iff_right hbefore).symm) rfl rfl
  · rw [value_of_blank hblank hbefore, if_neg fun hspaced => hbefore hspaced.1]

end Json
end Querysmith
