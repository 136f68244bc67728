/-
# The text of a normalized value

A value that is normalized to another one gets another text (`text_normalize_eq_iff`).  On a scalar
this shows at the first character: a text is written between quotes and no other scalar is, so it
shows when a text becomes another scalar or another scalar becomes a text.  What is left is a
floating number that is rounded down.  Its text begins with digits too, but behind them comes a
point or an exponent, where the text of an integer ends.

Inside an array or object a text ends where a comma or a bracket closes it, and no scalar goes on
behind that.  So two texts that are the same as a whole are the same part by part (`Forces`), and
the parts are compared one after another.

The text of an array or object is itself a text that the normalizer can meet, and then it is left as
it is (`normalizeText_text`).
-/

import Querysmith.Proofs.Json.RoundTrip
import Querysmith.Proofs.Normalizer.Stability

namespace Querysmith

namespace Text

/-- The characters that integers are written with. -/
def isSignedDigit (c : Char) : Bool :=
  c.isDigit || c == '-'

/-- A digit can stand in signed digits. -/
theorem isSignedDigit_of_isDigit {c : Char} (h : c.isDigit = true) : isSignedDigit c = true := by
  rw [isSignedDigit, h, Bool.true_or]

/-- An integer is written with digits and a sign. -/
theorem forall_mem_ofInt (i : Int) : ∀ c ∈ (ofInt i).toList, isSignedDigit c = true := by
  have hdigits : ∀ c ∈ decimal i.natAbs, isSignedDigit c = true :=
    fun _ hc => isSignedDigit_of_isDigit (isDigit_of_mem_decimal hc)
  rw [ofInt]
  split
  · rw [String.toList_ofList, List.forall_mem_cons]
    exact ⟨rfl, hdigits⟩
  · rwa [ofNat, String.toList_ofList]

end Text

namespace Binary64

open Text (isSignedDigit isSignedDigit_of_isDigit)

/-- Digits, perhaps signed, and behind them a point or an exponent. -/
def IsInterrupted (cs : List Char) : Prop :=
  ∃ before mark after, cs = before ++ mark :: after ∧
    (∀ c ∈ before, isSignedDigit c = true) ∧ (mark = '.' ∨ mark = 'e')

/-- A minus sign in front of interrupted digits changes nothing. -/
theorem IsInterrupted.signed {cs : List Char} (h : IsInterrupted cs) (negative : Bool) :
    IsInterrupted (if negative then '-' :: cs else cs) := by
  obtain ⟨before, mark, after, rfl, hbefore, hmark⟩ := h
  cases negative
  · exact ⟨before, mark, after, rfl, hbefore, hmark⟩
  · exact ⟨'-' :: before, mark, after, rfl, List.forall_mem_cons.2 ⟨rfl, hbefore⟩, hmark⟩

/-- Plain digits are interrupted by the point. -/
theorem plainDigits_isInterrupted {digits : List Char} (h : ∀ c ∈ digits, c.isDigit = true)
    (point : Int) : IsInterrupted (plainDigits true digits point) := by
  unfold plainDigits
  split
  · exact ⟨['0'], '.', _, rfl, List.forall_mem_singleton.2 rfl, .inl rfl⟩
  split
  · refine ⟨digits ++ List.replicate (point.toNat - digits.length) '0', '.', ['0'], rfl, ?_,
      .inl rfl⟩
    rw [List.forall_mem_append]
    refine ⟨fun c hc => isSignedDigit_of_isDigit (h c hc), fun c hc => ?_⟩
    rw [List.eq_of_mem_replicate hc]
    rfl
  · exact ⟨digits.take point.toNat, '.', _, rfl,
      fun c hc => isSignedDigit_of_isDigit (h c (List.mem_of_mem_take hc)), .inl rfl⟩

/-- Digits with an exponent are interrupted by the point or the exponent. -/
theorem exponentDigits_isInterrupted {digits : List Char} (h : ∀ c ∈ digits, c.isDigit = true)
    (power : Int) : IsInterrupted (exponentDigits digits power) := by
  have hfirst : ∀ c ∈ digits.take 1, isSignedDigit c = true :=
    fun c hc => isSignedDigit_of_isDigit (h c (List.mem_of_mem_take hc))
  unfold exponentDigits
  cases digits.drop 1 with
  | nil => exact ⟨digits.take 1, 'e', _, by simp only [List.append_nil]; rfl, hfirst, .inr rfl⟩
  | cons d ds =>
    refine ⟨digits.take 1, '.', (d :: ds) ++ 'e' :: (if power < 0 then '-' else '+') ::
      Text.decimal power.natAbs, ?_, hfirst, .inl rfl⟩
    rw [← List.cons_append, ← List.append_assoc]

/-- **The text of a finite number goes on behind its first digits.** -/
theorem text_isInterrupted (negative : Bool) (significand : Nat) (exponent : Int) :
    IsInterrupted ((finite negative significand exponent).text Json.numberLayout).toList := by
  rw [text]
  split
  rename_i digits k _
  have hdigits : ∀ c ∈ Text.decimal digits, c.isDigit = true :=
    fun _ => Text.isDigit_of_mem_decimal
  have hbody : ∀ (plainly : Bool) (power : Int), IsInterrupted
      (if plainly then plainDigits Json.numberLayout.keepFraction (Text.decimal digits) (power + 1)
        else exponentDigits (Text.decimal digits) power) := by
    intro plainly power
    cases plainly
    · exact exponentDigits_isInterrupted hdigits power
    · exact plainDigits_isInterrupted hdigits (power + 1)
  rw [String.toList_ofList]
  exact (hbody _ _).signed negative

end Binary64

namespace Json

open Text (isSignedDigit)

/-- Where one text stands and something closes it, the other one can stand only with the same
behind it, and only if the proposition holds. -/
def Forces (p : Prop) (s t : List Char) : Prop :=
  ∀ r r', Closes r → Closes r' → s ++ r = t ++ r' → p ∧ r = r'

namespace Forces

variable {p : Prop} {s t : List Char}

/-- A text stands in its own place with the same behind it. -/
theorem refl (h : p) (s : List Char) : Forces p s s :=
  fun _ _ _ _ heq => ⟨h, List.append_cancel_left heq⟩

/-- What one text forces, it forces with every consequence. -/
theorem imp {q : Prop} (hpq : p → q) (h : Forces p s t) : Forces q s t := fun r r' hr hr' heq =>
  ⟨hpq (h r r' hr hr' heq).1, (h r r' hr hr' heq).2⟩

/-- Texts with different first characters are never the same. -/
theorem of_ne {c d : Char} {cs ds : List Char} (hs : s = c :: cs) (ht : t = d :: ds) (h : c ≠ d) :
    Forces p s t := by
  intro r r' _ _ heq
  rw [hs, ht] at heq
  exact absurd (List.cons.inj heq).1 h

/-- What stands in front of both texts does not matter. -/
theorem append_left (before : List Char) (h : Forces p s t) :
    Forces p (before ++ s) (before ++ t) := by
  intro r r' hr hr' heq
  rw [List.append_assoc, List.append_assoc] at heq
  exact h r r' hr hr' (List.append_cancel_left heq)

/-- Parts with commas between them are told apart one by one. -/
theorem parts {α : Type} {q : α → Prop} {f g : α → List Char} {x : α} {xs : List α}
    (h : ∀ y ∈ x :: xs, Forces (q y) (f y) (g y)) :
    Forces (∀ y ∈ x :: xs, q y) (f x ++ xs.flatMap fun y => ',' :: f y)
      (g x ++ xs.flatMap fun y => ',' :: g y) := by
  -- Behind a part stands a comma, or what closes the last one.
  induction xs generalizing x with
  | nil =>
    rw [List.forall_mem_singleton] at h
    simpa using h
  | cons y ys ih =>
    rw [List.forall_mem_cons] at h
    intro r r' hr hr' heq
    simp only [List.flatMap_cons, List.append_assoc, List.cons_append] at heq
    obtain ⟨hx, hrest⟩ := h.1 _ _ (closes_cons (.inl rfl) _) (closes_cons (.inl rfl) _) heq
    rw [← List.append_assoc, ← List.append_assoc] at hrest
    obtain ⟨hys, hclosed⟩ := ih h.2 r r' hr hr' (List.cons.inj hrest).2
    exact ⟨List.forall_mem_cons.2 ⟨hx, hys⟩, hclosed⟩

/-- Brackets around both texts do not matter. -/
theorem bracketed (opening : Char) {closing : Char}
    (hclosing : closing = ',' ∨ closing = ']' ∨ closing = '\x7d') (h : Forces p s t) :
    Forces p (opening :: (s ++ [closing])) (opening :: (t ++ [closing])) := by
  intro r r' _ _ heq
  have hinner := (List.cons.inj heq).2
  rw [List.append_eq, List.append_eq, List.append_assoc, List.append_assoc] at hinner
  obtain ⟨hp, hrest⟩ := h _ _ (closes_cons hclosing r) (closes_cons hclosing r') hinner
  exact ⟨hp, (List.cons.inj hrest).2⟩

/-- The text of a floating number and that of an integer are never the same. -/
theorem of_isInterrupted (hs : Binary64.IsInterrupted s) (i : Int) :
    Forces p s (Text.ofInt i).toList := by
  obtain ⟨before, mark, after, rfl, hbefore, hmark⟩ := hs
  intro r r' _ hr' heq
  -- Behind the digits stands a mark in the one text, and what closes a value in the other.
  have hmarked : ¬isSignedDigit mark = true := by
    rcases hmark with rfl | rfl <;> decide
  have hdrop := congrArg (List.dropWhile isSignedDigit) heq
  rw [List.append_assoc, List.dropWhile_append_of_pos hbefore, List.cons_append,
    List.dropWhile_cons_of_neg hmarked, List.dropWhile_append_of_pos (Text.forall_mem_ofInt i)]
    at hdrop
  cases r' with
  | nil => cases hdrop
  | cons c r' =>
    have hc := hr' c rfl
    have hclosing : ¬isSignedDigit c = true := by
      rcases hc with rfl | rfl | rfl <;> decide
    rw [List.dropWhile_cons_of_neg hclosing] at hdrop
    rw [← (List.cons.inj hdrop).1] at hc
    rcases hmark with rfl | rfl <;> simp at hc

end Forces

/-- No scalar but a text begins with a quote. -/
theorem exists_cons_text_of_scalar {v : Json} (h : v.isStructured = false) (hs : v.str? = none) :
    ∃ c cs, v.text.toList = c :: cs ∧ '"' ≠ c := by
  have hsigned : ∀ c, isSignedDigit c = true → '"' ≠ c := by
    rintro c hc rfl
    cases hc
  cases v with
  | arr _ | obj _ => cases h
  | str s => cases hs
  | null => exact ⟨_, _, rfl, by decide⟩
  | bool b => cases b <;> exact ⟨_, _, rfl, by decide⟩
  | int i =>
    obtain ⟨c, cs, hcs, -⟩ := exists_cons_ofInt i
    refine ⟨c, cs, ?_, hsigned c (Text.forall_mem_ofInt i c (hcs ▸ List.mem_cons_self))⟩
    rw [text, write, String.empty_append, hcs]
  | float x =>
    rw [text, write, String.empty_append]
    cases x with
    | nan => exact ⟨_, _, rfl, by decide⟩
    | infinity negative => cases negative <;> exact ⟨_, _, rfl, by decide⟩
    | finite negative m e =>
      -- A finite number begins with a digit or a sign, or with its point.
      obtain ⟨before, mark, after, hcs, hbefore, hmark⟩ := Binary64.text_isInterrupted negative m e
      rw [hcs]
      cases before with
      | nil => exact ⟨mark, after, rfl, by rcases hmark with rfl | rfl <;> decide⟩
      | cons c before => exact ⟨c, _, rfl, hsigned c (hbefore c List.mem_cons_self)⟩

/-- The text of a string begins with a quote. -/
theorem exists_cons_text_str (s : String) : ∃ cs, (str s).text.toList = '"' :: cs := by
  rw [text, write, String.empty_append, toList_stringText]
  exact ⟨_, rfl⟩

end Json

namespace Normalizer

open Json (Forces)

variable (n : Normalizer)

/-- A scalar is kept, or a text becomes another scalar, or another scalar becomes a text, or a
finite number becomes an integer. -/
theorem normalize_scalar_cases (name : String) {v : Json} (h : v.isStructured = false) :
    n.normalize name v = v ∨
    (∃ s, v = .str s ∧ (n.normalize name v).isStructured = false ∧
      (n.normalize name v).str? = none) ∨
    (v.str? = none ∧ ∃ s, n.normalize name v = .str s) ∨
    ∃ negative m e i, v = .float (.finite negative m e) ∧ n.normalize name v = .int i := by
  cases v with
  | arr _ | obj _ => cases h
  | null => exact .inl rfl
  | bool b =>
    rw [normalize]
    split
    · exact .inr (.inr (.inl ⟨rfl, _, rfl⟩))
    · exact .inl rfl
  | int i =>
    rw [normalize, normalizeInt]
    split
    · exact .inl rfl
    split
    · exact .inr (.inr (.inl ⟨rfl, _, rfl⟩))
    · exact .inl rfl
  | float x =>
    rw [normalize, normalizeFloat]
    split
    · split
      · rename_i i hfloor
        obtain ⟨hfloor, -⟩ := floorInteger?_eq_some_iff.1 hfloor
        cases x with
        | nan | infinity _ => cases hfloor
        | finite negative m e => exact .inr (.inr (.inr ⟨negative, m, e, i, rfl, rfl⟩))
      · exact .inl rfl
    split
    · exact .inr (.inr (.inl ⟨rfl, _, rfl⟩))
    · exact .inl rfl
  | str s =>
    have houtcome := n.textOutcome_normalizeText name s
    rw [normalize]
    generalize n.normalizeText name s = normal at houtcome
    cases houtcome with
    | kept _ => exact .inl rfl
    | word _ | integer _ _ _ | floating _ _ _ _ => exact .inr (.inl ⟨s, rfl, rfl, rfl⟩)

variable {name : String}

/-- A scalar that is normalized to another one gets another text. -/
theorem forces_text_scalar {v : Json} (h : v.isStructured = false) :
    Forces (n.normalize name v = v) v.text.toList (n.normalize name v).text.toList := by
  rcases n.normalize_scalar_cases name h with
    heq | ⟨s, rfl, hscalar, hother⟩ | ⟨hother, s, hs⟩ | ⟨negative, m, e, i, rfl, hi⟩
  · rw [heq]
    exact .refl rfl _
  · obtain ⟨c, cs, hcs, hc⟩ := Json.exists_cons_text_of_scalar hscalar hother
    obtain ⟨ds, hds⟩ := Json.exists_cons_text_str s
    exact .of_ne hds hcs hc
  · obtain ⟨c, cs, hcs, hc⟩ := Json.exists_cons_text_of_scalar h hother
    obtain ⟨ds, hds⟩ := Json.exists_cons_text_str s
    rw [hs]
    exact .of_ne hcs hds hc.symm
  · have hfinite := Binary64.text_isInterrupted negative m e
    rw [hi, Json.text, Json.write, String.empty_append, Json.text, Json.write, String.empty_append]
    exact .of_isInterrupted hfinite i

/-- **What the normalizer changes in a value shows in its text,** whatever closes it. -/
theorem forces_text (v : Json) :
    Forces (n.normalize name v = v) v.text.toList (n.normalize name v).text.toList := by
  induction v using Json.induct generalizing name with
  | scalar v h => exact n.forces_text_scalar h
  | arr items ih =>
    rw [normalize, normalizeItems_eq]
    cases items with
    | nil => exact .refl rfl _
    | cons v vs =>
      rw [List.map_cons, Json.toList_text_arr, Json.toList_text_arr, List.flatMap_map]
      refine (Forces.bracketed '[' (.inr (.inl rfl)) (Forces.parts fun w hw => ih w hw)).imp ?_
      -- Every part is unchanged, so the whole is.
      intro hkept
      rw [← List.map_cons, List.map_congr_left hkept, List.map_id']
  | obj fields ih =>
    rw [normalize, normalizeFields_eq]
    cases fields with
    | nil => exact .refl rfl _
    | cons field rest =>
      rw [List.map_cons, Json.toList_text_obj, Json.toList_text_obj, List.flatMap_map]
      have hfield : ∀ f ∈ field :: rest, Forces (n.normalize f.1 f.2 = f.2) (Json.fieldChars f)
          (Json.fieldChars (f.1, n.normalize f.1 f.2)) := fun f hf =>
        .append_left _ (.append_left [':'] (ih f hf))
      refine (Forces.bracketed '\x7b' (.inr (.inr rfl)) (Forces.parts hfield)).imp ?_
      intro hkept
      have hfields := List.map_congr_left fun f hf => congrArg (Prod.mk f.1) (hkept f hf)
      rw [List.map_id'] at hfields
      exact congrArg Json.obj hfields

/-- **A value keeps its text only when it is kept itself.** -/
theorem text_normalize_eq_iff (v : Json) :
    (n.normalize name v).text = v.text ↔ n.normalize name v = v := by
  constructor
  · intro heq
    exact (n.forces_text v [] [] Json.closes_nil Json.closes_nil (by rw [heq])).1
  · exact fun heq => congrArg Json.text heq

/-- **The text of an array or object is kept as a text.** -/
theorem normalizeText_text {v : Json} (h : v.isStructured = true) :
    n.normalizeText name v.text = .str v.text := by
  obtain ⟨opening, inner, closing, htext, hbrackets⟩ := Json.exists_brackets_text h
  -- The opening bracket is no letter of a boolean word, no digit, no sign and no point, so no rule
  -- takes the text.
  have hmem : opening ∈ v.text.toList := htext ▸ List.mem_cons_self
  have hletter : opening.toLower ∉ booleanLetters := by
    rcases hbrackets with ⟨rfl, -⟩ | ⟨rfl, -⟩ <;> decide
  have hopening : opening.isDigit = false ∧ opening ≠ '-' ∧ opening ≠ '.' := by
    rcases hbrackets with ⟨rfl, -⟩ | ⟨rfl, -⟩ <;> decide
  have hdigits : Text.isDigits v.text.toList = false := by
    rw [Bool.eq_false_iff]
    intro hall
    rw [Text.isDigit_of_isDigits hall opening hmem] at hopening
    cases hopening.1
  have hsigned : Text.isSignedDigits v.text.toList = false := by
    rw [htext, Text.isSignedDigits]
    · rwa [← htext]
    · intro cs hcs
      exact hopening.2.1 (List.cons.inj hcs).1
  have hdecimal : isDecimalText v.text.toList = false := by
    rw [Bool.eq_false_iff]
    intro hspells
    have := ((spellsDecimal_iff _).2 hspells).forall_mem opening hmem
    simp [hopening] at this
  simp [normalizeText, booleanText?_of_mem hmem hletter, hdigits, hsigned, hdecimal]

end Normalizer
end Querysmith
