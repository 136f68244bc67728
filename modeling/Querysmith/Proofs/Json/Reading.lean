/-
# Reading in front of more text

What the reader takes from the head of a text it takes just the same when more text follows, and
when it may take more steps (`persists`).  A string ends at its quote and an array or object at its
bracket, so what follows is never looked at; a number ends where the digits do, so it has to be
followed by something that is no digit, or more text could change it.  Inside an array or object
something always follows, so only a number that a whole text ends with is left out.
-/

import Querysmith.Json.Reader

namespace Querysmith
namespace Json

variable {t : List Char}

/-! ### Strings -/

/-- Four hexadecimal digits are read in front of any more text. -/
theorem hexQuad?_append {cs rest : List Char} {n : Nat} (h : hexQuad? cs = some (n, rest)) :
    hexQuad? (cs ++ t) = some (n, rest ++ t) := by
  match cs, h with
  | a :: b :: c :: d :: cs, h =>
    simp only [hexQuad?, Option.bind_eq_bind, Option.bind_eq_some_iff] at h
    obtain ⟨a', ha, b', hb, c', hc, d', hd, h⟩ := h
    obtain ⟨rfl, rfl⟩ : _ ∧ cs = rest := by simpa using h
    simp [hexQuad?, ha, hb, hc, hd]

/-- An escape is read in front of any more text, a pair of surrogates as well: the second one is
read with the first or not at all. -/
theorem escaped?_append {cs rest : List Char} {c : Char} (h : escaped? cs = some (c, rest)) :
    escaped? (cs ++ t) = some (c, rest ++ t) := by
  rw [escaped?.eq_def] at h
  split at h
  case h_9 cs =>
    -- The escape by number; the first half of a pair needs the escape of the second one behind it.
    rw [List.cons_append, escaped?]
    obtain ⟨⟨high, low⟩, hhigh, h⟩ := Option.bind_eq_some_iff.1 h
    rw [hexQuad?_append hhigh]
    simp only [Option.bind_eq_bind, Option.bind_some] at h ⊢
    split at h
    · obtain ⟨rfl, rfl⟩ : _ ∧ low = rest := by simpa using h
      rw [if_pos ‹_›]
    · rw [if_neg ‹_›]
      split at h
      · cases h
      · rw [if_neg ‹_›]
        split at h
        · rename_i cs
          obtain ⟨⟨low, tail⟩, hlow, h⟩ := Option.bind_eq_some_iff.1 h
          simp only [List.cons_append, hexQuad?_append hlow, Option.bind_some]
          split at h
          · cases h
          · rw [if_neg ‹_›]
            obtain ⟨rfl, rfl⟩ : _ ∧ tail = rest := by simpa using h
            rfl
        · cases h
  case h_10 => cases h
  all_goals
    obtain ⟨rfl, rfl⟩ := Prod.mk.inj (Option.some.inj h)
    rfl

/-- A string is read up to its quote, in front of any more text and with any more steps. -/
theorem stringBody_append {fuel : Nat} {acc cs rest : List Char} {s : String}
    (h : stringBody fuel acc cs = some (s, rest)) (more : Nat) :
    stringBody (fuel + more) acc (cs ++ t) = some (s, rest ++ t) := by
  -- The cases are those of the reader: the quote, an escape, a bad one, a control character, any
  -- other character, and nothing.
  induction fuel, acc, cs using stringBody.induct with
  | case1 fuel acc cs =>
    rw [stringBody] at h
    obtain ⟨rfl, rfl⟩ := Prod.mk.inj (Option.some.inj h)
    rw [List.cons_append, stringBody]
  | case2 fuel acc cs c tail hescape ih =>
    rw [stringBody, hescape] at h
    rw [Nat.succ_add, List.cons_append, stringBody, escaped?_append hescape]
    exact ih h
  | case3 fuel acc cs hescape =>
    rw [stringBody, hescape] at h
    cases h
  | case4 fuel acc c cs hquote hescape hlow =>
    rw [stringBody, if_pos hlow] at h
    · cases h
    · exact hquote
    · exact hescape
  | case5 fuel acc c cs hquote hescape hlow ih =>
    rw [stringBody.eq_3 _ _ _ _ hquote hescape, if_neg hlow] at h
    rw [Nat.succ_add, List.cons_append, stringBody.eq_3 _ _ _ _ hquote hescape, if_neg hlow]
    exact ih h
  | case6 fuel acc cs hquote hescape hplain =>
    rw [stringBody.eq_4 _ _ _ hquote hescape hplain] at h
    cases h

/-! ### Numbers -/

/-- A run that ends before the text does ends there in front of any more text. -/
theorem takeWhile_append_of_dropWhile {α : Type} {p : α → Bool} {xs : List α}
    (h : xs.dropWhile p ≠ []) (ys : List α) : (xs ++ ys).takeWhile p = xs.takeWhile p ∧
      (xs ++ ys).dropWhile p = xs.dropWhile p ++ ys := by
  -- The library tells the two cases apart by the length of what is taken.
  have hlength : (xs.takeWhile p).length ≠ xs.length := fun hall => by
    have := congrArg List.length (List.takeWhile_append_dropWhile (p := p) (l := xs))
    rw [List.length_append, hall] at this
    exact h (List.length_eq_zero_iff.1 (by omega))
  rw [List.takeWhile_append, if_neg hlength, List.dropWhile_append, if_neg (by simpa using h)]
  exact ⟨rfl, rfl⟩

/-- The sign of an exponent and what follows it. -/
def exponentSign : List Char → Bool × List Char
  | '-' :: cs => (true, cs)
  | '+' :: cs => (false, cs)
  | cs => (false, cs)

/-- The sign of an exponent is looked for in the first character alone. -/
theorem exponentSign_append {cs : List Char} (h : cs ≠ []) :
    exponentSign (cs ++ t) = ((exponentSign cs).1, (exponentSign cs).2 ++ t) := by
  cases cs with
  | nil => exact absurd rfl h
  | cons c cs =>
    rw [exponentSign.eq_def, exponentSign.eq_def]
    grind

/-- An exponent is a letter, a sign if any, and digits; without the letter there is none. -/
theorem exponentField_cons (negative : Bool) (significand : Nat) (exponent : Int) (c : Char)
    (cs : List Char) :
    exponentField negative significand exponent (c :: cs) =
      if c = 'e' ∨ c = 'E' then
        if ((exponentSign cs).2.takeWhile Char.isDigit).isEmpty then none
        else (withExponent negative significand exponent (exponentSign cs).1
          ((exponentSign cs).2.takeWhile Char.isDigit)).map fun x =>
            (float x, (exponentSign cs).2.dropWhile Char.isDigit)
      else (scale negative significand exponent).map fun x => (float x, c :: cs) := by
  rfl

/-- An exponent behind which something follows is read in front of any more text. -/
theorem exponentField_append {negative : Bool} {significand : Nat} {exponent : Int}
    {cs rest : List Char} {v : Json}
    (h : exponentField negative significand exponent cs = some (v, rest)) (hrest : rest ≠ []) :
    exponentField negative significand exponent (cs ++ t) = some (v, rest ++ t) := by
  cases cs with
  | nil =>
    rw [exponentField] at h
    obtain ⟨x, -, heq⟩ := Option.map_eq_some_iff.1 h
    exact absurd (Prod.mk.inj heq).2.symm hrest
  | cons c cs =>
    rw [exponentField_cons] at h
    rw [List.cons_append, exponentField_cons]
    split at h
    · -- Behind the letter the digits end before the text does, since something is left.
      rw [if_pos ‹_›]
      split at h
      · cases h
      · rename_i hdigits
        obtain ⟨x, hx, heq⟩ := Option.map_eq_some_iff.1 h
        obtain ⟨rfl, rfl⟩ := Prod.mk.inj heq
        have hcs : cs ≠ [] := by
          rintro rfl
          exact hdigits rfl
        obtain ⟨htake, hdrop⟩ := takeWhile_append_of_dropWhile hrest t
        rw [exponentSign_append hcs, htake, if_neg hdigits, hx, hdrop]
        rfl
    · rw [if_neg ‹_›]
      obtain ⟨x, hx, heq⟩ := Option.map_eq_some_iff.1 h
      obtain ⟨rfl, rfl⟩ := Prod.mk.inj heq
      rw [hx]
      rfl

/-- Digits alone are an integer whatever follows them. -/
theorem integer_append {negative : Bool} {significand : Nat} {cs rest : List Char} {v : Json}
    (h : numberTail.integer negative cs significand = some (v, rest)) :
    rest = cs ∧ numberTail.integer negative (cs ++ t) significand = some (v, cs ++ t) := by
  rw [numberTail.integer] at h ⊢
  split at h
  · rw [if_pos ‹_›]
    obtain ⟨rfl, rfl⟩ := Prod.mk.inj (Option.some.inj h)
    exact ⟨rfl, rfl⟩
  · rw [if_neg ‹_›]
    split at h
    all_goals obtain ⟨rfl, rfl⟩ := Prod.mk.inj (Option.some.inj h)
    · exact ⟨rfl, if_pos ‹_›⟩
    · exact ⟨rfl, if_neg ‹_›⟩

/-- Without an exponent at the end of a text nothing is left. -/
theorem exponentField_nil {negative : Bool} {significand : Nat} {exponent : Int}
    {rest : List Char} {v : Json}
    (h : exponentField negative significand exponent [] = some (v, rest)) : rest = [] := by
  obtain ⟨x, -, heq⟩ := Option.map_eq_some_iff.1 h
  exact (Prod.mk.inj heq).2.symm

/-- Behind the point of a number stands a fraction; the digits that fit are taken. -/
theorem numberTail_point (negative : Bool) (whole cs : List Char) :
    numberTail negative whole ('.' :: cs) =
      if (cs.takeWhile Char.isDigit).isEmpty then none
      else
        let gathered := gatherDigits (gatherDigits 0 whole).1 (cs.takeWhile Char.isDigit)
        exponentField negative gathered.1 ((gatherDigits 0 whole).2.length -
            ((cs.takeWhile Char.isDigit).length - gathered.2.length : Nat))
          (cs.dropWhile Char.isDigit) :=
  rfl

/-- Without a point a number is an integer, unless an exponent follows or its digits do not fit. -/
theorem numberTail_of_ne_point (negative : Bool) (whole : List Char) {c : Char} (hc : c ≠ '.')
    (cs : List Char) :
    numberTail negative whole (c :: cs) =
      if c = 'e' ∨ c = 'E' ∨ !(gatherDigits 0 whole).2.isEmpty then
        exponentField negative (gatherDigits 0 whole).1 (gatherDigits 0 whole).2.length (c :: cs)
      else numberTail.integer negative (c :: cs) (gatherDigits 0 whole).1 := by
  rw [numberTail.eq_def]
  grind

/-- At the end of a text a number is an integer, unless its digits do not fit. -/
theorem numberTail_nil_eq (negative : Bool) (whole : List Char) :
    numberTail negative whole [] =
      if (gatherDigits 0 whole).2.isEmpty then
        numberTail.integer negative [] (gatherDigits 0 whole).1
      else exponentField negative (gatherDigits 0 whole).1 (gatherDigits 0 whole).2.length [] :=
  rfl

/-- A number that ends with the text leaves nothing. -/
theorem numberTail_nil {negative : Bool} {whole rest : List Char} {v : Json}
    (h : numberTail negative whole [] = some (v, rest)) : rest = [] := by
  rw [numberTail_nil_eq] at h
  split at h
  · exact (integer_append (t := []) h).1
  · exact exponentField_nil h

/-- Behind its whole digits a number is read in front of any more text, if something follows it
already. -/
theorem numberTail_append {negative : Bool} {whole cs rest : List Char} {v : Json}
    (h : numberTail negative whole cs = some (v, rest)) (hrest : rest ≠ []) :
    numberTail negative whole (cs ++ t) = some (v, rest ++ t) := by
  cases cs with
  | nil => exact absurd (numberTail_nil h) hrest
  | cons c cs =>
    rw [List.cons_append]
    by_cases hc : c = '.'
    · subst hc
      rw [numberTail_point] at h ⊢
      split at h
      · cases h
      · rename_i hfraction
        -- A fraction that ends with the text leaves nothing.
        have hcs : cs.dropWhile Char.isDigit ≠ [] := fun hnil => by
          rw [hnil] at h
          exact hrest (exponentField_nil h)
        obtain ⟨htake, hdrop⟩ := takeWhile_append_of_dropWhile hcs t
        rw [htake, if_neg hfraction, hdrop]
        exact exponentField_append h hrest
    · rw [numberTail_of_ne_point _ _ hc] at h ⊢
      split at h
      · rw [if_pos ‹_›]
        exact exponentField_append h hrest
      · rw [if_neg ‹_›]
        obtain ⟨rfl, hinteger⟩ := integer_append (t := t) h
        exact hinteger

/-- An exponent makes a floating number. -/
theorem exists_float_of_exponentField {negative : Bool} {significand : Nat} {exponent : Int}
    {cs rest : List Char} {v : Json}
    (h : exponentField negative significand exponent cs = some (v, rest)) : ∃ x, v = float x := by
  have hmap : ∀ {read : Option Binary64} {ds : List Char},
      read.map (fun x => (float x, ds)) = some (v, rest) → ∃ x, v = float x := by
    intro read ds hread
    obtain ⟨x, -, heq⟩ := Option.map_eq_some_iff.1 hread
    exact ⟨x, (Prod.mk.inj heq).1.symm⟩
  cases cs with
  | nil => exact hmap h
  | cons c cs =>
    rw [exponentField_cons] at h
    split at h
    · split at h
      · cases h
      · exact hmap h
    · exact hmap h

/-- Behind its digits a number becomes an integer or a floating number. -/
theorem isStructured_of_numberTail {negative : Bool} {whole cs rest : List Char} {v : Json}
    (h : numberTail negative whole cs = some (v, rest)) : v.isStructured = false := by
  have hinteger : ∀ {significand ds}, numberTail.integer negative ds significand = some (v, rest) →
      v.isStructured = false := by
    intro significand ds h
    rw [numberTail.integer] at h
    grind [isStructured]
  have hexponent : ∀ {significand exponent ds},
      exponentField negative significand exponent ds = some (v, rest) →
        v.isStructured = false := by
    intro significand exponent ds h
    obtain ⟨x, rfl⟩ := exists_float_of_exponentField h
    rfl
  -- Each way to go on from the whole digits ends in one of the two.
  cases cs with
  | nil =>
    rw [numberTail_nil_eq] at h
    grind
  | cons c cs =>
    by_cases hc : c = '.'
    · subst hc
      rw [numberTail_point] at h
      grind
    · rw [numberTail_of_ne_point _ _ hc] at h
      grind

/-- The sign of a number and what follows it. -/
def minusSign : List Char → Bool × List Char
  | '-' :: cs => (true, cs)
  | cs => (false, cs)

/-- A number is a minus sign, if any, whole digits without a leading zero, and what follows them. -/
theorem number_eq (cs : List Char) :
    number cs = match (minusSign cs).2.takeWhile Char.isDigit with
      | [] => none
      | '0' :: _ :: _ => none
      | _ => numberTail (minusSign cs).1 ((minusSign cs).2.takeWhile Char.isDigit)
          ((minusSign cs).2.dropWhile Char.isDigit) := by
  rfl

/-- Nothing but a minus sign is taken off. -/
theorem minusSign_of_ne {c : Char} (h : c ≠ '-') (cs : List Char) :
    minusSign (c :: cs) = (false, c :: cs) := by
  rw [minusSign.eq_def]
  grind

/-- The minus sign is looked for in the first character alone. -/
theorem minusSign_append {cs : List Char} (h : cs ≠ []) :
    minusSign (cs ++ t) = ((minusSign cs).1, (minusSign cs).2 ++ t) := by
  obtain ⟨c, ds, rfl⟩ := List.exists_cons_of_ne_nil h
  by_cases hc : c = '-'
  · subst hc
    rfl
  · rw [List.cons_append, minusSign_of_ne hc, minusSign_of_ne hc]
    rfl

/-- **A number that does not end the text is read in front of any more text.**  The reader has seen
the character that ends the number, and what is added behind that is never looked at. -/
theorem number_append {cs rest : List Char} {v : Json} (h : number cs = some (v, rest))
    (hrest : rest ≠ []) : number (cs ++ t) = some (v, rest ++ t) := by
  have hcs : cs ≠ [] := by
    rintro rfl
    cases h
  rw [number_eq] at h
  rw [number_eq, minusSign_append hcs]
  -- Whole digits that end with the text leave nothing either.
  have hdrop : (minusSign cs).2.dropWhile Char.isDigit ≠ [] := fun hnil => by
    rw [hnil] at h
    split at h
    · cases h
    · cases h
    · exact hrest (numberTail_nil h)
  obtain ⟨htake, hdrop⟩ := takeWhile_append_of_dropWhile hdrop t
  rw [htake, hdrop]
  split at h
  · cases h
  · cases h
  · exact numberTail_append h hrest

/-! ### Values -/

/-- Blanks that do not end the text are passed over in front of any more text. -/
theorem skipSpace_append {cs : List Char} (h : skipSpace cs ≠ []) (t : List Char) :
    skipSpace (cs ++ t) = skipSpace cs ++ t :=
  (takeWhile_append_of_dropWhile h t).2

/-- Where blanks leave something, something was there. -/
theorem ne_nil_of_skipSpace {cs : List Char} (h : skipSpace cs ≠ []) : cs ≠ [] := by
  rintro rfl
  exact h rfl

/-- A number begins with a minus sign or a digit. -/
theorem exists_cons_of_number {cs rest : List Char} {v : Json} (h : number cs = some (v, rest)) :
    ∃ c ds, cs = c :: ds ∧ (c = '-' ∨ c.isDigit = true) := by
  cases cs with
  | nil => cases h
  | cons c ds =>
    refine ⟨c, ds, rfl, ?_⟩
    by_cases hc : c = '-'
    · exact .inl hc
    · rw [number_eq, minusSign_of_ne hc] at h
      by_cases hdigit : c.isDigit = true
      · exact .inr hdigit
      · rw [List.takeWhile_cons_of_neg hdigit] at h
        cases h

/-- A number is a scalar. -/
theorem isStructured_of_number {cs rest : List Char} {v : Json} (h : number cs = some (v, rest)) :
    v.isStructured = false := by
  rw [number_eq] at h
  split at h
  · cases h
  · cases h
  · exact isStructured_of_numberTail h

/-- What begins like a number is read as one. -/
theorem value_eq_number {cs ds : List Char} {c : Char} (hc : c = '-' ∨ c.isDigit = true)
    (h : skipSpace cs = c :: ds) (fuel depth : Nat) :
    value (fuel + 1) depth cs = number (c :: ds) := by
  rw [value, h]
  split
  case h_7 => rfl
  all_goals
    rename_i heq
    obtain ⟨rfl, -⟩ := List.cons.inj heq
    exact absurd hc (by decide)

/-- Nothing is read from an empty text. -/
theorem value_nil (fuel depth : Nat) : value fuel depth [] = none := by
  cases fuel <;> rfl

/-- Behind no text no items are read. -/
theorem items_nil (fuel depth : Nat) (acc : List Json) : items fuel depth acc [] = none := by
  cases fuel with
  | zero => rfl
  | succ fuel => rw [items, value_nil]

/-- Behind no text no fields are read. -/
theorem fields_nil (fuel depth : Nat) (acc : List (String × Json)) :
    fields fuel depth acc [] = none := by
  cases fuel <;> rfl

/-- **A string is read in front of any more text,** for its quote ends it.  The longer text gives
the reader more steps than it needs, which change nothing. -/
theorem string_append {cs rest : List Char} {s : String} (h : string cs = some (s, rest)) :
    string (cs ++ t) = some (s, rest ++ t) := by
  rw [string, List.length_append]
  exact stringBody_append h t.length

/-- What stands behind an opening bracket: the closing one, or what `body` reads. -/
def openBody {α : Type} (close : Char) (empty : α) (body : List Char → Option (α × List Char))
    (cs : List Char) : Option (α × List Char) :=
  if cs.head? = some close then some (empty, cs.tail) else body cs

/-- Behind the bracket of an array stands the closing one, or items. -/
theorem value_array {cs ds : List Char} (h : skipSpace cs = '[' :: ds) (fuel depth : Nat) :
    value (fuel + 1) (depth + 1) cs =
      openBody ']' (arr []) (items fuel depth []) (skipSpace ds) := by
  simp only [value, h, openBody]
  cases skipSpace ds with
  | nil => rfl
  | cons c ds =>
    by_cases hc : c = ']'
    · subst hc
      rfl
    · simp [hc]

/-- Behind the brace of an object stands the closing one, or fields. -/
theorem value_object {cs ds : List Char} (h : skipSpace cs = '\x7b' :: ds) (fuel depth : Nat) :
    value (fuel + 1) (depth + 1) cs =
      openBody '\x7d' (obj []) (fields fuel depth []) (skipSpace ds) := by
  simp only [value, h, openBody]
  cases skipSpace ds with
  | nil => rfl
  | cons c ds =>
    by_cases hc : c = '\x7d'
    · subst hc
      rfl
    · simp [hc]

/-- What is read behind an opening bracket is read there in front of more text, since the closing
bracket still has to come. -/
theorem openBody_append {close : Char} {empty : Json}
    {body body' : List Char → Option (Json × List Char)} {ds rest : List Char} {v : Json}
    (hnil : body [] = none)
    (hbody : ∀ cs, body cs = some (v, rest) → body' (cs ++ t) = some (v, rest ++ t))
    (h : openBody close empty body (skipSpace ds) = some (v, rest)) :
    openBody close empty body' (skipSpace (ds ++ t)) = some (v, rest ++ t) := by
  -- There is a closing bracket or a body behind the blanks, so they do not end the text.
  have hne : skipSpace ds ≠ [] := fun hds => by
    rw [hds] at h
    change body [] = some (v, rest) at h
    rw [hnil] at h
    cases h
  rw [skipSpace_append hne]
  obtain ⟨c, cs, hcs⟩ := List.exists_cons_of_ne_nil hne
  rw [hcs, openBody, List.head?_cons] at h
  rw [hcs, openBody, List.cons_append, List.head?_cons]
  split at h
  · obtain ⟨rfl, rfl⟩ := Prod.mk.inj (Option.some.inj h)
    rw [if_pos ‹_›]
    rfl
  · rw [if_neg ‹_›]
    exact hbody (c :: cs) h

/-- What the reader takes from the head of a text it takes in front of any more text, and with any
more steps.  A number at the very end of a text is no such thing, since more digits may follow. -/
structure Persists (fuel : Nat) : Prop where
  value : ∀ depth cs v rest, value fuel depth cs = some (v, rest) →
    (rest = [] → v.isStructured = true) → ∀ more t,
      Json.value (fuel + more) depth (cs ++ t) = some (v, rest ++ t)
  items : ∀ depth acc cs v rest, items fuel depth acc cs = some (v, rest) → ∀ more t,
    Json.items (fuel + more) depth acc (cs ++ t) = some (v, rest ++ t)
  fields : ∀ depth acc cs v rest, fields fuel depth acc cs = some (v, rest) → ∀ more t,
    Json.fields (fuel + more) depth acc (cs ++ t) = some (v, rest ++ t)

namespace Persists

variable {fuel depth : Nat} {cs rest : List Char} {v : Json}

/-- With parts that persist a value persists, unless it is a number that ends the text. -/
theorem value_succ (ih : Persists fuel) (h : Json.value (fuel + 1) depth cs = some (v, rest))
    (hend : rest = [] → v.isStructured = true) (more : Nat) (t : List Char) :
    Json.value (fuel + more + 1) depth (cs ++ t) = some (v, rest ++ t) := by
  have hne : skipSpace cs ≠ [] := fun hnil => by
    rw [Json.value, hnil] at h
    cases h
  have hskip := skipSpace_append hne t
  have hvalue := h
  rw [Json.value] at h
  split at h
  -- In the order of the reader's cases: strings, arrays, objects and numbers, then the words.
  case h_4 ds hcs =>
    obtain ⟨⟨s, ds⟩, hs, heq⟩ := Option.map_eq_some_iff.1 h
    obtain ⟨rfl, rfl⟩ := Prod.mk.inj heq
    rw [Json.value, hskip, hcs]
    simp only [List.cons_append, string_append hs, Option.map_some]
  case h_5 ds hcs =>
    rw [hcs, List.cons_append] at hskip
    cases depth with
    | zero => cases h
    | succ depth =>
      rw [value_array hcs] at hvalue
      rw [value_array hskip]
      exact openBody_append (items_nil fuel depth []) (fun _ h => ih.items _ _ _ _ _ h more t)
        hvalue
  case h_6 ds hcs =>
    rw [hcs, List.cons_append] at hskip
    cases depth with
    | zero => cases h
    | succ depth =>
      rw [value_object hcs] at hvalue
      rw [value_object hskip]
      exact openBody_append (fields_nil fuel depth []) (fun _ h => ih.fields _ _ _ _ _ h more t)
        hvalue
  case h_7 =>
    obtain ⟨c, ds, hcs, hc⟩ := exists_cons_of_number h
    rw [hcs, List.cons_append] at hskip
    -- A number is a scalar, so it does not end the text.
    have hrest : rest ≠ [] := fun hnil => by
      have hscalar := isStructured_of_number h
      rw [hend hnil] at hscalar
      cases hscalar
    rw [value_eq_number hc hskip, ← List.cons_append, ← hcs]
    exact number_append h hrest
  all_goals
    obtain ⟨rfl, rfl⟩ := Prod.mk.inj (Option.some.inj h)
    rw [Json.value, hskip, ‹skipSpace cs = _›]
    rfl

/-- With parts that persist one more item persists. -/
theorem items_succ (ih : Persists fuel) {acc : List Json}
    (h : Json.items (fuel + 1) depth acc cs = some (v, rest)) (more : Nat) (t : List Char) :
    Json.items (fuel + more + 1) depth acc (cs ++ t) = some (v, rest ++ t) := by
  rw [Json.items] at h ⊢
  split at h
  · cases h
  · rename_i item ds hitem
    -- A comma or the bracket was read behind the item, so something follows it.
    have hds : skipSpace ds ≠ [] := fun hnil => by
      rw [hnil] at h
      cases h
    rw [ih.value _ _ _ _ hitem (fun hnil => absurd hnil (ne_nil_of_skipSpace hds)) more t]
    simp only [skipSpace_append hds t]
    split at h
    · rename_i heq
      rw [heq]
      exact ih.items _ _ _ _ _ h more t
    · rename_i heq
      obtain ⟨rfl, rfl⟩ := Prod.mk.inj (Option.some.inj h)
      rw [heq]
      rfl
    · cases h

/-- With parts that persist one more field persists. -/
theorem fields_succ (ih : Persists fuel) {acc : List (String × Json)}
    (h : Json.fields (fuel + 1) depth acc cs = some (v, rest)) (more : Nat) (t : List Char) :
    Json.fields (fuel + more + 1) depth acc (cs ++ t) = some (v, rest ++ t) := by
  have hne : skipSpace cs ≠ [] := fun hnil => by
    rw [Json.fields, hnil] at h
    cases h
  rw [Json.fields] at h
  rw [Json.fields, skipSpace_append hne]
  split at h
  · rename_i heq
    simp only [heq, List.cons_append]
    split at h
    · cases h
    · rename_i key ds hkey
      simp only [string_append hkey]
      -- A colon was read behind the key, and a comma or the brace is read behind the value.
      have hds : skipSpace ds ≠ [] := fun hnil => by
        rw [hnil] at h
        cases h
      rw [skipSpace_append hds]
      split at h
      · rename_i heq
        simp only [heq, List.cons_append]
        split at h
        · cases h
        · rename_i item ds hitem
          have hds : skipSpace ds ≠ [] := fun hnil => by
            rw [hnil] at h
            cases h
          rw [ih.value _ _ _ _ hitem (fun hnil => absurd hnil (ne_nil_of_skipSpace hds)) more t]
          simp only [skipSpace_append hds t]
          split at h
          · rename_i heq
            rw [heq]
            exact ih.fields _ _ _ _ _ h more t
          · rename_i heq
            obtain ⟨rfl, rfl⟩ := Prod.mk.inj (Option.some.inj h)
            rw [heq]
            rfl
          · cases h
      · cases h
  · cases h

end Persists

/-- **Reading goes on the same in front of more text.**  The three readers call each other with less
fuel, so one induction on the fuel proves it of all of them: what is read inside an array or object
is followed by a separator, which is all that a number needs. -/
theorem persists (fuel : Nat) : Persists fuel := by
  -- One induction for the three readers, which call each other with less fuel.
  induction fuel with
  | zero =>
    refine ⟨fun _ _ _ _ h => ?_, fun _ _ _ _ _ h => ?_, fun _ _ _ _ _ h => ?_⟩ <;> cases h
  | succ fuel ih =>
    refine ⟨fun _ _ _ _ h hend more t => ?_, fun _ _ _ _ _ h more t => ?_,
      fun _ _ _ _ _ h more t => ?_⟩ <;> rw [Nat.succ_add]
    · exact ih.value_succ h hend more t
    · exact ih.items_succ h more t
    · exact ih.fields_succ h more t

end Json
end Querysmith
