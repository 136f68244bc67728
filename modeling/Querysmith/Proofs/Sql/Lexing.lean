/-
# The tokens of a fragment

The reader of tokens takes as much as it can, so a text read behind another one could be taken for a
part of it.  That cannot happen where the first text ends in a separator, or the second one begins
with a character that ends every token (`Separate`): a plain text is then read as it would be read
alone (`exists_taken`).  The pieces of a legible fragment are all separate, so its tokens are those
of its pieces (`Fragment.tokens_sql`).
-/

import Querysmith.Proofs.Fragment.Render
import Querysmith.Proofs.Fragment.Text
import Querysmith.Sql.Token

namespace Querysmith
namespace Sql
namespace Token

/-- The tokens at the head of a text, up to a rest, with the characters of the rest in sight. -/
inductive Taken : List Char → List Token → List Char → Prop
  | done (rest : List Char) : Taken rest [] rest
  | space {c : Char} {cs rest : List Char} {ts : List Token} : isSpace c = true →
      Taken cs ts rest → Taken (c :: cs) ts rest
  | token {c : Char} {cs middle rest : List Char} {t : Token} {ts : List Token} :
      isSpace c = false → first? (c :: cs) = some (t, middle) → middle.length ≤ cs.length →
      Taken middle ts rest → Taken (c :: cs) (t :: ts) rest

/-- Tokens at the head of a text and tokens at the head of its rest stand behind each other. -/
theorem Taken.append {cs middle rest : List Char} {ts us : List Token} (h : Taken cs ts middle)
    (h' : Taken middle us rest) : Taken cs (ts ++ us) rest := by
  induction h with
  | done => exact h'
  | space hc _ ih => exact .space hc (ih h')
  | token hc hfirst hlength _ ih => exact .token hc hfirst hlength (ih h')

/-- The reader finds the tokens that are there. -/
theorem Taken.readFrom_eq {cs : List Char} {ts : List Token} (h : Taken cs ts []) {fuel : Nat}
    (hfuel : cs.length ≤ fuel) (acc : List Token) :
    readFrom fuel acc cs = some (acc.reverse ++ ts) := by
  generalize hrest : ([] : List Char) = rest at h
  induction h generalizing fuel acc with
  | done rest =>
    subst hrest
    cases fuel <;> simp [readFrom]
  | space hc _ ih =>
    cases fuel with
    | zero => simp at hfuel
    | succ fuel =>
      rw [readFrom, if_pos hc]
      exact ih (Nat.le_of_succ_le_succ hfuel) acc hrest
  | token hc hfirst hlength _ ih =>
    cases fuel with
    | zero => simp at hfuel
    | succ fuel =>
      rw [readFrom, if_neg (by simp [hc]), hfirst]
      simpa using ih (Nat.le_trans hlength (Nat.le_of_succ_le_succ hfuel)) (_ :: acc) hrest

/-- When all of a text is taken, it is read as its tokens. -/
theorem Taken.read?_eq {s : String} {ts : List Token} (h : Taken s.toList ts []) :
    read? s = some ts :=
  h.readFrom_eq (Nat.le_refl _) []

/-- A character that ends every token before it. -/
def isBoundary (c : Char) : Bool := isSeparator c || c = '"' || c = '$' || c = '?'

/-- The first text ends in a separator, or the second one begins with a character that ends every
token. -/
def Separate (cs rest : List Char) : Prop :=
  cs.getLast?.any isSeparator = true ∨ rest.head?.all isBoundary = true

/-- What is separate from the empty text is empty or begins with a character that ends every
token. -/
theorem Separate.nil {rest : List Char} (h : Separate [] rest) :
    rest.head?.all isBoundary = true := by
  rcases h with h | h
  · cases h
  · exact h

/-- What is left of a text is separate, unless nothing is. -/
theorem Separate.suffix {cs part rest : List Char} (h : Separate cs rest) (hpart : part <:+ cs) :
    part = [] ∨ Separate part rest := by
  obtain ⟨before, rfl⟩ := hpart
  cases part with
  | nil => exact .inl rfl
  | cons c part =>
    refine .inr (h.imp_left fun h => ?_)
    rwa [List.getLast?_append_of_ne_nil _ (List.cons_ne_nil c part)] at h

/-- Behind a character that is no separator the text is still separate. -/
theorem Separate.tail {c : Char} {cs rest : List Char} (h : Separate (c :: cs) rest)
    (hc : isSeparator c = false) : Separate cs rest := by
  obtain rfl | hcs := h.suffix (List.suffix_cons c cs)
  · exact h.imp_left fun h => by simp [hc] at h
  · exact hcs

/-- A run of characters that no boundary belongs to ends where the text ends. -/
theorem takeWhile_append {p : Char → Bool} (hp : ∀ c, isBoundary c = true → p c = false)
    {cs rest : List Char} (h : Separate cs rest) :
    (cs ++ rest).takeWhile p = cs.takeWhile p ∧
      (cs ++ rest).dropWhile p = cs.dropWhile p ++ rest ∧ Separate (cs.dropWhile p) rest := by
  induction cs with
  | nil =>
    have hrest := h.nil
    cases rest with
    | nil => exact ⟨rfl, rfl, h⟩
    | cons c rest => simp [hp c (by simpa using hrest), h]
  | cons c cs ih =>
    cases hc : p c with
    | false => simp [hc, h]
    | true =>
      have hseparator : isSeparator c = false := by
        by_contra hsep
        have := hp c (by simp [isBoundary, hsep])
        simp [hc] at this
      simpa [hc] using ih (h.tail hseparator)

/-- The boundaries are these seven characters. -/
theorem mem_of_isBoundary {c : Char} (h : isBoundary c = true) :
    c ∈ [' ', ',', '(', ')', '"', '$', '?'] := by
  simpa [isBoundary, isSeparator, or_assoc] using h

/-- A boundary is no digit. -/
theorem isDigit_of_isBoundary (c : Char) (h : isBoundary c = true) : c.isDigit = false := by
  have : ∀ c ∈ [' ', ',', '(', ')', '"', '$', '?'], c.isDigit = false :=
    forall_mem_of_all (by decide)
  exact this c (mem_of_isBoundary h)

/-- A boundary is no part of a word. -/
theorem isWordPart_of_isBoundary (c : Char) (h : isBoundary c = true) : isWordPart c = false := by
  have : ∀ c ∈ [' ', ',', '(', ')', '"', '$', '?'], isWordPart c = false :=
    forall_mem_of_all (by decide)
  exact this c (mem_of_isBoundary h)

/-- A boundary is no part of a number. -/
theorem not_numeric_of_isBoundary {c : Char} (h : isBoundary c = true) :
    c ≠ 'e' ∧ c ≠ 'E' ∧ c ≠ '+' ∧ c ≠ '-' ∧ c ≠ '.' := by
  have : ∀ c ∈ [' ', ',', '(', ')', '"', '$', '?'],
      c ≠ 'e' ∧ c ≠ 'E' ∧ c ≠ '+' ∧ c ≠ '-' ∧ c ≠ '.' := forall_mem_of_all (by decide)
  exact this c (mem_of_isBoundary h)

/-- The sign of an exponent, if it has one, and the rest. -/
def exponentSign (cs : List Char) : List Char × List Char :=
  match cs with
  | '+' :: digits => (['+'], digits)
  | '-' :: digits => (['-'], digits)
  | digits => ([], digits)

/-- An exponent is its letter, its sign and its digits. -/
theorem exponent_cons (e : Char) (cs : List Char) :
    exponent (e :: cs) =
      let part := exponentSign cs
      if (e = 'e' ∨ e = 'E') ∧ part.2.takeWhile Char.isDigit ≠ [] then
        (e :: part.1 ++ part.2.takeWhile Char.isDigit, part.2.dropWhile Char.isDigit)
      else ([], e :: cs) := rfl

/-- The sign of an exponent is found as it is without the rest. -/
theorem exponentSign_append {cs rest : List Char} (h : Separate cs rest) :
    exponentSign (cs ++ rest) = ((exponentSign cs).1, (exponentSign cs).2 ++ rest) ∧
      Separate (exponentSign cs).2 rest := by
  cases cs with
  | nil =>
    have hrest := h.nil
    cases rest with
    | nil => exact ⟨rfl, h⟩
    | cons c rest =>
      obtain ⟨-, -, hplus, hminus, -⟩ := not_numeric_of_isBoundary (c := c) (by simpa using hrest)
      simp [exponentSign, hplus, hminus, h]
  | cons s cs =>
    by_cases hplus : s = '+'
    · subst hplus
      exact ⟨rfl, h.tail rfl⟩
    · by_cases hminus : s = '-'
      · subst hminus
        exact ⟨rfl, h.tail rfl⟩
      · simp [exponentSign, hplus, hminus, h]

/-- An exponent is read as it is read alone. -/
theorem exponent_append {cs rest : List Char} (h : Separate cs rest) :
    exponent (cs ++ rest) = ((exponent cs).1, (exponent cs).2 ++ rest) := by
  cases cs with
  | nil =>
    -- A boundary is no letter of an exponent.
    have hrest := h.nil
    cases rest with
    | nil => rfl
    | cons c rest =>
      obtain ⟨he, hE, -⟩ := not_numeric_of_isBoundary (c := c) (by simpa using hrest)
      simp [exponent, he, hE]
  | cons e cs =>
    by_cases he : e = 'e' ∨ e = 'E'
    · have hcs : Separate cs rest := h.tail (by rcases he with rfl | rfl <;> rfl)
      obtain ⟨hsign, hdigits⟩ := exponentSign_append hcs
      obtain ⟨htake, hdrop, -⟩ := takeWhile_append isDigit_of_isBoundary hdigits
      rw [List.cons_append, exponent_cons, exponent_cons, hsign]
      simp only [htake, hdrop]
      split <;> rfl
    · simp [exponent_cons, he]

/-- What follows the whole digits of a number: its fraction, if it has one, and the rest. -/
def fraction (cs : List Char) : List Char × List Char :=
  match cs with
  | '.' :: rest => ('.' :: rest.takeWhile Char.isDigit, rest.dropWhile Char.isDigit)
  | rest => ([], rest)

/-- A numeral is its digits, its fraction and its exponent. -/
theorem numeral_eq (cs : List Char) :
    numeral cs =
      let part := fraction (cs.dropWhile Char.isDigit)
      (cs.takeWhile Char.isDigit ++ part.1 ++ (exponent part.2).1, (exponent part.2).2) := rfl

/-- The fraction of a numeral is found as it is without the rest. -/
theorem fraction_append {cs rest : List Char} (h : Separate cs rest) :
    fraction (cs ++ rest) = ((fraction cs).1, (fraction cs).2 ++ rest) ∧
      Separate (fraction cs).2 rest := by
  cases cs with
  | nil =>
    have hrest := h.nil
    cases rest with
    | nil => exact ⟨rfl, h⟩
    | cons c rest =>
      obtain ⟨-, -, -, -, hdot⟩ := not_numeric_of_isBoundary (c := c) (by simpa using hrest)
      simp [fraction, hdot, h]
  | cons c cs =>
    by_cases hdot : c = '.'
    · subst hdot
      obtain ⟨htake, hdrop, hseparate⟩ :=
        takeWhile_append isDigit_of_isBoundary (h.tail rfl)
      simp only [fraction, List.cons_append, htake, hdrop]
      exact ⟨trivial, hseparate⟩
    · simp [fraction, hdot, h]

/-- A number is read as it is read alone. -/
theorem numeral_append {cs rest : List Char} (h : Separate cs rest) :
    numeral (cs ++ rest) = ((numeral cs).1, (numeral cs).2 ++ rest) := by
  obtain ⟨htake, hdrop, hseparate⟩ := takeWhile_append isDigit_of_isBoundary h
  obtain ⟨hfraction, hseparate⟩ := fraction_append hseparate
  simp only [numeral_eq, htake, hdrop, hfraction, exponent_append hseparate]

/-- Behind an exponent stands the end of the text. -/
theorem exponent_suffix (cs : List Char) : (exponent cs).2 <:+ cs := by
  cases cs with
  | nil => exact List.suffix_rfl
  | cons e cs =>
    have hsign : (exponentSign cs).2 <:+ cs := by
      unfold exponentSign
      split
      · exact List.suffix_cons _ _
      · exact List.suffix_cons _ _
      · exact List.suffix_rfl
    rw [exponent_cons]
    simp only
    split
    · exact ((List.dropWhile_suffix _).trans hsign).trans (List.suffix_cons _ _)
    · exact List.suffix_rfl

/-- Behind a fraction stands the end of the text. -/
theorem fraction_suffix (cs : List Char) : (fraction cs).2 <:+ cs := by
  unfold fraction
  split
  · exact (List.dropWhile_suffix _).trans (List.suffix_cons _ _)
  · exact List.suffix_rfl

/-- A number takes a character at least. -/
theorem numeral_suffix {c : Char} {cs : List Char}
    (h : c.isDigit = true ∨ (c = '.' ∧ cs.head?.any Char.isDigit = true)) :
    (numeral (c :: cs)).2 <:+ cs := by
  rw [numeral_eq]
  refine (exponent_suffix _).trans ?_
  rcases h with h | ⟨rfl, -⟩
  · rw [List.dropWhile_cons_of_pos h]
    exact (fraction_suffix _).trans (List.dropWhile_suffix _)
  · exact List.dropWhile_suffix _

/-- A sign of two characters is one of comparison, or the one of a cast. -/
theorem mem_of_pairs {c d : Char} (h : pairs.contains (String.ofList [c, d]) = true) :
    c ∈ ['!', '<', '>', ':'] ∧ d ∈ ['=', '>', ':'] := by
  have hmem : [c, d] ∈ pairs.map String.toList := by
    refine List.mem_map.2 ⟨_, List.contains_iff_mem.1 h, String.toList_ofList⟩
  have hpairs : pairs.map String.toList =
      [['!', '='], ['<', '='], ['>', '='], ['<', '>'], [':', ':']] := rfl
  simp only [hpairs, List.mem_cons, List.cons.injEq, List.not_mem_nil, or_false, and_true] at hmem
  rcases hmem with ⟨rfl, rfl⟩ | ⟨rfl, rfl⟩ | ⟨rfl, rfl⟩ | ⟨rfl, rfl⟩ | ⟨rfl, rfl⟩ <;> decide

/-- A sign is read as it is read alone. -/
theorem exists_signAt (c : Char) (cs : List Char) :
    ∃ t r, r <:+ cs ∧ ∀ rest, Separate (c :: cs) rest →
      signAt (c :: (cs ++ rest)) = some (t, r ++ rest) := by
  cases cs with
  | nil =>
    refine ⟨sign (String.ofList [c]), [], List.suffix_rfl, fun rest h => ?_⟩
    cases rest with
    | nil => rfl
    | cons d rest =>
      -- A separator is the first character of no pair, and a boundary is the second of none.
      have hpair : pairs.contains (String.ofList [c, d]) = false := by
        by_contra hpair
        obtain ⟨hc, hd⟩ := mem_of_pairs (by simpa using hpair)
        rcases h with h | h
        · have : ∀ c ∈ ['!', '<', '>', ':'], isSeparator c = false :=
            forall_mem_of_all (by decide)
          simp [this c hc] at h
        · have : ∀ d ∈ ['=', '>', ':'], isBoundary d = false := forall_mem_of_all (by decide)
          simp [this d hd] at h
      simp only [signAt, List.nil_append, hpair, Bool.false_eq_true, if_false]
  | cons d cs =>
    cases hpair : pairs.contains (String.ofList [c, d]) with
    | true =>
      refine ⟨sign (String.ofList [c, d]), cs, List.suffix_cons _ _, fun rest _ => ?_⟩
      simp only [signAt, List.cons_append, hpair, if_true]
    | false =>
      refine ⟨sign (String.ofList [c]), d :: cs, List.suffix_rfl, fun rest _ => ?_⟩
      simp only [signAt, List.cons_append, hpair, Bool.false_eq_true, if_false]

/-- What begins without a quote and without a placeholder is a number, a word or a sign. -/
theorem first?_of_isPlainChar {c : Char} (hc : isPlainChar c = true) {cs : List Char}
    (hblob : ¬((c = 'x' ∨ c = 'X') ∧ cs.head? = some '\'')) :
    first? (c :: cs) =
      if c.isDigit ∨ (c = '.' ∧ cs.head?.any Char.isDigit) then
        some (number (String.ofList (numeral (c :: cs)).1), (numeral (c :: cs)).2)
      else if isWordStart c then
        some (word (String.ofList (c :: cs.takeWhile isWordPart)), cs.dropWhile isWordPart)
      else signAt (c :: cs) := by
  simp only [isPlainChar, Bool.and_eq_true, bne_iff_ne] at hc
  obtain ⟨⟨⟨hquote, happ⟩, hdollar⟩, hmark⟩ := hc
  unfold first?
  split
  · rename_i heq
    cases heq
  · rename_i heq
    cases heq
    exact absurd rfl hquote
  · rename_i heq
    cases heq
    exact absurd rfl happ
  · rename_i heq
    cases heq
    rw [if_neg hblob]
    -- Neither sign of a placeholder is a plain character.
    have hplace : ¬((c = '?' ∨ c = '$') ∧ cs.head?.any Char.isDigit = true) := by
      rintro ⟨h | h, -⟩
      · exact hmark h
      · exact hdollar h
    simp only [if_neg hplace]

/-- A digit behind a point belongs to the text that the point ends. -/
theorem head?_any_isDigit {cs rest : List Char} (h : Separate cs rest) :
    (cs ++ rest).head?.any Char.isDigit = cs.head?.any Char.isDigit := by
  cases cs with
  | nil =>
    have hrest := h.nil
    cases rest with
    | nil => rfl
    | cons c rest => simpa using isDigit_of_isBoundary c (by simpa using hrest)
  | cons c cs => rfl

/-- No text between single quotes begins at the end of a plain text. -/
theorem head?_ne_apostrophe {c : Char} {cs rest : List Char}
    (hplain : ∀ ch ∈ c :: cs, isPlainChar ch = true) (h : Separate (c :: cs) rest) :
    ¬((c = 'x' ∨ c = 'X') ∧ (cs ++ rest).head? = some '\'') := by
  rintro ⟨hx, hhead⟩
  cases cs with
  | nil =>
    have hrest := (h.tail (by rcases hx with rfl | rfl <;> rfl)).nil
    rw [List.nil_append] at hhead
    rw [hhead] at hrest
    exact absurd hrest (by decide)
  | cons d cs =>
    obtain rfl : d = '\'' := by simpa using hhead
    exact absurd (hplain '\'' (by simp)) (by decide)

/-- **A token of a plain text is read as it is read alone.** -/
theorem exists_first? {c : Char} {cs : List Char} (hplain : ∀ ch ∈ c :: cs, isPlainChar ch = true) :
    ∃ t r, r <:+ cs ∧ ∀ rest, Separate (c :: cs) rest →
      first? (c :: (cs ++ rest)) = some (t, r ++ rest) := by
  have hc := hplain c List.mem_cons_self
  by_cases hdigit : c.isDigit = true ∨ (c = '.' ∧ cs.head?.any Char.isDigit = true)
  · refine ⟨number (String.ofList (numeral (c :: cs)).1), _, numeral_suffix hdigit,
      fun rest h => ?_⟩
    -- What makes a point the beginning of a number is the digit behind it, and no rest brings one.
    have hnumber : c.isDigit = true ∨ (c = '.' ∧ (cs ++ rest).head?.any Char.isDigit = true) := by
      refine hdigit.imp_right fun ⟨hdot, hcs⟩ => ⟨hdot, ?_⟩
      rwa [head?_any_isDigit (h.tail (by rw [hdot]; rfl))]
    rw [first?_of_isPlainChar hc (head?_ne_apostrophe hplain h), if_pos hnumber, ← List.cons_append,
      numeral_append h]
  · have hsign : ∀ rest, Separate (c :: cs) rest →
        ¬(c.isDigit = true ∨ (c = '.' ∧ (cs ++ rest).head?.any Char.isDigit = true)) := by
      rintro rest h (hc | ⟨hdot, hcs⟩)
      · exact hdigit (.inl hc)
      · rw [head?_any_isDigit (h.tail (by rw [hdot]; rfl))] at hcs
        exact hdigit (.inr ⟨hdot, hcs⟩)
    cases hword : isWordStart c with
    | true =>
      refine ⟨word (String.ofList (c :: cs.takeWhile isWordPart)), _,
        List.dropWhile_suffix isWordPart, fun rest h => ?_⟩
      -- No separator begins a word, so what follows the first character is separate too.
      have hseparator : isSeparator c = false := by
        by_contra hsep
        have hpart := isWordPart_of_isBoundary c (by simp [isBoundary, hsep])
        simp [isWordPart, hword] at hpart
      obtain ⟨htake, hdrop, -⟩ := takeWhile_append isWordPart_of_isBoundary (h.tail hseparator)
      rw [first?_of_isPlainChar hc (head?_ne_apostrophe hplain h), if_neg (hsign rest h),
        if_pos hword, htake, hdrop]
    | false =>
      obtain ⟨t, r, hr, hsignAt⟩ := exists_signAt c cs
      refine ⟨t, r, hr, fun rest h => ?_⟩
      rw [first?_of_isPlainChar hc (head?_ne_apostrophe hplain h), if_neg (hsign rest h),
        if_neg (by simp [hword]), hsignAt rest h]

/-- **A plain text is read as it is read alone,** when it is empty or separate from what follows. -/
theorem exists_taken (cs : List Char) (hplain : ∀ c ∈ cs, isPlainChar c = true) :
    ∃ ts, ∀ rest, (cs = [] ∨ Separate cs rest) → Taken (cs ++ rest) ts rest := by
  -- By induction on the length, since a token takes as many characters as it has.
  induction hn : cs.length using Nat.strong_induction_on generalizing cs with
  | _ n ih =>
    cases cs with
    | nil => exact ⟨[], fun rest _ => .done rest⟩
    | cons c cs =>
      have hlength : cs.length < n := by simp [← hn]
      have htail : ∀ ch ∈ cs, isPlainChar ch = true := fun ch hch =>
        hplain ch (List.mem_cons_of_mem c hch)
      cases hspace : isSpace c with
      | true =>
        obtain ⟨ts, hts⟩ := ih cs.length hlength cs htail rfl
        refine ⟨ts, fun rest h => .space hspace (hts rest ?_)⟩
        exact (h.resolve_left (List.cons_ne_nil c cs)).suffix (List.suffix_cons c cs)
      | false =>
        obtain ⟨t, part, hpart, hfirst⟩ := exists_first? hplain
        obtain ⟨ts, hts⟩ := ih part.length (Nat.lt_of_le_of_lt hpart.length_le hlength) part
          (fun ch hch => htail ch (hpart.subset hch)) rfl
        refine ⟨t :: ts, fun rest h => ?_⟩
        have hseparate := h.resolve_left (List.cons_ne_nil c cs)
        refine .token hspace (hfirst rest hseparate) ?_ (hts rest ?_)
        · simpa using hpart.length_le
        · exact hseparate.suffix (hpart.trans (List.suffix_cons c cs))

/-- The tokens of a plain text. -/
def ofPlain (cs : List Char) : List Token := (read? (String.ofList cs)).getD []

/-- **A plain text is taken as its tokens,** if it is separate from what follows it. -/
theorem taken_ofPlain {cs : List Char} (hplain : ∀ c ∈ cs, isPlainChar c = true) {rest : List Char}
    (h : cs = [] ∨ Separate cs rest) : Taken (cs ++ rest) (ofPlain cs) rest := by
  obtain ⟨ts, hts⟩ := exists_taken cs hplain
  have halone : Taken (String.ofList cs).toList ts [] := by
    rw [String.toList_ofList]
    simpa using hts [] (.inr (.inr rfl))
  rw [ofPlain, halone.read?_eq]
  exact hts rest h

/-- A cast is a sign and the tokens of its target. -/
theorem ofPlain_cast {target : List Char} (h : ∀ c ∈ target, isPlainChar c = true) :
    ofPlain (':' :: ':' :: target) = .sign "::" :: ofPlain target := by
  have hfirst : first? (':' :: ':' :: target) = some (.sign "::", target) := rfl
  have htarget : Taken (target ++ []) (ofPlain target) [] := taken_ofPlain h (.inr (.inr rfl))
  rw [List.append_nil] at htarget
  have htaken : Taken (String.ofList (':' :: ':' :: target)).toList
      (.sign "::" :: ofPlain target) [] := by
    rw [String.toList_ofList]
    exact .token rfl hfirst (by simp) htarget
  rw [ofPlain, htaken.read?_eq]
  rfl

/-- A placeholder is its sign and all digits that follow. -/
theorem first?_placeholder {mark : Char} (hmark : mark = '$' ∨ mark = '?') {digits rest : List Char}
    (hne : digits ≠ []) (hdigits : ∀ c ∈ digits, c.isDigit = true)
    (hrest : rest.head?.any Char.isDigit = false) :
    first? (mark :: (digits ++ rest)) = some (placeholder (Text.readDecimal digits), rest) := by
  have hhead : (digits ++ rest).head?.any Char.isDigit = true := by
    cases digits with
    | nil => exact absurd rfl hne
    | cons c digits => exact hdigits c List.mem_cons_self
  have htake : rest.takeWhile Char.isDigit = [] ∧ rest.dropWhile Char.isDigit = rest := by
    cases rest with
    | nil => exact ⟨rfl, rfl⟩
    | cons c rest =>
      have hc : c.isDigit = false := hrest
      simp [hc]
  have hplace : (mark = '?' ∨ mark = '$') ∧ (digits ++ rest).head?.any Char.isDigit = true :=
    ⟨hmark.symm, hhead⟩
  have hfirst : first? (mark :: (digits ++ rest)) =
      some (placeholder (Text.readDecimal ((digits ++ rest).takeWhile Char.isDigit)),
        (digits ++ rest).dropWhile Char.isDigit) := by
    rcases hmark with rfl | rfl <;> exact if_pos hplace
  rw [hfirst, List.takeWhile_append_of_pos hdigits, List.dropWhile_append_of_pos hdigits, htake.1,
    htake.2, List.append_nil]

/-- The tokens of every kind of piece. -/
def rendering (d : Dialect) : Rendering Token where
  text s := ofPlain s.toList
  name s := [.name s]
  hole n cast := .placeholder n :: ofPlain (d.castText cast)

/-- As tokens, a text is what is read of it. -/
@[simp] theorem rendering_text (d : Dialect) (s : String) :
    (rendering d).text s = ofPlain s.toList := rfl

/-- As tokens, a name is one token. -/
@[simp] theorem rendering_name (d : Dialect) (s : String) : (rendering d).name s = [.name s] := rfl

/-- As tokens, a hole is a placeholder and the tokens of its cast. -/
@[simp] theorem rendering_hole (d : Dialect) (n : Nat) (cast : Option String) :
    (rendering d).hole n cast = .placeholder n :: ofPlain (d.castText cast) := rfl

end Token
end Sql

namespace Fragment

open Sql Token

variable {d : Dialect} {targets : List String}

/-- The tokens of a fragment that stands behind `bound` bound values. -/
abbrev tokens (d : Dialect) (bound : Nat) (f : Fragment) : List Token :=
  render (Token.rendering d) bound f

/-- The tokens of a text stand in front of those behind it. -/
theorem tokens_text (bound : Nat) (s : String) (f : Fragment) :
    tokens d bound (.text s :: f) = Token.ofPlain s.toList ++ tokens d bound f := rfl

/-- The tokens of two fragments stand behind each other, and the second one counts on. -/
theorem tokens_append (bound : Nat) (f g : Fragment) :
    tokens d bound (f ++ g) = tokens d bound f ++ tokens d (bound + f.values.length) g :=
  render_append bound f g

/-- What follows a text is separate from it. -/
theorem separate_of_text (hd : d.Bundled) {s : String} {f : Fragment}
    (hf : Legible targets (.text s :: f)) (bound : Nat) :
    Separate s.toList (sql d bound f).toList := by
  cases f with
  | nil => exact .inr rfl
  | cons q f =>
    have hmeets := (List.isChain_cons_cons.1 hf.spaced).1
    cases q with
    | text t =>
      -- Between two texts the first ends in a separator or the second begins with one.
      refine hmeets.imp_right ?_
      intro ht
      obtain ⟨c, cs, hcs, hc⟩ := exists_cons_of_opens ht
      rw [sql_text, hcs]
      simp [isBoundary, hc]
    | name t =>
      rw [sql_name hd]
      exact .inr rfl
    | hole v cast =>
      obtain ⟨sign, hsign, heq⟩ := Dialect.castPlaceholder_of_bundled hd (bound + 1) cast
      rw [sql_hole, heq]
      rcases hsign with rfl | rfl <;> exact .inr rfl

/-- The placeholder of a hole is one token, and its cast follows. -/
theorem taken_castPlaceholder (hd : d.Bundled) {v : SqlValue} {cast : Option String} {f : Fragment}
    (hf : Legible targets (.hole v cast :: f)) (ht : ∀ target ∈ targets, isPlain target = true)
    (bound : Nat) {ts : List Token} (hrest : Taken (sql d (bound + 1) f).toList ts []) :
    Taken (sql d bound (.hole v cast :: f)).toList
      (.placeholder (bound + 1) :: (ofPlain (d.castText cast) ++ ts)) [] := by
  obtain ⟨mark, hmark, heq⟩ := Dialect.castPlaceholder_of_bundled hd (bound + 1) cast
  have hseparator := head?_sql_of_hole (d := d) hf (bound + 1)
  have hcast : ∀ c ∈ d.castText cast, isPlainChar c = true := fun c hc => by
    rcases Dialect.mem_castText hc with rfl | ⟨target, htarget, hmem⟩
    · rfl
    · exact List.all_eq_true.1 (ht target (hf.plain _ List.mem_cons_self target htarget)) c hmem
  -- Behind the hole stands a separator or nothing, so its cast is a text of its own.
  have hseparate : Separate (d.castText cast) (sql d (bound + 1) f).toList := by
    refine .inr ?_
    cases h : (sql d (bound + 1) f).toList.head? with
    | none => rfl
    | some c =>
      rw [h] at hseparator
      simp [isBoundary, show isSeparator c = true from hseparator]
  have hdigit : (d.castText cast ++ (sql d (bound + 1) f).toList).head?.any Char.isDigit =
      false := by
    rw [head?_any_isDigit hseparate]
    cases cast with
    | none => rfl
    | some target =>
      rw [Dialect.castText]
      split <;> rfl
  have hfirst := first?_placeholder hmark (Text.decimal_ne_nil (bound + 1))
    (fun _ => Text.isDigit_of_mem_decimal) hdigit
  rw [Text.readDecimal_decimal] at hfirst
  rw [sql_hole, heq, List.cons_append, List.append_assoc]
  refine .token ?_ hfirst ?_ ((taken_ofPlain hcast (.inr hseparate)).append hrest)
  · rcases hmark with rfl | rfl <;> rfl
  · simp only [List.length_append]
    omega

/-- **The tokens of a legible fragment are those of its pieces.** -/
theorem tokens_sql (hd : d.Bundled) {f : Fragment} (hf : Legible targets f)
    (ht : ∀ target ∈ targets, isPlain target = true) (bound : Nat) :
    Token.read? (f.sql d bound) = some (f.tokens d bound) := by
  refine Taken.read?_eq ?_
  -- By induction on the pieces: each is read by itself, since legible pieces are separate.
  induction f generalizing bound with
  | nil => exact .done []
  | cons p f ih =>
    have hrest := ih hf.tail
    have hp := hf.plain p List.mem_cons_self
    cases p with
    | text s =>
      rw [sql_text, tokens, render]
      exact (taken_ofPlain (List.all_eq_true.1 hp) (.inr (separate_of_text hd hf bound))).append
        (hrest bound)
    | name s =>
      rw [sql_name hd, tokens, render]
      refine .token rfl ?_ ?_ (hrest bound)
      · rw [first?, quotedBody_double _ _ _ (head?_sql_of_name hf bound)]
        exact congrArg (fun n => some (Token.name n, _)) (String.ofList_toList)
      · simp only [List.length_append, List.length_cons]
        omega
    | hole v cast => exact taken_castPlaceholder hd hf ht bound (hrest (bound + 1))

end Fragment
end Querysmith
