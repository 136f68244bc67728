/-
# Lexemes of PostgreSQL text

How a PostgreSQL server takes SQL text apart.  A text stands between single quotes and a name
between double ones, and a quote inside is written twice; between two equal delimiters `$tag$`
everything stands as it is; a comment goes from two hyphens to the end of its line.  A word may hold
a `$`, so `a$1` is one word, and a `$` in front of digits is a placeholder elsewhere.  What a text
is taken apart into writes the text (`text_read?`).
-/

import Querysmith.Proofs.Lists
import Querysmith.Proofs.Sql.Symbol

namespace Querysmith

namespace Text

/-- A text that was split is what stands before the mark, the mark, and what stands after it. -/
theorem append_of_splitFirst {mark cs before after : List Char}
    (h : splitFirst mark cs = some (before, after)) : cs = before ++ (mark ++ after) := by
  induction cs generalizing before with
  | nil =>
    rw [splitFirst] at h
    split at h
    · obtain ⟨rfl, rfl⟩ := Prod.mk.inj (Option.some.inj h)
      simp_all
    · cases h
  | cons c cs ih =>
    rw [splitFirst] at h
    split at h
    · rename_i hmark
      obtain ⟨rfl, rfl⟩ := Prod.mk.inj (Option.some.inj h)
      rw [List.nil_append]
      exact (List.prefix_iff_eq_append.1 (List.isPrefixOf_iff_prefix.1 hmark)).symm
    · obtain ⟨⟨before', after'⟩, hsplit, heq⟩ := Option.map_eq_some_iff.1 h
      obtain ⟨rfl, rfl⟩ := Prod.mk.inj heq
      rw [ih hsplit, List.cons_append]

end Text

namespace Sql

/-- A piece of SQL text. -/
inductive Lexeme where
  /-- A text between single quotes. -/
  | literal (body : List Char)
  /-- A name between double quotes. -/
  | name (body : List Char)
  /-- A text between two delimiters with a tag. -/
  | dollarQuoted (tag body : List Char)
  /-- What follows two hyphens in their line. -/
  | comment (body : List Char)
  /-- A keyword or a name without quotes. -/
  | word (cs : List Char)
  | placeholder (digits : List Char)
  | other (c : Char)
  deriving DecidableEq, Repr

namespace Lexeme

/-- The character goes on with a line. -/
def isInLine (c : Char) : Bool := c ≠ '\n' ∧ c ≠ '\r'

/-- The character goes on with a word. -/
def isWordPart (c : Char) : Bool := Token.isWordPart c || c = '$'

/-- What opens and closes a text with a tag. -/
def delimiter (tag : List Char) : List Char := '$' :: (tag ++ ['$'])

/-- The characters that write a lexeme. -/
def spelled : Lexeme → List Char
  | literal body => '\'' :: (Text.double '\'' body ++ ['\''])
  | name body => '"' :: (Text.double '"' body ++ ['"'])
  | dollarQuoted tag body => delimiter tag ++ (body ++ delimiter tag)
  | comment body => '-' :: '-' :: body
  | word cs => cs
  | placeholder digits => '$' :: digits
  | other c => [c]

/-- The text that lexemes write. -/
def text (ls : List Lexeme) : List Char := ls.flatMap spelled

/-- No lexemes have no text. -/
@[simp] theorem text_nil : text [] = [] := rfl

/-- The text of lexemes begins with that of the first one. -/
@[simp] theorem text_cons (l : Lexeme) (ls : List Lexeme) : text (l :: ls) = l.spelled ++ text ls :=
  rfl

/-- The text of two lists of lexemes is one behind the other. -/
@[simp] theorem text_append (ls ms : List Lexeme) : text (ls ++ ms) = text ls ++ text ms :=
  List.flatMap_append

/-- What a `$` begins, in front of a text. -/
def dollar (cs : List Char) : Option (Lexeme × List Char) :=
  if cs.head?.any Char.isDigit then
    some (placeholder (cs.takeWhile Char.isDigit), cs.dropWhile Char.isDigit)
  else
    let tag := cs.takeWhile Token.isWordPart
    match cs.dropWhile Token.isWordPart with
    | '$' :: rest =>
      (Text.splitFirst (delimiter tag) rest).map fun (body, rest) => (dollarQuoted tag body, rest)
    | _ => some (other '$', cs)

/-- The lexeme at the head of a text and the rest of the text, unless a quote is left open. -/
def first? : List Char → Option (Lexeme × List Char)
  | [] => none
  | c :: cs =>
    if c = '\'' then
      (Token.quotedBody '\'' cs).map fun (body, rest) => (literal body, rest)
    else if c = '"' then
      (Token.quotedBody '"' cs).map fun (body, rest) => (name body, rest)
    else if c = '-' ∧ cs.head? = some '-' then
      some (comment (cs.tail.takeWhile isInLine), cs.tail.dropWhile isInLine)
    else if c = '$' then dollar cs
    else if Token.isWordStart c then
      some (word (c :: cs.takeWhile isWordPart), cs.dropWhile isWordPart)
    else some (other c, cs)

/-- The lexemes of a text; every one takes a character at least. -/
def readFrom : Nat → List Char → Option (List Lexeme)
  | _, [] => some []
  | 0, _ :: _ => none
  | fuel + 1, c :: cs =>
    (first? (c :: cs)).bind fun (l, rest) => (readFrom fuel rest).map (l :: ·)

/-- The lexemes of a text, unless a quote is left open. -/
def read? (sql : String) : Option (List Lexeme) := readFrom sql.toList.length sql.toList

/-- Where a lexeme ends: a placeholder takes all its digits, and what stands for itself begins
nothing longer. -/
def EndsAt : Lexeme → List Char → Prop
  | placeholder digits, rest =>
    digits ≠ [] ∧ (∀ c ∈ digits, c.isDigit = true) ∧ rest.head?.any Char.isDigit = false
  | other c, rest => ¬(c = '\'' ∨ c = '"') ∧ ¬(c = '$' ∧ rest.head?.any Char.isDigit)
  | _, _ => True

/-- Every lexeme of a list has a character and ends in front of the text of the others. -/
def Ended : List Lexeme → Prop
  | [] => True
  | l :: ls => l.spelled ≠ [] ∧ l.EndsAt (text ls) ∧ Ended ls

end Lexeme

/-- What is quoted and what follows it write the text that they are read from. -/
theorem Token.eq_of_quotedBody {q : Char} {cs body rest : List Char}
    (h : quotedBody q cs = some (body, rest)) : cs = Text.double q body ++ q :: rest := by
  fun_induction quotedBody q cs generalizing body with
  | case1 => cases h
  | case2 =>
    obtain ⟨rfl, rfl⟩ := Prod.mk.inj (Option.some.inj h)
    rfl
  | case3 => cases h
  | case4 c d cs hc ih =>
    -- A doubled quote is one quote of the body.
    obtain ⟨⟨inner, rest'⟩, hinner, heq⟩ := Option.map_eq_some_iff.1 h
    obtain ⟨rfl, rfl⟩ := Prod.mk.inj heq
    rw [ih hinner]
    simp [Text.double, hc]
  | case5 c cs hc ih =>
    obtain ⟨⟨inner, rest'⟩, hinner, heq⟩ := Option.map_eq_some_iff.1 h
    obtain ⟨rfl, rfl⟩ := Prod.mk.inj heq
    rw [ih hinner]
    simp_all [Text.double]
  | case6 c d cs hc hd =>
    obtain ⟨rfl, rfl⟩ := Prod.mk.inj (Option.some.inj h)
    simp_all [Text.double]

namespace Lexeme

/-- What a `$` begins is written by it and what follows. -/
theorem dollar_spec {cs rest : List Char} {l : Lexeme} (h : dollar cs = some (l, rest)) :
    '$' :: cs = l.spelled ++ rest ∧ l.spelled ≠ [] ∧ l.EndsAt rest := by
  rw [dollar] at h
  split at h
  · -- Digits make a placeholder.
    rename_i hdigit
    obtain ⟨rfl, rfl⟩ := Prod.mk.inj (Option.some.inj h)
    exact ⟨by simp [spelled, List.takeWhile_append_dropWhile], by simp [spelled],
      run_of_head? hdigit⟩
  · rename_i hdigit
    simp only at h
    split at h
    · -- A tag and a second sign open a quoted text, which its delimiter closes.
      rename_i behind hbehind
      obtain ⟨⟨body, after⟩, hsplit, heq⟩ := Option.map_eq_some_iff.1 h
      obtain ⟨rfl, rfl⟩ := Prod.mk.inj heq
      refine ⟨?_, by simp [spelled, delimiter], trivial⟩
      conv_lhs => rw [← List.takeWhile_append_dropWhile (p := Token.isWordPart) (l := cs), hbehind,
        Text.append_of_splitFirst hsplit]
      simp [spelled, delimiter]
    · obtain ⟨rfl, rfl⟩ := Prod.mk.inj (Option.some.inj h)
      exact ⟨rfl, by simp [spelled], by decide, fun hboth => hdigit hboth.2⟩

/-- **A lexeme and what follows it write the text that they are read from.** -/
theorem first?_spec {cs rest : List Char} {l : Lexeme} (h : first? cs = some (l, rest)) :
    cs = l.spelled ++ rest ∧ l.spelled ≠ [] ∧ l.EndsAt rest := by
  cases cs with
  | nil => cases h
  | cons c cs =>
    rw [first?] at h
    split_ifs at h with hsingle hdouble hcomment hdollar hword
    · obtain ⟨⟨body, after⟩, hbody, heq⟩ := Option.map_eq_some_iff.1 h
      obtain ⟨rfl, rfl⟩ := Prod.mk.inj heq
      refine ⟨?_, by simp [spelled], trivial⟩
      simp [spelled, hsingle, Token.eq_of_quotedBody hbody]
    · obtain ⟨⟨body, after⟩, hbody, heq⟩ := Option.map_eq_some_iff.1 h
      obtain ⟨rfl, rfl⟩ := Prod.mk.inj heq
      refine ⟨?_, by simp [spelled], trivial⟩
      simp [spelled, hdouble, Token.eq_of_quotedBody hbody]
    · obtain ⟨rfl, rfl⟩ := Prod.mk.inj (Option.some.inj h)
      obtain ⟨rfl, hnext⟩ := hcomment
      refine ⟨?_, by simp [spelled], trivial⟩
      cases cs with
      | nil => cases hnext
      | cons d cs =>
        obtain rfl := Option.some.inj hnext
        simp [spelled, List.takeWhile_append_dropWhile]
    · subst hdollar
      exact dollar_spec h
    · obtain ⟨rfl, rfl⟩ := Prod.mk.inj (Option.some.inj h)
      exact ⟨by simp [spelled, List.takeWhile_append_dropWhile], by simp [spelled], trivial⟩
    · obtain ⟨rfl, rfl⟩ := Prod.mk.inj (Option.some.inj h)
      exact ⟨rfl, by simp [spelled], not_or.2 ⟨hsingle, hdouble⟩, fun hboth => hdollar hboth.1⟩

/-- Each lexeme of a list ends where the next one begins. -/
theorem Ended.endsAt {start rest : List Lexeme} {l : Lexeme} (h : Ended (start ++ l :: rest)) :
    l.EndsAt (text rest) := by
  induction start with
  | nil => exact h.2.1
  | cons m start ih => exact ih h.2.2

/-- **What is read as lexemes is the text of the lexemes,** and each one ends in front of the
next. -/
theorem readFrom_spec {fuel : Nat} {cs : List Char} {ls : List Lexeme}
    (h : readFrom fuel cs = some ls) : text ls = cs ∧ Ended ls := by
  induction fuel generalizing cs ls with
  | zero =>
    cases cs with
    | nil =>
      obtain rfl := Option.some.inj h
      exact ⟨rfl, trivial⟩
    | cons c cs => cases h
  | succ fuel ih =>
    cases cs with
    | nil =>
      obtain rfl := Option.some.inj h
      exact ⟨rfl, trivial⟩
    | cons c cs =>
      obtain ⟨⟨l, rest⟩, hfirst, hrest⟩ := Option.bind_eq_some_iff.1 h
      obtain ⟨ls, hls, rfl⟩ := Option.map_eq_some_iff.1 hrest
      obtain ⟨rfl, hended⟩ := ih hls
      obtain ⟨htext, hne, hends⟩ := first?_spec hfirst
      exact ⟨htext.symm, hne, hends, hended⟩

/-- **What a text is taken apart into writes it.** -/
theorem text_read? {sql : String} {ls : List Lexeme} (h : read? sql = some ls) :
    text ls = sql.toList ∧ Ended ls :=
  readFrom_spec h

end Lexeme
end Sql
end Querysmith
