/-
# Symbols of SQL text

Where a statement is quoted and where it is not, and nothing else: a name between double quotes
counts as one symbol, every other character as itself.  A name swallows what it holds, so a quote, a
parenthesis or a placeholder inside a name is none of the statement.  The symbols of a legible
fragment are those of its pieces (`Fragment.symbols_sql`), and the numbers of its placeholders count
its values (`Fragment.numbers_symbols`).
-/

import Querysmith.Proofs.Fragment.Render
import Querysmith.Proofs.Fragment.Text
import Querysmith.Sql.Token

namespace Querysmith
namespace Sql

/-- What is quoted is shorter than the text that it is read from. -/
theorem Token.length_of_quotedBody {q : Char} {cs body rest : List Char}
    (h : quotedBody q cs = some (body, rest)) : rest.length < cs.length := by
  fun_induction quotedBody q cs generalizing body with
  | case1 => cases h
  | case2 =>
    obtain ⟨-, rfl⟩ := Prod.mk.inj (Option.some.inj h)
    exact Nat.zero_lt_one
  | case3 => cases h
  | case4 c d cs hc ih =>
    obtain ⟨⟨inner, rest'⟩, hinner, heq⟩ := Option.map_eq_some_iff.1 h
    obtain ⟨-, rfl⟩ := Prod.mk.inj heq
    exact Nat.lt_succ_of_lt (ih hinner)
  | case5 c cs hc ih =>
    obtain ⟨⟨inner, rest'⟩, hinner, heq⟩ := Option.map_eq_some_iff.1 h
    obtain ⟨-, rfl⟩ := Prod.mk.inj heq
    exact Nat.lt_succ_of_lt (Nat.lt_succ_of_lt (ih hinner))
  | case6 c d cs hc hd =>
    obtain ⟨-, rfl⟩ := Prod.mk.inj (Option.some.inj h)
    exact Nat.lt_succ_self _

/-- A character of a text, or a whole name. -/
inductive Symbol where
  /-- A name between double quotes. -/
  | name (s : String)
  | char (c : Char)
  deriving DecidableEq, Repr

namespace Symbol

/-- Characters outside names. -/
def chars (cs : List Char) : List Symbol := cs.map char

/-- The symbols of a text, unless a name is left open. -/
def read? : List Char → Option (List Symbol)
  | [] => some []
  | c :: cs =>
    if c = '"' then
      match _h : Token.quotedBody '"' cs with
      | some (body, rest) => (read? rest).map (name (String.ofList body) :: ·)
      | none => none
    else (read? cs).map (char c :: ·)
termination_by cs => cs.length
decreasing_by
  · exact Nat.lt_succ_of_lt (Token.length_of_quotedBody _h)
  · exact Nat.lt_succ_self _

/-- Characters that are no quote stand for themselves. -/
theorem read?_append {cs : List Char} (h : '"' ∉ cs) (rest : List Char) :
    read? (cs ++ rest) = (read? rest).map (chars cs ++ ·) := by
  induction cs with
  | nil => simp [chars]
  | cons c cs ih =>
    rw [List.mem_cons, not_or] at h
    rw [List.cons_append, read?, if_neg (Ne.symm h.1), ih h.2, Option.map_map]
    rfl

/-- **A quoted name is one symbol,** when no quote follows it. -/
theorem read?_double (cs : List Char) {rest : List Char} (h : rest.head? ≠ some '"') :
    read? ('"' :: (Text.double '"' cs ++ '"' :: rest)) =
      (read? rest).map (name (String.ofList cs) :: ·) := by
  rw [read?, if_pos rfl]
  split
  · rename_i body rest' hbody
    rw [Token.quotedBody_double '"' cs rest h] at hbody
    obtain ⟨rfl, rfl⟩ := Prod.mk.inj (Option.some.inj hbody)
    rfl
  · rename_i hbody
    rw [Token.quotedBody_double '"' cs rest h] at hbody
    cases hbody

/-- The names among symbols. -/
def names (ss : List Symbol) : List String :=
  ss.filterMap fun
    | name s => some s
    | char _ => none

/-- The names of two texts stand behind each other. -/
@[simp] theorem names_append (ss ts : List Symbol) : names (ss ++ ts) = names ss ++ names ts :=
  List.filterMap_append

/-- The first name of a text is the first of its names. -/
@[simp] theorem names_name (s : String) (ss : List Symbol) : names (name s :: ss) = s :: names ss :=
  rfl

/-- Characters hold no name. -/
@[simp] theorem names_chars (cs : List Char) : names (chars cs) = [] := by
  simp [names, chars]

/-- The digits at the head of symbols. -/
def digits : List Symbol → List Char
  | char c :: rest => if c.isDigit then c :: digits rest else []
  | _ => []

/-- Digits in front of something else are its leading digits. -/
theorem digits_chars {cs : List Char} (h : ∀ c ∈ cs, c.isDigit = true) {ss : List Symbol}
    (hs : digits ss = []) : digits (chars cs ++ ss) = cs := by
  induction cs with
  | nil => exact hs
  | cons c cs ih =>
    rw [List.forall_mem_cons] at h
    rw [chars, List.map_cons, List.cons_append, digits, if_pos h.1]
    exact congrArg (c :: ·) (ih h.2)

/-- The character begins a placeholder. -/
def isMark (c : Char) : Bool := c = '$' || c = '?'

/-- The character is none that placeholders are written with. -/
def isBare (c : Char) : Bool := !isMark c && !c.isDigit && c != ':'

/-- A digit marks no placeholder. -/
theorem isMark_of_isDigit {c : Char} (h : c.isDigit = true) : isMark c = false := by
  by_contra hmark
  rw [Bool.not_eq_false, isMark, Bool.or_eq_true, decide_eq_true_eq, decide_eq_true_eq] at hmark
  rcases hmark with rfl | rfl <;> exact absurd h (by decide)

/-- The numbers of the placeholders outside names, in reading order; a sign without digits counts as
zero. -/
def numbers : List Symbol → List Nat
  | [] => []
  | char c :: rest =>
    if isMark c then Text.readDecimal (digits rest) :: numbers rest else numbers rest
  | name _ :: rest => numbers rest

/-- Characters that mark no placeholder bring no number. -/
theorem numbers_chars {cs : List Char} (h : ∀ c ∈ cs, isMark c = false) (ss : List Symbol) :
    numbers (chars cs ++ ss) = numbers ss := by
  induction cs with
  | nil => rfl
  | cons c cs ih =>
    rw [List.forall_mem_cons] at h
    rw [chars, List.map_cons, List.cons_append, numbers, h.1]
    exact ih h.2

/-- The symbols of every kind of piece. -/
def rendering (d : Dialect) : Rendering Symbol where
  text s := chars s.toList
  name s := [.name s]
  hole n cast := chars (d.castPlaceholder n cast).toList

/-- As symbols, a text is its characters. -/
@[simp] theorem rendering_text (d : Dialect) (s : String) :
    (rendering d).text s = chars s.toList := rfl

/-- As symbols, a name is one symbol. -/
@[simp] theorem rendering_name (d : Dialect) (s : String) : (rendering d).name s = [.name s] := rfl

/-- As symbols, a hole is the characters of its placeholder. -/
@[simp] theorem rendering_hole (d : Dialect) (n : Nat) (cast : Option String) :
    (rendering d).hole n cast = chars (d.castPlaceholder n cast).toList := rfl

end Symbol
end Sql

/-- The piece writes the character inside a name at most. -/
def Piece.Avoids (c : Char) : Piece → Prop
  | .text s => c ∉ s.toList
  | .name _ => True
  | .hole _ cast => ∀ target ∈ cast, c ∉ target.toList

namespace Fragment

open Sql

variable {d : Dialect} {targets : List String}

/-- The symbols of a fragment that stands behind `bound` bound values. -/
abbrev symbols (d : Dialect) (bound : Nat) (f : Fragment) : List Symbol :=
  render (Symbol.rendering d) bound f

/-- **The symbols of a legible fragment are those of its pieces.**  A name is never left open, and
nothing of what it holds is outside it. -/
theorem symbols_sql (hd : d.Bundled) {f : Fragment} (hf : Legible targets f)
    (ht : ∀ target ∈ targets, '"' ∉ target.toList) (bound : Nat) :
    Symbol.read? (f.sql d bound).toList = some (f.symbols d bound) := by
  induction f generalizing bound with
  | nil =>
    rw [sql_nil, String.toList_empty, Symbol.read?]
    rfl
  | cons p f ih =>
    have hrest := ih hf.tail
    have hp := hf.plain p List.mem_cons_self
    cases p with
    | text s =>
      have hquote : '"' ∉ s.toList := fun hmem => by
        exact absurd (List.all_eq_true.1 hp _ hmem) (by decide)
      rw [sql_text, Symbol.read?_append hquote, hrest]
      rfl
    | name s =>
      rw [sql_name hd, Symbol.read?_double _ (head?_sql_of_name hf bound), hrest,
        String.ofList_toList]
      rfl
    | hole v cast =>
      have hquote : '"' ∉ (d.castPlaceholder (bound + 1) cast).toList := by
        obtain ⟨sign, hsign, heq⟩ := Dialect.castPlaceholder_of_bundled hd (bound + 1) cast
        rw [heq, List.mem_cons, List.mem_append]
        rintro (rfl | hmem | hmem)
        · simp at hsign
        · exact absurd (Text.isDigit_of_mem_decimal hmem) (by decide)
        · rcases Dialect.mem_castText hmem with hcolon | ⟨target, htarget, hmem⟩
          · exact absurd hcolon (by decide)
          · exact ht target (hp target htarget) hmem
      rw [sql_hole, Symbol.read?_append hquote, hrest]
      rfl

/-- **The names in the text of a fragment are its names.** -/
theorem names_symbols (bound : Nat) (f : Fragment) :
    Symbol.names (f.symbols d bound) = f.names := by
  induction f generalizing bound with
  | nil => rfl
  | cons p f ih =>
    cases p <;> simp [render, ih]

/-- No digit follows a placeholder or its cast. -/
theorem digits_castText {v : SqlValue} {cast : Option String} {f : Fragment}
    (hf : Legible targets (.hole v cast :: f)) (bound : Nat) :
    Symbol.digits (Symbol.chars (d.castText cast) ++ f.symbols d bound) = [] := by
  have hrest : Symbol.digits (f.symbols d bound) = [] := by
    cases f with
    | nil => rfl
    | cons q f =>
      have hmeets := (List.isChain_cons_cons.1 hf.spaced).1
      cases q with
      | text s =>
        obtain ⟨c, cs, hcs, hc⟩ := exists_cons_of_opens hmeets
        have hdigit : c.isDigit = false := by
          rcases isSeparator_iff.1 hc with rfl | rfl | rfl | rfl <;> rfl
        simp [render, hcs, Symbol.chars, Symbol.digits, hdigit]
      | name s => exact absurd hmeets id
      | hole v cast => exact absurd hmeets id
  cases cast with
  | none => exact hrest
  | some target =>
    rw [Dialect.castText]
    split
    · rfl
    · exact hrest

/-- Plain text begins no placeholder. -/
theorem isMark_of_isPlain {s : String} (h : isPlain s = true) :
    ∀ c ∈ s.toList, Symbol.isMark c = false := fun c hc => by
  have := List.all_eq_true.1 h c hc
  simp_all [Symbol.isMark, isPlainChar]

/-- A cast begins no placeholder when its target does not. -/
theorem isMark_castText {cast : Option String}
    (h : ∀ target ∈ cast, ∀ c ∈ target.toList, Symbol.isMark c = false) :
    ∀ c ∈ d.castText cast, Symbol.isMark c = false := fun c hc => by
  rcases Dialect.mem_castText hc with rfl | ⟨target, htarget, hmem⟩
  · rfl
  · exact h target htarget c hmem

/-- **The placeholders of a legible fragment are numbered through,** each once and in reading order,
from the bound values before it to its own last one. -/
theorem numbers_symbols (hd : d.Bundled) {f : Fragment} (hf : Legible targets f)
    (ht : ∀ target ∈ targets, ∀ c ∈ target.toList, Symbol.isMark c = false) (bound : Nat) :
    Symbol.numbers (f.symbols d bound) = List.range' (bound + 1) f.values.length := by
  induction f generalizing bound with
  | nil => rfl
  | cons p f ih =>
    have hrest := ih hf.tail
    have hp := hf.plain p List.mem_cons_self
    cases p with
    | text s =>
      rw [values_text, ← hrest]
      exact Symbol.numbers_chars (isMark_of_isPlain hp) _
    | name s => exact hrest bound
    | hole v cast =>
      obtain ⟨sign, hsign, heq⟩ := Dialect.castPlaceholder_of_bundled hd (bound + 1) cast
      have hmark : Symbol.isMark sign = true := by
        rcases hsign with rfl | rfl <;> rfl
      have hcast : ∀ c ∈ d.castText cast, Symbol.isMark c = false :=
        isMark_castText fun target htarget => ht target (hp target htarget)
      -- Only the sign of the placeholder is a mark, so exactly one number is read off.
      have hdigit : ∀ c ∈ Text.decimal (bound + 1), Symbol.isMark c = false := fun c hc =>
        Symbol.isMark_of_isDigit (Text.isDigit_of_mem_decimal hc)
      have hsymbols : symbols d bound (.hole v cast :: f) =
          .char sign :: (Symbol.chars (Text.decimal (bound + 1)) ++
            (Symbol.chars (d.castText cast) ++ symbols d (bound + 1) f)) := by
        simp [render, heq, Symbol.chars]
      rw [hsymbols, Symbol.numbers, if_pos hmark,
        Symbol.digits_chars (fun _ => Text.isDigit_of_mem_decimal) (digits_castText hf _),
        Text.readDecimal_decimal, Symbol.numbers_chars hdigit, Symbol.numbers_chars hcast, hrest,
        values_hole, List.length_cons, List.range'_succ]

/-- What no piece of a fragment writes is none of its symbols. -/
theorem not_mem_symbols (hd : d.Bundled) {c : Char} (hc : Symbol.isBare c = true) {f : Fragment}
    (h : ∀ p ∈ f, p.Avoids c) (bound : Nat) : Symbol.char c ∉ symbols d bound f := by
  induction f generalizing bound with
  | nil => simp [render]
  | cons p f ih =>
    rw [List.forall_mem_cons] at h
    cases p with
    | text s =>
      have hs : c ∉ s.toList := h.1
      simpa [render, Symbol.chars, hs] using ih h.2 bound
    | name s => simpa [render] using ih h.2 bound
    | hole v cast =>
      have hcast : c ∉ (d.castPlaceholder (bound + 1) cast).toList := by
        obtain ⟨sign, hsign, heq⟩ := Dialect.castPlaceholder_of_bundled hd (bound + 1) cast
        rw [heq, List.mem_cons, List.mem_append]
        rintro (rfl | hmem | hmem)
        · rcases hsign with rfl | rfl <;> exact absurd hc (by decide)
        · simp [Symbol.isBare, Text.isDigit_of_mem_decimal hmem] at hc
        · rcases Dialect.mem_castText hmem with rfl | ⟨target, htarget, hmem⟩
          · exact absurd hc (by decide)
          · exact h.1 target htarget hmem
      simpa [render, Symbol.chars, hcast] using ih h.2 (bound + 1)

end Fragment
end Querysmith
