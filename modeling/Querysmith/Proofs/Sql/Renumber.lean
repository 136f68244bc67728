/-
# Placeholders with higher numbers

A clause that stands behind other bound values is the same text with other numbers.  How it differs
is said of the text alone, without the fragment that wrote it: a sign that begins a placeholder and
the digits behind it are read as a number, a higher number is written for it, and everything else is
copied, names with what they hold (`Symbol.raise`).  A fragment that is written further behind reads
as its text with all numbers raised (`Fragment.raised?_sql`).  The induction is over the pieces:
each of them is copied or is one placeholder, and what follows a placeholder never goes on with a
digit, so its digits are those of its number.
-/

import Querysmith.Proofs.Sql.Symbol

namespace Querysmith
namespace Sql.Symbol

/-- The text of symbols with every placeholder number raised by `k`.  Everything else is copied,
names between their quotes. -/
def raise (k : Nat) : List Symbol → List Char
  | [] => []
  | name s :: rest => '"' :: (Text.double '"' s.toList ++ '"' :: raise k rest)
  | char c :: rest =>
    if isMark c ∧ digits rest ≠ [] then
      c :: (Text.decimal (Text.readDecimal (digits rest) + k) ++
        raise k (rest.drop (digits rest).length))
    else c :: raise k rest
termination_by ss => ss.length
decreasing_by
  all_goals simp only [List.length_cons, List.length_drop]
  all_goals omega

/-- A text with every placeholder number outside names raised by `k`, unless a name is left open. -/
def raised? (k : Nat) (sql : String) : Option String :=
  (read? sql.toList).map fun ss => String.ofList (raise k ss)

variable {k : Nat}

/-- Characters that begin no placeholder are copied. -/
theorem raise_chars {cs : List Char} (h : ∀ c ∈ cs, isMark c = false) (ss : List Symbol) :
    raise k (chars cs ++ ss) = cs ++ raise k ss := by
  induction cs with
  | nil => rfl
  | cons c cs ih =>
    rw [List.forall_mem_cons] at h
    rw [chars, List.map_cons, List.cons_append, ← chars, raise, if_neg (by simp [h.1]), ih h.2,
      List.cons_append]

/-- **A placeholder gets a higher number.** -/
theorem raise_placeholder {mark : Char} (hmark : isMark mark = true) (n : Nat) {ss : List Symbol}
    (hs : digits ss = []) :
    raise k (char mark :: (chars (Text.decimal n) ++ ss)) =
      mark :: (Text.decimal (n + k) ++ raise k ss) := by
  have hdigits : digits (chars (Text.decimal n) ++ ss) = Text.decimal n :=
    digits_chars (fun _ => Text.isDigit_of_mem_decimal) hs
  have hdrop : (chars (Text.decimal n) ++ ss).drop (Text.decimal n).length = ss :=
    List.drop_left' (by simp [chars])
  rw [raise, hdigits, if_pos ⟨hmark, Text.decimal_ne_nil n⟩, Text.readDecimal_decimal]
  simp only [hdrop]

end Sql.Symbol

/-- All placeholders of a dialect begin with one sign. -/
theorem Dialect.exists_mark {d : Dialect} (hd : d.Bundled) :
    ∃ mark, Sql.Symbol.isMark mark = true ∧ ∀ n cast,
      (d.castPlaceholder n cast).toList = mark :: (Text.decimal n ++ d.castText cast) := by
  cases hd with
  | postgres => exact ⟨'$', rfl, castPlaceholder_of_numbered "$" rfl⟩
  | sqlite => exact ⟨'?', rfl, castPlaceholder_of_numbered "?" rfl⟩

namespace Fragment

open Sql

variable {d : Dialect} {targets : List String}

/-- The symbols of a legible fragment with raised numbers write it further behind. -/
theorem raise_symbols (hd : d.Bundled) {f : Fragment} (hf : Legible targets f)
    (ht : ∀ target ∈ targets, ∀ c ∈ target.toList, Symbol.isMark c = false) (bound k : Nat) :
    Symbol.raise k (f.symbols d bound) = (f.sql d (bound + k)).toList := by
  induction f generalizing bound with
  | nil =>
    rw [symbols, render, Symbol.raise]
    rfl
  | cons p f ih =>
    have hp := hf.plain p List.mem_cons_self
    cases p with
    | text s =>
      rw [sql_text, ← ih hf.tail bound]
      exact Symbol.raise_chars (isMark_of_isPlain hp) _
    | name s =>
      rw [sql_name hd, ← ih hf.tail bound, symbols, render, Symbol.rendering_name,
        List.singleton_append, Symbol.raise]
    | hole v cast =>
      obtain ⟨mark, hmark, hsql⟩ := Dialect.exists_mark hd
      -- The number is read off and written anew, and its cast holds no number.
      have hcast : ∀ c ∈ d.castText cast, Symbol.isMark c = false :=
        isMark_castText fun target htarget => ht target (hp target htarget)
      have hsymbols : symbols d bound (.hole v cast :: f) =
          .char mark :: (Symbol.chars (Text.decimal (bound + 1)) ++
            (Symbol.chars (d.castText cast) ++ symbols d (bound + 1) f)) := by
        simp [render, hsql, Symbol.chars]
      rw [hsymbols, Symbol.raise_placeholder hmark _ (digits_castText hf _),
        Symbol.raise_chars hcast, ih hf.tail, sql_hole, hsql, Nat.add_right_comm]
      simp only [List.cons_append, List.append_assoc]

/-- **A legible fragment behind `k` more values is its own text with the numbers raised by `k`.** -/
theorem raised?_sql (hd : d.Bundled) {f : Fragment} (hf : Legible targets f)
    (ht : ∀ target ∈ targets, ∀ c ∈ target.toList, c ≠ '"' ∧ Symbol.isMark c = false)
    (bound k : Nat) : Symbol.raised? k (f.sql d bound) = some (f.sql d (bound + k)) := by
  have hquote : ∀ target ∈ targets, '"' ∉ target.toList := fun target htarget hmem =>
    (ht target htarget _ hmem).1 rfl
  have hmark : ∀ target ∈ targets, ∀ c ∈ target.toList, Symbol.isMark c = false :=
    fun target htarget c hc => (ht target htarget c hc).2
  rw [Symbol.raised?, symbols_sql hd hf hquote, Option.map_some, raise_symbols hd hf hmark,
    String.ofList_toList]

/-- The same for a fragment without casts, in a statement of its own and behind `k` values. -/
theorem raised?_sql_zero (hd : d.Bundled) {f : Fragment} (hf : Legible [] f) (k : Nat) :
    Symbol.raised? k (f.sql d 0) = some (f.sql d k) := by
  have hraised := raised?_sql hd hf (fun target htarget => absurd htarget List.not_mem_nil) 0 k
  rwa [Nat.zero_add] at hraised

end Fragment
end Querysmith
