/-
# Casts on the placeholders of a statement

Casts are written into SQL text by a reader that looks at one character after the other and minds
quotes as a switch only.  A doubled quote turns the switch off and on again, so a quoted name is
copied whatever it holds (`insertFrom_name`), and digits are counted up to the first other character
(`insertFrom_placeholder`).  What the text should become is said of its symbols, in which a name is
one thing and a placeholder is all its digits (`Symbol.recast`), and on the statements of a compiler
both agree (`recast_of_statements`).
-/

import Querysmith.Engine.InferredCast
import Querysmith.Proofs.Compiler.Closed

namespace Querysmith
namespace Sql.Symbol

/-- The characters that write a symbol. -/
def spelled : Symbol → List Char
  | name s => '"' :: (Text.double '"' s.toList ++ ['"'])
  | char c => [c]

/-- The text that symbols write. -/
def text (ss : List Symbol) : List Char := ss.flatMap spelled

/-- The symbols of two texts write one behind the other. -/
theorem text_append (ss ts : List Symbol) : text (ss ++ ts) = text ss ++ text ts :=
  List.flatMap_append

/-- Characters as symbols write themselves. -/
theorem text_chars (cs : List Char) : text (chars cs) = cs := by
  induction cs with
  | nil => rfl
  | cons c cs ih => exact congrArg (c :: ·) ih

/-- What belongs between the placeholder of a number and the text behind it: the entry of the
number, counted from one, as a cast, unless there is a cast already. -/
def castBefore (casts : List (Option String)) (number : Nat) (behind : List Char) : List Char :=
  if "::".toList.isPrefixOf behind then []
  else match number with
    | 0 => []
    | n + 1 => match casts[n]? with
      | some (some target) => "::".toList ++ target.toList
      | _ => []

/-- The text of symbols with a cast behind each placeholder that has none and whose entry is set.
Everything else is copied, names as they are spelled. -/
def recast (casts : List (Option String)) : List Symbol → List Char
  | [] => []
  | name s :: rest => (name s).spelled ++ recast casts rest
  | char c :: rest =>
    if c = '$' ∧ digits rest ≠ [] then
      let behind := rest.drop (digits rest).length
      '$' :: (digits rest ++ (castBefore casts (Text.readDecimal (digits rest)) (text behind) ++
        recast casts behind))
    else c :: recast casts rest
termination_by ss => ss.length
decreasing_by
  all_goals simp only [List.length_cons, List.length_drop]
  all_goals omega

variable {casts : List (Option String)}

/-- Characters that begin no placeholder are copied. -/
theorem recast_chars {cs : List Char} (h : '$' ∉ cs) (ss : List Symbol) :
    recast casts (chars cs ++ ss) = cs ++ recast casts ss := by
  induction cs with
  | nil => rfl
  | cons c cs ih =>
    rw [List.mem_cons, not_or] at h
    have hsign : ¬(c = '$' ∧ digits (chars cs ++ ss) ≠ []) := fun hc => h.1 hc.1.symm
    rw [chars, List.map_cons, List.cons_append, ← chars, recast, if_neg hsign, ih h.2,
      List.cons_append]

/-- A placeholder is followed by its cast. -/
theorem recast_placeholder {cs : List Char} (hne : cs ≠ []) (h : ∀ c ∈ cs, c.isDigit = true)
    {ss : List Symbol} (hs : digits ss = []) :
    recast casts (char '$' :: (chars cs ++ ss)) =
      '$' :: (cs ++ (castBefore casts (Text.readDecimal cs) (text ss) ++ recast casts ss)) := by
  have hdigits : digits (chars cs ++ ss) = cs := digits_chars h hs
  have hdrop : (chars cs ++ ss).drop cs.length = ss := List.drop_left' (by simp [chars])
  rw [recast, hdigits, if_pos ⟨rfl, hne⟩]
  simp only [hdrop]

end Sql.Symbol

namespace InferredCast

variable {casts : List (Option String)}

/-- Characters that are no quote and no sign are copied. -/
theorem insertFrom_plain {cs : List Char} (h : ∀ c ∈ cs, c ≠ '"' ∧ c ≠ '\'' ∧ c ≠ '$')
    (rest : List Char) :
    insertFrom casts .outside (cs ++ rest) = cs ++ insertFrom casts .outside rest := by
  induction cs with
  | nil => rfl
  | cons c cs ih =>
    rw [List.forall_mem_cons] at h
    obtain ⟨⟨hdouble, hsingle, hsign⟩, hcs⟩ := h
    have hafter : Place.after c = .outside := by simp [Place.after, hdouble, hsingle, hsign]
    rw [List.cons_append, insertFrom, hafter, ih hcs, List.cons_append]

/-- **Doubled quotes are passed over:** the first one ends the quoted text and the second one begins
it again. -/
theorem insertFrom_double {q : Char} (hq : Place.after q = .inside q) (cs rest : List Char) :
    insertFrom casts (.inside q) (Text.double q cs ++ q :: rest) =
      Text.double q cs ++ q :: insertFrom casts .outside rest := by
  induction cs with
  | nil => simp [Text.double, insertFrom]
  | cons c cs ih =>
    rw [Text.double, List.flatMap_cons, ← Text.double]
    by_cases hc : c = q
    · subst hc
      simp [insertFrom, hq, ih]
    · simp [insertFrom, hc, ih]

/-- A quoted name is copied. -/
theorem insertFrom_name (s rest : List Char) :
    insertFrom casts .outside ('"' :: (Text.double '"' s ++ '"' :: rest)) =
      '"' :: (Text.double '"' s ++ '"' :: insertFrom casts .outside rest) := by
  rw [insertFrom]
  exact congrArg ('"' :: ·) (insertFrom_double rfl s rest)

/-- Digits are copied and counted. -/
theorem insertFrom_digits {cs : List Char} (h : ∀ c ∈ cs, c.isDigit = true) (number : Nat)
    (rest : List Char) :
    insertFrom casts (.digits number) (cs ++ rest) =
      cs ++ insertFrom casts
        (.digits (cs.foldl (fun n c => 10 * n + Text.digitValue c) number)) rest := by
  induction cs generalizing number with
  | nil => rfl
  | cons c cs ih =>
    rw [List.forall_mem_cons] at h
    rw [List.cons_append, insertFrom, if_pos h.1, ih h.2, List.cons_append, List.foldl_cons]

/-- A placeholder is copied, and its number is known behind it. -/
theorem insertFrom_placeholder {cs : List Char} (hne : cs ≠ []) (h : ∀ c ∈ cs, c.isDigit = true)
    (rest : List Char) :
    insertFrom casts .outside ('$' :: (cs ++ rest)) =
      '$' :: (cs ++ insertFrom casts (.digits (Text.readDecimal cs)) rest) := by
  cases cs with
  | nil => exact absurd rfl hne
  | cons c cs =>
    rw [List.forall_mem_cons] at h
    have hafter : Place.after '$' = .sign := rfl
    have hvalue : Text.readDecimal (c :: cs) =
        cs.foldl (fun n c => 10 * n + Text.digitValue c) (Text.digitValue c) := by
      simp [Text.readDecimal]
    rw [insertFrom, hafter, List.cons_append, insertFrom, if_pos h.1, insertFrom_digits h.2, hvalue,
      List.cons_append]

/-- Behind a placeholder its cast is written, unless there is one, and copying goes on. -/
theorem insertFrom_behind {rest : List Char} (h : rest.head?.any Char.isDigit = false)
    (number : Nat) :
    insertFrom casts (.digits number) rest =
      Sql.Symbol.castBefore casts number rest ++ insertFrom casts .outside rest := by
  have hcast : Sql.Symbol.castBefore casts number rest =
      if [':', ':'].isPrefixOf rest then [] else castText casts number := by
    have hcolons : "::".toList = [':', ':'] := rfl
    rw [Sql.Symbol.castBefore.eq_def, castText, hcolons]
    cases number with
    | zero => rfl
    | succ n => cases h : casts[n]? with
      | none => simp [h]
      | some entry => cases entry <;> simp [h]
  rw [hcast]
  cases rest with
  | nil => simp [insertFrom]
  | cons c cs =>
    have hc : c.isDigit = false := by simpa using h
    simp only [insertFrom, hc, Bool.false_eq_true, if_false]

end InferredCast

namespace Fragment

open Sql InferredCast

variable {d : Dialect} {targets : List String}

/-- The symbols of a fragment write its text. -/
theorem text_symbols (hd : d.Bundled) (bound : Nat) (f : Fragment) :
    Symbol.text (f.symbols d bound) = (f.sql d bound).toList := by
  induction f generalizing bound with
  | nil => rfl
  | cons p f ih =>
    cases p with
    | text s =>
      rw [symbols, render, sql_text, Symbol.text_append, Symbol.rendering_text, Symbol.text_chars,
        ih]
    | name s =>
      rw [symbols, render, sql_name hd, Symbol.text_append, Symbol.rendering_name, ih]
      simp [Symbol.text, Symbol.spelled]
    | hole v cast =>
      rw [symbols, render, sql_hole, Symbol.text_append, Symbol.rendering_hole, Symbol.text_chars,
        ih]

/-- No digit follows the digits of a placeholder, whether it has a cast or not. -/
theorem head?_castText {v : SqlValue} {cast : Option String} {f : Fragment}
    (hf : Legible targets (.hole v cast :: f)) (bound : Nat) :
    (d.castText cast ++ (sql d bound f).toList).head?.any Char.isDigit = false := by
  have hrest : (sql d bound f).toList.head?.any Char.isDigit = false := by
    have hopens := head?_sql_of_hole (d := d) hf bound
    cases hhead : (sql d bound f).toList.head? with
    | none => rfl
    | some c =>
      rw [hhead] at hopens
      rcases isSeparator_iff.1 hopens with rfl | rfl | rfl | rfl <;> rfl
  cases cast with
  | none => exact hrest
  | some target =>
    rw [Dialect.castText]
    split
    · rfl
    · exact hrest

/-- **Casts land on the placeholders of a legible fragment** and nowhere else. -/
theorem insertFrom_sql (casts : List (Option String)) {f : Fragment} (hf : Legible targets f)
    (ht : ∀ target ∈ targets, ∀ c ∈ target.toList, c ≠ '"' ∧ c ≠ '\'' ∧ c ≠ '$') (bound : Nat) :
    insertFrom casts .outside (f.sql .postgres bound).toList =
      Symbol.recast casts (f.symbols .postgres bound) := by
  induction f generalizing bound with
  | nil => simp [sql_nil, insertFrom, symbols, render, Symbol.recast]
  | cons p f ih =>
    have hrest := ih hf.tail
    have hp := hf.plain p List.mem_cons_self
    cases p with
    | text s =>
      have hplain : ∀ c ∈ s.toList, c ≠ '"' ∧ c ≠ '\'' ∧ c ≠ '$' := fun c hc => by
        have := List.all_eq_true.1 hp c hc
        simp_all [isPlainChar]
      have hsign : '$' ∉ s.toList := fun hmem => (hplain _ hmem).2.2 rfl
      rw [sql_text, insertFrom_plain hplain, hrest]
      exact (Symbol.recast_chars hsign _).symm
    | name s =>
      have hsymbols : symbols .postgres bound (.name s :: f) =
          .name s :: symbols .postgres bound f := rfl
      rw [sql_name .postgres, insertFrom_name, hrest, hsymbols, Symbol.recast, Symbol.spelled]
      simp
    | hole v cast =>
      -- Behind the digits stands the cast of the hole, which keeps another one away, or else a
      -- piece that begins with no digit.
      have hcast : ∀ c ∈ Dialect.postgres.castText cast, c ≠ '"' ∧ c ≠ '\'' ∧ c ≠ '$' :=
        fun c hc => by
          rcases Dialect.mem_castText hc with rfl | ⟨target, htarget, hmem⟩
          · decide
          · exact ht target (hp target htarget) c hmem
      have hsign : '$' ∉ Dialect.postgres.castText cast := fun hmem => (hcast _ hmem).2.2 rfl
      have hdigits : ∀ c ∈ Text.decimal (bound + 1), c.isDigit = true := fun _ =>
        Text.isDigit_of_mem_decimal
      have hhead := head?_castText (d := .postgres) hf (bound + 1)
      have hsql : (Dialect.postgres.castPlaceholder (bound + 1) cast).toList =
          '$' :: (Text.decimal (bound + 1) ++ Dialect.postgres.castText cast) :=
        Dialect.castPlaceholder_of_numbered "$" rfl (bound + 1) cast
      have hsymbols : symbols .postgres bound (.hole v cast :: f) =
          .char '$' :: (Symbol.chars (Text.decimal (bound + 1)) ++
            (Symbol.chars (Dialect.postgres.castText cast) ++
              symbols .postgres (bound + 1) f)) := by
        simp [render, hsql, Symbol.chars]
      rw [sql_hole, hsql, List.cons_append, List.append_assoc,
        insertFrom_placeholder (Text.decimal_ne_nil _) hdigits, insertFrom_behind hhead,
        insertFrom_plain hcast, hrest, hsymbols,
        Symbol.recast_placeholder (Text.decimal_ne_nil _) hdigits (digits_castText hf _),
        Symbol.recast_chars hsign, Symbol.text_append, Symbol.text_chars, text_symbols .postgres]

end Fragment

namespace Compiler

/-- **Casts land on the placeholders of every statement** that is compiled for PostgreSQL, whatever
its names hold, when no target of a cast of the compiler holds a quote or a sign.  The statement
reads as symbols that write it, none of which is a single quote outside a name, and what casts make
of it is those symbols with the casts behind their placeholders. -/
theorem recast_of_statements {c : Compiler} (hd : c.dialect = .postgres)
    (hcasts : ∀ rule ∈ c.casts.rules, ∀ ch ∈ rule.target.toList, ch ≠ '"' ∧ ch ≠ '\'' ∧ ch ≠ '$')
    {call : Call} {ss : List Statement} (h : c.statements call = .ok ss)
    (casts : List (Option String)) :
    ∀ s ∈ ss, ∃ symbols, Sql.Symbol.read? s.sql.toList = some symbols ∧
      Sql.Symbol.text symbols = s.sql.toList ∧ .char '\'' ∉ symbols ∧
      (InferredCast.insert s.sql casts).toList = Sql.Symbol.recast casts symbols := by
  have htargets : ∀ target ∈ c.castTargets, ∀ ch ∈ target.toList,
      ch ≠ '"' ∧ ch ≠ '\'' ∧ ch ≠ '$' := by
    rw [castTargets, List.forall_mem_cons, List.forall_mem_map]
    exact ⟨forall_mem_of_all (by decide), hcasts⟩
  have hquote : ∀ target ∈ c.castTargets, '"' ∉ target.toList := fun target ht hmem =>
    (htargets target ht _ hmem).1 rfl
  intro s hs
  obtain ⟨f, returnsRows, rfl, hlegible, -⟩ := isWritten_of_statements h s hs
  rw [Statement.ofFragment, hd]
  -- A single quote could stand in a name only: the texts are plain, and the targets have none.
  have havoids : ∀ p ∈ f, p.Avoids '\'' := by
    intro p hp
    have hplain := hlegible.plain p hp
    cases p with
    | text t => exact fun hmem => absurd (List.all_eq_true.1 hplain _ hmem) (by decide)
    | name t => trivial
    | hole v cast => exact fun target ht hmem => (htargets target (hplain target ht) _ hmem).2.1 rfl
  refine ⟨f.symbols .postgres 0, Fragment.symbols_sql .postgres hlegible hquote 0,
    Fragment.text_symbols .postgres 0 f, Fragment.not_mem_symbols .postgres rfl havoids 0, ?_⟩
  rw [InferredCast.insert, String.toList_ofList]
  exact Fragment.insertFrom_sql casts hlegible htargets 0

/-- A name that looks like the end of a name, a text and a placeholder with a cast. -/
theorem recast_select_quoted :
    ∃ s symbols, (ofDialect .postgres).statements (.select "t"
      (.and [.equal "x\" '= $1::y" (.int 1), .inList "z" [.int 2, .null]]) .unordered none
        none) = .ok [s] ∧
      s.sql = "SELECT * FROM \"t\" WHERE ((\"x\"\" '= $1::y\" = $1 AND \"z\" in ($2, $3)))" ∧
      InferredCast.insert s.sql [some "DATE", none, some "\"$2\""] =
      "SELECT * FROM \"t\" WHERE ((\"x\"\" '= $1::y\" = $1::DATE AND \"z\" in ($2, $3::\"$2\")))" ∧
      Sql.Symbol.read? s.sql.toList = some symbols ∧
      (InferredCast.insert s.sql [some "DATE", none, some "\"$2\""]).toList =
        Sql.Symbol.recast [some "DATE", none, some "\"$2\""] symbols := by
  have hrules : ∀ rule ∈ (ofDialect .postgres).casts.rules, rule.target.toList.all
      (fun ch => decide (ch ≠ '"' ∧ ch ≠ '\'' ∧ ch ≠ '$')) = true := forall_mem_of_all (by decide)
  have ht : TableName.resolve "t" (ofDialect .postgres).options.schema = .ok ⟨none, "t"⟩ := by
    rfl
  have hs := (select_yields ht (.and [.equal "x\" '= $1::y" (.int 1), .inList "z" [.int 2, .null]])
    .unordered none none _).2 ⟨by decide, rfl⟩
  have h : (ofDialect .postgres).statements (.select _ _ _ _ _) = _ :=
    congrArg (Except.map fun s => [s]) hs
  obtain ⟨symbols, hread, -, -, hrecast⟩ := recast_of_statements rfl
    (fun rule hrule => forall_mem_of_all (hrules rule hrule)) h
    [some "DATE", none, some "\"$2\""] _ List.mem_cons_self
  exact ⟨_, symbols, h, by decide +kernel, by decide +kernel, hread, hrecast⟩

end Compiler
end Querysmith
