/-
# Reading an insert

What an `INSERT` with a `VALUES` list writes, read back from its text and the values that are bound
to it: `INSERT INTO t (a, b) VALUES ($1, NULL), ($2::jsonb, $3) RETURNING *`.  Names count as one
symbol each, so the parentheses and commas that are left are those of the statement.  A cell is
`NULL` or a placeholder, which stands for the value with its number, perhaps with a cast.  Where an
`ON CONFLICT` clause follows the tuples, what stands before it is read (`readBefore?`).
-/

import Querysmith.Proofs.Sql.Symbol

namespace Querysmith
namespace Sql

/-- What a cell of a tuple writes. -/
inductive Written where
  /-- The literal `NULL`. -/
  | null
  /-- A bound value, perhaps with a cast. -/
  | value (v : SqlValue) (cast : Option String)
  deriving DecidableEq, Repr

/-- What an insert writes. -/
structure Insertion where
  columns : List String
  tuples : List (List Written)
  deriving DecidableEq, Repr

namespace Insertion

open Sql.Symbol (chars)

/-- The symbols before and behind the first place where a character stands. -/
def upTo (mark : Char) : List Symbol → Option (List Symbol × List Symbol)
  | [] => none
  | s :: rest =>
    if s = .char mark then some ([], rest)
    else (upTo mark rest).map fun (before, after) => (s :: before, after)

/-- The parenthesized parts of a text, each with the text up to the next one. -/
def groups? (ss : List Symbol) : Option (List (List Symbol × List Symbol)) :=
  (ss.splitOn (.char '(')).tail.mapM (upTo ')')

/-- The items of a list with commas. -/
def items (ss : List Symbol) : List (List Symbol) :=
  (ss.splitOn (.char ',')).map (·.dropWhile (· == .char ' '))

/-- A name that stands alone. -/
def name? : List Symbol → Option String
  | [.name s] => some s
  | _ => none

/-- The text of symbols without names. -/
def text? (ss : List Symbol) : Option String :=
  (ss.mapM fun
    | Symbol.char c => some c
    | Symbol.name _ => none).map String.ofList

/-- What stands behind the number of a placeholder: nothing, or a cast. -/
def cast? : List Symbol → Option (Option String)
  | [] => some none
  | .char ':' :: .char ':' :: target => (text? target).map some
  | _ => none

/-- The bound value with a number, counted from one. -/
def bound? (ps : List SqlValue) : Nat → Option SqlValue
  | 0 => none
  | n + 1 => ps[n]?

/-- The cell that symbols write when `ps` is bound. -/
def cell? (ps : List SqlValue) : List Symbol → Option Written
  | .char c :: rest =>
    if Symbol.isMark c then do
      let digits := Symbol.digits rest
      let v ← bound? ps (Text.readDecimal digits)
      return .value v (← cast? (rest.drop digits.length))
    else if .char c :: rest = chars "NULL".toList then some .null
    else none
  | _ => none

/-- The tuple that symbols write when `ps` is bound. -/
def tuple? (ps : List SqlValue) (ss : List Symbol) : Option (List Written) :=
  (items ss).mapM (cell? ps)

/-- The parts follow each other like tuples, and nothing but `RETURNING *` follows the last one. -/
def areTuples : List (List Symbol × List Symbol) → Bool
  | [] => false
  | (_, after) :: rest =>
    if rest = [] then after = [] ∨ after = chars " RETURNING *".toList
    else after = chars ", ".toList ∧ areTuples rest

/-- What the text of an insert writes when `ps` is bound. -/
def read? (ps : List SqlValue) (sql : String) : Option Insertion := do
  let ss ← Symbol.read? sql.toList
  match ← groups? ss with
  | [] => none
  | (columns, after) :: tuples =>
    guard ((chars "INSERT INTO ".toList).isPrefixOf ss)
    guard (after = chars " VALUES ".toList ∧ areTuples tuples)
    return ⟨← (items columns).mapM name?, ← tuples.mapM fun (cells, _) => tuple? ps cells⟩

/-- Parenthesized parts with a comma and a blank between two neighbours, and a text behind. -/
def spaced (after : List Symbol) : List (List Symbol) → List (List Symbol × List Symbol)
  | [] => []
  | [part] => [(part, after)]
  | part :: rest => (part, chars ", ".toList) :: spaced after rest

/-- What the text of an insert writes up to its `ON CONFLICT` clause when `ps` is bound. -/
def readBefore? (ps : List SqlValue) (sql : String) : Option Insertion := do
  let ss ← Symbol.read? sql.toList
  match ← groups? ss with
  | [] => none
  | (columns, after) :: rest =>
    let tuples := rest.dropLast
    guard ((chars "INSERT INTO ".toList).isPrefixOf ss)
    guard (after = chars " VALUES ".toList ∧ tuples ≠ [] ∧
      tuples = spaced (chars " ON CONFLICT ".toList) (tuples.map (·.1)))
    return ⟨← (items columns).mapM name?, ← tuples.mapM fun (cells, _) => tuple? ps cells⟩

/-- The characters of a text are read as the text. -/
theorem text?_chars (cs : List Char) : text? (chars cs) = some (String.ofList cs) := by
  have hchars : (chars cs).mapM (fun
      | Symbol.char c => some c
      | Symbol.name _ => none) = some cs := by
    induction cs with
    | nil => rfl
    | cons c cs ih =>
      rw [chars] at ih ⊢
      rw [List.map_cons, List.mapM_cons, ih]
      rfl
  exact congrArg (Option.map String.ofList) hchars

/-- The cast of a placeholder reads back. -/
theorem cast?_castText (d : Dialect) (cast : Option String) :
    cast? (chars (d.castText cast)) = some (if d.typeCasts then cast else none) := by
  cases cast with
  | none => simp [Dialect.castText, chars, cast?]
  | some target =>
    rw [Dialect.castText]
    split
    · have htext := text?_chars target.toList
      rw [String.ofList_toList] at htext
      exact congrArg (Option.map some) htext
    · rfl

/-- **A placeholder reads back as the value that is bound to it,** with its cast. -/
theorem cell?_castPlaceholder {d : Dialect} (hd : d.Bundled) (before after : List SqlValue)
    (v : SqlValue) (cast : Option String) :
    cell? (before ++ v :: after) (chars (d.castPlaceholder (before.length + 1) cast).toList) =
      some (.value v (if d.typeCasts then cast else none)) := by
  obtain ⟨sign, hsign, heq⟩ := Dialect.castPlaceholder_of_bundled hd (before.length + 1) cast
  have hmark : Symbol.isMark sign = true := by
    rcases hsign with rfl | rfl <;> rfl
  have hcast : Symbol.digits (chars (d.castText cast)) = [] := by
    have hlegible : Fragment.Legible cast.toList [.hole v cast] :=
      Fragment.Legible.hole v fun _ => Option.mem_toList.2
    simpa [Fragment.render] using Fragment.digits_castText (d := d) hlegible 0
  -- The number ends where the cast begins, since no cast begins with a digit.
  have hdigits : Symbol.digits (chars (Text.decimal (before.length + 1) ++ d.castText cast)) =
      Text.decimal (before.length + 1) := by
    rw [chars, List.map_append]
    exact Symbol.digits_chars (fun _ => Text.isDigit_of_mem_decimal) hcast
  have hbound : bound? (before ++ v :: after) (before.length + 1) = some v := by
    simp [bound?]
  have hdrop : (chars (Text.decimal (before.length + 1) ++ d.castText cast)).drop
      (Text.decimal (before.length + 1)).length = chars (d.castText cast) := by
    simp [chars]
  rw [heq, chars, List.map_cons, cell?, if_pos hmark]
  change (do
    let w ← bound? _ (Text.readDecimal (Symbol.digits (chars _)))
    return Written.value w (← cast? ((chars _).drop (Symbol.digits (chars _)).length))) = _
  rw [hdigits, Text.readDecimal_decimal, hbound, hdrop, cast?_castText]
  rfl

/-- Symbols are cut at the first mark. -/
theorem upTo_append {mark : Char} {before : List Symbol} (h : .char mark ∉ before)
    (after : List Symbol) : upTo mark (before ++ .char mark :: after) = some (before, after) := by
  induction before with
  | nil => simp [upTo]
  | cons s before ih =>
    rw [List.mem_cons, not_or] at h
    rw [List.cons_append, upTo, if_neg (Ne.symm h.1), ih h.2]
    rfl

/-- What is spaced are the parts themselves. -/
theorem map_fst_spaced (after : List Symbol) (parts : List (List Symbol)) :
    (spaced after parts).map (·.1) = parts := by
  fun_induction spaced after parts with
  | case1 => rfl
  | case2 => rfl
  | case3 part rest _ ih => rw [List.map_cons, ih]

/-- Spaced parts follow each other like tuples. -/
theorem areTuples_spaced {after : List Symbol}
    (h : after = [] ∨ after = chars " RETURNING *".toList) {parts : List (List Symbol)}
    (hne : parts ≠ []) : areTuples (spaced after parts) = true := by
  fun_induction spaced after parts with
  | case1 => exact absurd rfl hne
  | case2 part =>
    rw [areTuples, if_pos rfl]
    exact decide_eq_true h
  | case3 part rest hrest ih =>
    have hcons : rest ≠ [] := by
      rintro rfl
      exact hrest rfl
    have hspaced : spaced after rest ≠ [] := fun hnil => hcons (by
      rw [← map_fst_spaced after rest, hnil, List.map_nil])
    rw [areTuples, if_neg hspaced]
    exact decide_eq_true ⟨rfl, ih hcons⟩

/-- A parenthesized part before further ones. -/
theorem groups?_cons {before part between : List Symbol} (hbefore : .char '(' ∉ before)
    (hopen : .char '(' ∉ part) (hclose : .char ')' ∉ part) (hbetween : .char '(' ∉ between)
    (rest : List Symbol) :
    groups? (before ++ .char '(' :: (part ++ .char ')' :: (between ++ .char '(' :: rest))) =
      (groups? (between ++ .char '(' :: rest)).map ((part, between) :: ·) := by
  have hpart : .char '(' ∉ part ++ .char ')' :: between := by
    simp [hopen, hbetween]
  have hassoc : part ++ .char ')' :: (between ++ .char '(' :: rest) =
      (part ++ .char ')' :: between) ++ .char '(' :: rest := by
    simp
  rw [groups?, List.splitOn_append_cons_self_of_not_mem hbefore, List.tail_cons, hassoc,
    List.splitOn_append_cons_self_of_not_mem hpart, List.mapM_cons, upTo_append hclose, groups?,
    List.splitOn_append_cons_self_of_not_mem hbetween, List.tail_cons]
  cases (rest.splitOn (.char '(')).mapM (upTo ')') <;> rfl

/-- **Parts between parentheses read back,** when they hold no parentheses themselves. -/
theorem groups?_intercalate {parts : List (List Symbol)} {after before : List Symbol}
    (hopen : ∀ part ∈ parts, .char '(' ∉ part) (hclose : ∀ part ∈ parts, .char ')' ∉ part)
    (hafter : .char '(' ∉ after) (hbefore : .char '(' ∉ before) (hne : parts ≠ []) :
    groups? (before ++ .char '(' :: ((chars "), (".toList).intercalate parts ++
      .char ')' :: after)) = some (spaced after parts) := by
  fun_induction spaced after parts generalizing before with
  | case1 => exact absurd rfl hne
  | case2 part =>
    rw [List.forall_mem_singleton] at hopen hclose
    have hpart : .char '(' ∉ part ++ .char ')' :: after := by
      simp [hopen, hafter]
    rw [groups?, List.splitOn_append_cons_self_of_not_mem hbefore, List.tail_cons,
      List.intercalate_singleton, List.splitOn_eq_singleton hpart, List.mapM_cons,
      upTo_append hclose]
    rfl
  | case3 part rest hrest ih =>
    cases rest with
    | nil => exact absurd rfl hrest
    | cons q rest =>
      rw [List.forall_mem_cons] at hopen hclose
      have hcomma : Symbol.char '(' ∉ chars ", ".toList := by decide
      -- Brought into the form in which the first part stands before the other ones.
      have hsplit : (chars "), (".toList).intercalate (part :: q :: rest) ++ .char ')' :: after =
          part ++ .char ')' :: (chars ", ".toList ++ .char '(' ::
            ((chars "), (".toList).intercalate (q :: rest) ++ .char ')' :: after)) := by
        simp [List.intercalate_cons_cons, chars]
      rw [hsplit, groups?_cons hbefore hopen.1 hclose.1 hcomma,
        ih hopen.2 hclose.2 hcomma (List.cons_ne_nil q rest)]
      rfl

/-- Parts between parentheses stand before further ones. -/
theorem groups?_intercalate_append {parts : List (List Symbol)} {before between : List Symbol}
    (hopen : ∀ part ∈ parts, .char '(' ∉ part) (hclose : ∀ part ∈ parts, .char ')' ∉ part)
    (hbetween : .char '(' ∉ between) (hbefore : .char '(' ∉ before) (hne : parts ≠ [])
    (rest : List Symbol) :
    groups? (before ++ .char '(' :: ((chars "), (".toList).intercalate parts ++
      .char ')' :: (between ++ .char '(' :: rest))) =
        (groups? (between ++ .char '(' :: rest)).map (spaced between parts ++ ·) := by
  fun_induction spaced between parts generalizing before with
  | case1 => exact absurd rfl hne
  | case2 part =>
    rw [List.forall_mem_singleton] at hopen hclose
    rw [List.intercalate_singleton, groups?_cons hbefore hopen hclose hbetween]
    rfl
  | case3 part parts hparts ih =>
    cases parts with
    | nil => exact absurd rfl hparts
    | cons q parts =>
      rw [List.forall_mem_cons] at hopen hclose
      have hcomma : Symbol.char '(' ∉ chars ", ".toList := by decide
      have hsplit : (chars "), (".toList).intercalate (part :: q :: parts) ++
          .char ')' :: (between ++ .char '(' :: rest) =
            part ++ .char ')' :: (chars ", ".toList ++ .char '(' ::
              ((chars "), (".toList).intercalate (q :: parts) ++
                .char ')' :: (between ++ .char '(' :: rest))) := by
        simp [List.intercalate_cons_cons, chars]
      rw [hsplit, groups?_cons hbefore hopen.1 hclose.1 hcomma,
        ih hopen.2 hclose.2 hcomma (List.cons_ne_nil q parts), Option.map_map]
      rfl

/-- A blank in front of a list does not matter. -/
theorem items_blank (ss : List Symbol) : items (.char ' ' :: ss) = items ss := by
  rw [items, List.splitOn_cons_eq_if_modifyHead, if_neg (by decide), items]
  cases ss.splitOn (Symbol.char ',') <;> simp

/-- **The items of a list read back,** when they hold no comma and begin with no blank. -/
theorem items_intercalate {parts : List (List Symbol)} (hcomma : ∀ part ∈ parts, .char ',' ∉ part)
    (hblank : ∀ part ∈ parts, part.head? ≠ some (.char ' ')) (hne : parts ≠ []) :
    items ((chars ", ".toList).intercalate parts) = parts := by
  -- The blank behind a comma belongs to the separator, and the parts have none to lose.
  have hdrop : ∀ part : List Symbol, part.head? ≠ some (.char ' ') →
      part.dropWhile (· == .char ' ') = part := by
    intro part h
    cases part with
    | nil => rfl
    | cons s part => exact List.dropWhile_cons_of_neg (by simpa using h)
  induction parts with
  | nil => exact absurd rfl hne
  | cons part rest ih =>
    rw [List.forall_mem_cons] at hcomma hblank
    cases rest with
    | nil =>
      rw [List.intercalate_singleton, items, List.splitOn_eq_singleton hcomma.1, List.map_cons,
        hdrop part hblank.1]
      rfl
    | cons q rest =>
      have hsplit : (chars ", ".toList).intercalate (part :: q :: rest) =
          part ++ .char ',' :: .char ' ' :: (chars ", ".toList).intercalate (q :: rest) := by
        simp [List.intercalate_cons_cons, chars]
      rw [hsplit, items, List.splitOn_append_cons_self_of_not_mem hcomma.1, List.map_cons,
        hdrop part hblank.1]
      exact congrArg (part :: ·) ((items_blank _).trans
        (ih hcomma.2 hblank.2 (List.cons_ne_nil q rest)))

/-- **An insert reads back from its parts:** the names of its column list and the cells of its
tuples. -/
theorem read?_eq {ps : List SqlValue} {sql : String} {ss columnList after : List Symbol}
    {parts : List (List Symbol)} {columns : List String} {tuples : List (List Written)}
    (hread : Symbol.read? sql.toList = some ss)
    (hhead : (chars "INSERT INTO ".toList).isPrefixOf ss = true)
    (hgroups : groups? ss = some ((columnList, chars " VALUES ".toList) :: spaced after parts))
    (hafter : after = [] ∨ after = chars " RETURNING *".toList) (hne : parts ≠ [])
    (hnames : (items columnList).mapM name? = some columns)
    (htuples : parts.mapM (tuple? ps) = some tuples) :
    read? ps sql = some ⟨columns, tuples⟩ := by
  have hcells : ((spaced after parts).mapM fun (cells, _) => tuple? ps cells) = some tuples := by
    rw [← htuples, ← map_fst_spaced after parts, List.mapM_map, map_fst_spaced]
    rfl
  have hspaced := areTuples_spaced hafter hne
  rw [read?, hread]
  simp only [Option.bind_eq_bind, Option.bind_some, hgroups, guard, if_pos hhead, true_and,
    if_pos hspaced, hnames, hcells]
  rfl

/-- **An insert with a conflict clause reads back from its parts,** those of the insert. -/
theorem readBefore?_eq {ps : List SqlValue} {sql : String} {ss columnList : List Symbol}
    {parts : List (List Symbol)} {clause : List Symbol × List Symbol} {columns : List String}
    {tuples : List (List Written)} (hread : Symbol.read? sql.toList = some ss)
    (hhead : (chars "INSERT INTO ".toList).isPrefixOf ss = true)
    (hgroups : groups? ss = some ((columnList, chars " VALUES ".toList) ::
      (spaced (chars " ON CONFLICT ".toList) parts ++ [clause])))
    (hne : parts ≠ []) (hnames : (items columnList).mapM name? = some columns)
    (htuples : parts.mapM (tuple? ps) = some tuples) :
    readBefore? ps sql = some ⟨columns, tuples⟩ := by
  have hcells : ((spaced (chars " ON CONFLICT ".toList) parts).mapM fun (cells, _) =>
      tuple? ps cells) = some tuples := by
    rw [← htuples, ← map_fst_spaced (chars " ON CONFLICT ".toList) parts, List.mapM_map,
      map_fst_spaced]
    rfl
  have hspaced : spaced (chars " ON CONFLICT ".toList) parts ≠ [] := fun hnil => hne (by
    rw [← map_fst_spaced (chars " ON CONFLICT ".toList) parts, hnil, List.map_nil])
  rw [readBefore?, hread]
  simp only [Option.bind_eq_bind, Option.bind_some, hgroups, List.dropLast_concat, guard,
    if_pos hhead, map_fst_spaced, true_and, and_true, if_pos hspaced, hnames, hcells]
  rfl

end Insertion
end Sql
end Querysmith
