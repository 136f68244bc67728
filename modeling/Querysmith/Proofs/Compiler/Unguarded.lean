/-
# Removals beside selections

A removal hits the rows that a selection without a guard shows: both statements end with the clause
of the filter, and they bind the same values for it.  A removal that flags the rows binds the flag
first, so in its clause every placeholder has the next number.  Behind any values a clause is the
one that stands alone with all numbers raised, and it is refused with the same error
(`clauseBehind_agree`); the clauses of the two statements are one case of that, with no value or
with the flag before them.
-/

import Querysmith.Proofs.Agreement
import Querysmith.Proofs.Compiler.Selection
import Querysmith.Proofs.Sql.Renumber

namespace Querysmith

open Sql.Symbol (raised?)

namespace Filter

/-- The clause of a filter behind values that are bound already: its text, if there is one, and all
values that are bound then. -/
def clauseBehind (f : Filter) (softDelete : Option String) (o : PredicateOptions) (d : Dialect)
    (before : List SqlValue) : Except Error (Option String × List SqlValue) := do
  let clause ← f.whereFragment softDelete o
  return (clause.map (·.sql d before.length), before ++ (clause.getD []).values)

/-- A clause behind bound values is written when its columns are usable, with numbers that count
on. -/
theorem clauseBehind_yields (f : Filter) (softDelete : Option String) (o : PredicateOptions)
    (d : Dialect) (before : List SqlValue) :
    Yields (f.clauseBehind softDelete o d before) (AllUsable (f.columns ++ softDelete.toList))
      ((f.wherePieces softDelete o).map (·.sql d before.length),
        before ++ ((f.wherePieces softDelete o).getD []).values) :=
  (f.whereFragment_yields softDelete o).bind_pure _

/-- A clause alone and a clause behind some values: there is none in both places, or one text is the
other one with the numbers raised; and the same values are bound for it. -/
structure Raised (before : List SqlValue) (alone behind : Option String × List SqlValue) :
    Prop where
  text : Option.Rel (fun sql sql' => raised? before.length sql = some sql') alone.1 behind.1
  values : behind.2 = before ++ alone.2

/-- **A clause behind some values is the clause alone, further behind,** or fails like it. -/
theorem clauseBehind_agree {d : Dialect} (hd : d.Bundled) (f : Filter)
    (softDelete : Option String) (o : PredicateOptions) (before : List SqlValue) :
    Agree (Raised before) (f.clauseBehind softDelete o d [])
      (f.clauseBehind softDelete o d before) := by
  have hclause := f.whereFragment_yields softDelete o
  have hlegible : Fragment.Legible [] ((f.wherePieces softDelete o).getD []) :=
    f.wherePieces_legible softDelete o
  rw [clauseBehind, clauseBehind]
  cases hwhere : f.whereFragment softDelete o with
  | error e => exact .error e
  | ok clause =>
    obtain ⟨-, rfl⟩ := hclause.eq_of_ok hwhere
    refine .pure ⟨?_, rfl⟩
    cases hpieces : f.wherePieces softDelete o with
    | none => exact .none
    | some pieces =>
      rw [hpieces] at hlegible
      exact .some (Fragment.raised?_sql_zero hd hlegible before.length)

end Filter

namespace Compiler

variable {c : Compiler} {table : String} {f : Filter} {softDelete : Option String}

/-- What a removal binds before the values of its clause: the flag, if it flags the rows. -/
def flagValues : Option String → List SqlValue
  | none => []
  | some _ => [.int 1]

/-- What a removal does to the rows of a table, up to its clause. -/
def removalText (d : Dialect) (source : String) : Option String → String
  | none => "DELETE FROM " ++ source ++ " "
  | some column =>
    "UPDATE " ++ source ++ " SET " ++ d.quoteIdentifier column ++ " = " ++ d.placeholder 1 ++ " "

/-- The text before the clause of a removal. -/
theorem sql_removalHead (d : Dialect) (t : TableName) (softDelete : Option String) :
    Fragment.sql d 0 (removalHead t softDelete) ++ " " =
      removalText d (t.pieces.sql d 0) softDelete := by
  cases softDelete with
  | none => rw [removalHead, Fragment.sql_text_cons, removalText]
  | some column =>
    have hpieces : removalHead t (some column) = .text "UPDATE " :: (t.pieces ++
        [.text " SET ", .name column, .text " = ", .hole (.int 1) none]) := by
      simp [removalHead]
    have hset : Fragment.sql d 0
        [.text " SET ", .name column, .text " = ", .hole (.int 1) none] =
          " SET " ++ (d.quoteIdentifier column ++ (" = " ++ d.placeholder 1)) := by
      rw [Fragment.sql_text_cons, Fragment.sql_name_cons, Fragment.sql_text_cons]
      rfl
    rw [hpieces, Fragment.sql_text_cons, Fragment.sql_append, values_pieces, List.length_nil, hset,
      removalText]
    simp only [String.append_assoc]

/-- Before its clause a removal binds its flag, or nothing. -/
theorem values_removalHead (t : TableName) (softDelete : Option String) :
    Fragment.values (removalHead t softDelete) = flagValues softDelete := by
  cases softDelete <;> simp [removalHead, flagValues, values_pieces]

/-- The statement is a removal of the rows that a selection without a guard shows: behind what it
does to them stands the clause of that selection, whose numbers go on from the flag, and its values
are those of the selection behind the flag. -/
def RemovesShown (c : Compiler) (table : String) (f : Filter) (softDelete : Option String)
    (s : Statement) : Prop :=
  ∃ (q : Statement) (source : Fragment) (clause raised : String),
    c.select table f .unordered none none = .ok q ∧
    c.table table = .ok source ∧
    f.clauseBehind none c.predicateOptions c.dialect [] = .ok (some clause, q.params) ∧
    q.sql = "SELECT * FROM " ++ source.sql c.dialect 0 ++ " " ++ clause ∧
    raised? (flagValues softDelete).length clause = some raised ∧
    s.sql = removalText c.dialect (source.sql c.dialect 0) softDelete ++ raised ∧
    s.params = flagValues softDelete ++ q.params

/-- The selection of all rows of a filter that has groups. -/
theorem selectPieces_unordered (c : Compiler) (t : TableName) (hgroups : f.groups ≠ []) :
    c.selectPieces t f .unordered none none = .text "SELECT * FROM " ::
      (t.pieces ++ .text " " :: Filter.groupsPieces c.predicateOptions f.groups) := by
  rw [selectPieces_eq, sourcePieces, wherePieces_none hgroups]
  simp [behind, SortOrder.pieces, SortOrder.unordered, Filter.groupsPieces]

/-- **A removal that succeeds is one of the rows that a selection shows.** -/
theorem removesShown_of_delete (hd : c.dialect.Bundled) {s : Statement}
    (h : c.delete table f softDelete = .ok s) : c.RemovesShown table f softDelete s := by
  have hgroups := groups_ne_nil (paramCount_ne_zero_of_ok h)
  obtain ⟨t, ht⟩ := exists_resolve_of_delete h
  obtain ⟨husable, rfl⟩ := (delete_yields ht (paramCount_ne_zero_of_ok h) softDelete).eq_of_ok h
  rw [allUsable_append, allUsable_append] at husable
  obtain ⟨⟨htable, -⟩, hfilter⟩ := husable
  have hread : AllUsable (f.columns ++ (none : Option String).toList) := by
    rwa [Option.toList_none, List.append_nil]
  -- The selection of the same rows compiles, since it has no more names to check.
  have hselect := (select_yields ht f .unordered none none _).2
    ⟨by rw [allUsable_append, allUsable_append]; exact ⟨⟨htable, hread⟩, allUsable_nil.2 trivial⟩,
      rfl⟩
  have hclause := (f.clauseBehind_yields none c.predicateOptions c.dialect [] _).2 ⟨hread, rfl⟩
  -- Its clause counts its placeholders from zero, and that of the removal from behind the flag.
  have hraised := Fragment.raised?_sql_zero hd
    (Filter.groupsPieces_legible c.predicateOptions f.groups) (flagValues softDelete).length
  rw [wherePieces_none hgroups] at hclause
  rw [selectPieces_unordered c t hgroups] at hselect
  have hparams : Fragment.values (.text "SELECT * FROM " :: (t.pieces ++ .text " " ::
      Filter.groupsPieces c.predicateOptions f.groups)) =
        (Filter.groupsPieces c.predicateOptions f.groups).values := by
    rw [Fragment.values_text, Fragment.values_append, values_pieces, List.nil_append,
      Fragment.values_text]
  refine ⟨_, t.pieces, _, _, hselect, (table_yields ht _).2 ⟨htable, rfl⟩, ?_, ?_, hraised, ?_, ?_⟩
  · rw [hclause, Statement.ofFragment, hparams]
    rfl
  · rw [Statement.ofFragment, Fragment.sql_text_cons, Fragment.sql_append, values_pieces,
      List.length_nil, Fragment.sql_text_cons]
    simp only [String.append_assoc]
  · rw [Statement.ofFragment, removalPieces, Fragment.sql_append, values_removalHead, Nat.zero_add,
      Fragment.sql_text_cons, ← sql_removalHead, String.append_assoc]
  · rw [Statement.ofFragment, removalPieces, Fragment.values_append, values_removalHead,
      Fragment.values_text, Statement.ofFragment, hparams]

/-- **A removal hits exactly the rows that a selection without a guard shows.**  The selection
succeeds whenever the removal does, and the two statements have one clause with the same values; its
numbers are raised by one behind a flag.  Behind any values a clause is the one that stands alone
with its numbers raised, or fails like it. -/
theorem removal_hits_shown (hd : c.dialect.Bundled) :
    (∀ (table : String) (f : Filter) (softDelete : Option String) (s : Statement),
      c.delete table f softDelete = .ok s → c.RemovesShown table f softDelete s) ∧
    ∀ (f : Filter) (softDelete : Option String) (o : PredicateOptions) (before : List SqlValue),
      Agree (Filter.Raised before) (f.clauseBehind softDelete o c.dialect [])
        (f.clauseBehind softDelete o c.dialect before) :=
  ⟨fun _ _ _ _ => removesShown_of_delete hd, fun f => f.clauseBehind_agree hd⟩

/-- A column with the name of a placeholder, and nine members of which the last one gets a second
digit behind the flag. -/
theorem removal_hits_shown_flagged :
    ∃ (s q : Statement) (clause raised : String),
      (ofDialect .postgres).delete "user" (.and [.inList "a $1" (List.replicate 9 (.int 7))])
        (some "gone") = .ok s ∧
      (ofDialect .postgres).select "user" (.and [.inList "a $1" (List.replicate 9 (.int 7))])
        .unordered none none = .ok q ∧
      q.sql = "SELECT * FROM \"user\" " ++ clause ∧
      raised? 1 clause = some raised ∧
      s.sql = "UPDATE \"user\" SET \"gone\" = $1 " ++ raised ∧
      s.sql = "UPDATE \"user\" SET \"gone\" = $1 WHERE " ++
        "((\"a $1\" in ($2, $3, $4, $5, $6, $7, $8, $9, $10)))" ∧
      s.params = .int 1 :: q.params := by
  have ht : TableName.resolve "user" (ofDialect .postgres).options.schema = .ok ⟨none, "user"⟩ := by
    rfl
  have hdelete := (delete_yields ht
    (f := .and [.inList "a $1" (List.replicate 9 (.int 7))]) (by decide) (some "gone") _).2
      ⟨by decide, rfl⟩
  obtain ⟨q, source, clause, raised, hselect, hsource, -, hq, hraised, hs, hparams⟩ :=
    (removal_hits_shown .postgres).1 "user" _ _ _ hdelete
  obtain rfl : [.name "user"] = source := Except.ok.inj hsource
  exact ⟨_, q, clause, raised, hdelete, hselect,
    hq.trans (congrArg (· ++ clause) (by decide +kernel)), hraised,
    hs.trans (congrArg (· ++ raised) (by decide +kernel)), by decide +kernel, hparams⟩

end Compiler
end Querysmith
