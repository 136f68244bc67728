/-
# The guard of a soft-delete column

A read with a soft-delete column demands of every branch that the column is zero, and a removal with
that column sets it to one.  The flag is bound as it is.  The zero is bound like the operand of any
other condition, so where operands are normalized it is what the normalizer makes of a zero under
the name of the column: it becomes a text on a column with a text marker, unless that is a column of
ids (`bind_zero`).  On all other columns, and wherever operands are bound as they are, the guard
compares with the integer that a removal does not write (`guard_of_reads`).
-/

import Querysmith.Proofs.Compiler.Unguarded
import Querysmith.Proofs.Filter.Meaning

namespace Querysmith

open Fragment (Legible tokens)
open Sql

namespace Filter

/-- The groups that a guard stands behind: those of the filter, or one without conditions when the
filter has none. -/
def branches (f : Filter) : List (List Condition) :=
  if f.matchesAll then [[]] else f.groups

/-- There is a branch for a guard to stand in. -/
theorem branches_ne_nil (f : Filter) : f.branches ≠ [] := by
  rw [branches]
  split
  · exact List.cons_ne_nil _ _
  · rename_i hall
    exact fun hnil => hall (List.isEmpty_iff.2 hnil)

/-- **The guard stands behind every branch,** also behind that of a filter without groups. -/
theorem guardedGroups_some (f : Filter) (column : String) :
    f.guardedGroups (some column) = f.branches.map (· ++ [.equal column (.int 0)]) := by
  rw [guardedGroups, branches]
  split <;> rfl

/-- A guard makes a clause, also of a filter without groups. -/
theorem guardedGroups_some_ne_nil (f : Filter) (column : String) :
    f.guardedGroups (some column) ≠ [] := by
  rw [guardedGroups_some]
  exact fun hnil => f.branches_ne_nil (List.map_eq_nil_iff.1 hnil)

end Filter

namespace Compiler

variable {c : Compiler} {table : String} {f : Filter}

/-- The value that the guard of a column is compared with. -/
def guardValue (c : Compiler) (column : String) : SqlValue :=
  if c.options.normalizeFilters ∧ ¬isIdColumn column ∧ c.normalizer.keepsText column then .text "0"
  else .int 0

/-- **The zero of a guard is bound like any operand.** -/
theorem bind_zero (c : Compiler) (column : String) :
    c.predicateOptions.bind column (.int 0) = c.guardValue column := by
  have hword : SqlValue.ofJson (.str (Text.ofInt 0)) = .text "0" := by decide +kernel
  have hzero : SqlValue.ofJson (.int 0) = .int 0 := by decide
  cases hnormalize : c.options.normalizeFilters with
  | false => simp [PredicateOptions.bind, predicateOptions, guardValue, hnormalize, hzero]
  | true =>
    simp only [PredicateOptions.bind, predicateOptions, guardValue, hnormalize, if_true, true_and,
      Normalizer.normalize, Normalizer.normalizeInt]
    by_cases hid : isIdColumn column = true
    · rw [if_pos hid, if_neg (fun h => h.1 hid), hzero]
    · by_cases hkeeps : c.normalizer.keepsText column = true
      · rw [if_neg hid, if_pos hkeeps, if_pos ⟨hid, hkeeps⟩, hword]
      · rw [if_neg hid, if_neg hkeeps, if_neg (fun h => hkeeps h.2), hzero]

/-- The branches of the clause of a statement are those of a filter, and behind its conditions each
of them demands that the column is the value. -/
def Guards (c : Compiler) (f : Filter) (column : String) (value : SqlValue) (s : Statement) :
    Prop :=
  ∃ (head : List Token) (formula : Formula) (branches : Clause),
    Formula.ofWhere? s.sql = some (head, formula) ∧
    formula.disjuncts.map Formula.conjuncts = branches.map (·.map .test) ∧
    branches.map (·.map (Test.fill s.params)) = f.branches.map fun group =>
      group.map (Condition.demand c.predicateOptions) ++
        [.compare column .equal (.literal value)]

/-- The statement sets the column of the table, in the rows of its clause, to the first value that
it binds, and that is one. -/
def Flags (c : Compiler) (table column : String) (s : Statement) : Prop :=
  ∃ (source : Fragment) (clause : String) (values : List SqlValue),
    c.table table = .ok source ∧
    s.sql = removalText c.dialect (source.sql c.dialect 0) (some column) ++ clause ∧
    s.params = .int 1 :: values

/-- What stands before the clause of a count. -/
def countHead (t : TableName) : Fragment :=
  .text "SELECT count(*) AS number FROM " :: t.pieces

/-- Before its clause a count binds nothing. -/
theorem values_countHead (t : TableName) : Fragment.values (countHead t) = [] := by
  rw [countHead, Fragment.values_text, values_pieces]

/-- A count with a guard is its head and a clause. -/
theorem countPieces_some (c : Compiler) (t : TableName) (f : Filter) (column : String) :
    c.countPieces t f (some column) = countHead t ++ .text " " ::
      Filter.groupsPieces c.predicateOptions (f.guardedGroups (some column)) := by
  have hwhere : f.wherePieces (some column) c.predicateOptions =
      some (Filter.groupsPieces c.predicateOptions (f.guardedGroups (some column))) := by
    rw [Filter.wherePieces]
    split
    · rename_i hnil
      exact absurd hnil (f.guardedGroups_some_ne_nil column)
    · rfl
  rw [countPieces_eq, sourcePieces, hwhere]
  simp [behind, countHead, Filter.groupsPieces]

/-- What stands before the clause of a count holds no `WHERE`. -/
theorem all_tokens_countHead (d : Dialect) (t : TableName) :
    (tokens d 0 (countHead t)).all (!Reader.isKeyword "where" ·) = true := by
  obtain ⟨schema, name⟩ := t
  cases schema <;> rfl

/-- **A count guards every branch.** -/
theorem guards_of_count (hd : c.dialect.Bundled) (hf : f.Reachable) {column : String}
    {number : Statement} (h : c.count table f (some column) = .ok number) :
    c.Guards f column (c.guardValue column) number := by
  obtain ⟨t, ht⟩ := exists_resolve_of_ok h
  obtain ⟨-, rfl⟩ := (count_yields ht f (some column)).eq_of_ok h
  have hwellFormed := hf.wellFormed.guardedGroups (some column)
  have hlegible : Legible [] (c.countPieces t f (some column)) :=
    c.countPieces_legible t f (some column)
  have hsql := Fragment.tokens_sql hd hlegible (by simp) 0
  have htokens : tokens c.dialect 0 (c.countPieces t f (some column)) =
      tokens c.dialect 0 (countHead t) ++ tokens c.dialect (countHead t).values.length
        (Filter.groupsPieces c.predicateOptions (f.guardedGroups (some column))) := by
    rw [countPieces_some, tokens, Fragment.render_append, Nat.zero_add]
    rfl
  rw [htokens] at hsql
  have hwhere : ∀ token ∈ tokens c.dialect 0 (countHead t),
      Reader.isKeyword "where" token = false := fun token htoken => by
    simpa using List.all_eq_true.1 (all_tokens_countHead c.dialect t) token htoken
  -- A count binds nothing before its clause, so the numbers of the clause start at one.
  have hfill := Filter.fill_tests (o := c.predicateOptions) [] []
    (f.guardedGroups (some column))
  have hvalues : (c.countPieces t f (some column)).values =
      (Filter.groupsPieces c.predicateOptions (f.guardedGroups (some column))).values := by
    rw [countPieces_some, Fragment.values_append, values_countHead, List.nil_append,
      Fragment.values_text]
  refine ⟨_, _, Filter.tests (countHead t).values.length (f.guardedGroups (some column)),
    Filter.ofWhere?_groupsPieces hsql hwhere (f.guardedGroups_some_ne_nil column)
      hwellFormed.ne_nil hwellFormed.conditions,
    Formula.branches_ofTests _, ?_⟩
  rw [Statement.ofFragment, hvalues, values_countHead]
  rw [List.nil_append, List.append_nil, Filter.guardedGroups_some, List.map_map] at hfill
  rw [Filter.guardedGroups_some, hfill, ← bind_zero, PredicateOptions.bind_eq_standsFor]
  refine List.map_congr_left fun group _ => ?_
  rw [Function.comp_apply, List.map_append]
  rfl

/-- **A removal with a soft-delete column binds its flag first.** -/
theorem flags_of_delete (hd : c.dialect.Bundled) {column : String} {s : Statement}
    (h : c.delete table f (some column) = .ok s) : c.Flags table column s := by
  obtain ⟨q, source, clause, raised, -, hsource, -, -, -, hsql, hparams⟩ :=
    removesShown_of_delete hd h
  exact ⟨source, raised, q.params, hsource, hsql, hparams⟩

/-- **What guards compare with, and what flags write.**  In every branch of a count, also in that of
a filter without groups, the guard of the column stands last and compares it with the integer zero,
or with the text of it when operands are normalized and the column holds a text marker and no ids.
A selection of rows reads the rows that the count counts.  A removal with the column sets it to the
integer one, whatever the options are. -/
theorem guard_of_reads (hd : c.dialect.Bundled) (hf : f.Reachable) (table column : String) :
    (∀ number, c.count table f (some column) = .ok number →
      c.Guards f column (c.guardValue column) number) ∧
    (∀ (order : SortOrder) (page : Option Page) (rows : Statement),
      c.select table f order (some column) page = .ok rows →
      ∃ number, c.count table f (some column) = .ok number ∧
        c.ReadsSame table f order (some column) page rows number) ∧
    (∀ s, c.delete table f (some column) = .ok s → c.Flags table column s) ∧
    (c.guardValue column = .int 0 ↔ ¬(c.options.normalizeFilters = true ∧
      isIdColumn column = false ∧ c.normalizer.keepsText column = true)) := by
  refine ⟨fun number h => guards_of_count hd hf h, fun order page rows h =>
    exists_count_of_select h, fun s h => flags_of_delete hd h, ?_⟩
  unfold guardValue
  split <;> simp_all

/-- A column with a text marker, of which the guard compares with a text and the flag is an
integer. -/
theorem guard_of_reads_marked :
    ∃ number s : Statement,
      (ofDialect .postgres { normalizeFilters := true }).count "user"
        (.and [.equal "name" (.str "ann")]) (some "mobile_gone") = .ok number ∧
      number.sql = "SELECT count(*) AS number FROM \"user\" " ++
        "WHERE ((\"name\" = $1 AND \"mobile_gone\" = $2))" ∧
      number.params = [.text "ann", .text "0"] ∧
      (ofDialect .postgres { normalizeFilters := true }).Guards
        (.and [.equal "name" (.str "ann")]) "mobile_gone" (.text "0") number ∧
      (ofDialect .postgres { normalizeFilters := true }).delete "user"
        (.and [.equal "name" (.str "ann")]) (some "mobile_gone") = .ok s ∧
      (ofDialect .postgres { normalizeFilters := true }).Flags "user" "mobile_gone" s := by
  have hf : Filter.Reachable (.and [.equal "name" (.str "ann")]) :=
    .and (List.forall_mem_singleton.2 (.equal "name" (.str "ann")))
  have ht : TableName.resolve "user"
      (ofDialect .postgres { normalizeFilters := true }).options.schema = .ok ⟨none, "user"⟩ := by
    rfl
  have hvalue : (ofDialect .postgres { normalizeFilters := true }).guardValue "mobile_gone" =
      .text "0" := by
    decide +kernel
  have hcount := (count_yields ht (.and [.equal "name" (.str "ann")]) (some "mobile_gone") _).2
    ⟨by decide, rfl⟩
  have hdelete := (delete_yields ht (f := .and [.equal "name" (.str "ann")]) (by decide)
    (some "mobile_gone") _).2 ⟨by decide, rfl⟩
  obtain ⟨hguards, -, hflags, -⟩ := guard_of_reads
    (c := ofDialect .postgres { normalizeFilters := true }) .postgres hf "user" "mobile_gone"
  rw [hvalue] at hguards
  exact ⟨_, _, hcount, by decide +kernel, by decide +kernel, hguards _ hcount, hdelete,
    hflags _ hdelete⟩

end Compiler
end Querysmith
