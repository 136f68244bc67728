/-
# Upserting the same records twice

An upsert on a single constraint writes one `ON CONFLICT` clause for it in every statement, whatever
the dialect and the size of the chunks (`strategyOf_of_single`), and it overwrites every column that
the constraint does not name.  So the statements of a plan are upserts in the sense of
`Sql.Upsertion`, read from their texts and values (`Statement.upsertion?`), with the records as
their tuples.  Over a table they do what one upsert of all records does, and when no record is null
in the constraint, doing it twice is doing it once (`runAll_of_upsert`).
-/

import Querysmith.Proofs.Compiler.Overwrite
import Querysmith.Proofs.Sql.Upsertion

namespace Querysmith

open Sql Sql.Reader
open Sql.Symbol (chars)
open Fragment (symbols render renderList)

/-- What the text of a statement with one `ON CONFLICT` clause writes with the values that are
bound to it. -/
def Statement.upsertion? (s : Statement) : Option Upsertion := do
  match ← setClauses? s.sql with
  | [⟨[target], updates⟩] =>
    let insertion ← Insertion.readBefore? s.params s.sql
    return ⟨insertion, target, updates⟩
  | _ => none

/-- A statement with one `SET` clause on one target is read as an upsertion. -/
theorem Statement.upsertion?_eq {s : Statement} {insertion : Insertion}
    {target updates : List String} (hclauses : setClauses? s.sql = some [⟨[target], updates⟩])
    (hinsertion : Insertion.readBefore? s.params s.sql = some insertion) :
    s.upsertion? = some ⟨insertion, target, updates⟩ := by
  rw [upsertion?, hclauses, Option.bind_eq_bind, Option.bind_some]
  simp only [hinsertion]
  rfl

/-- Assignments bind nothing. -/
theorem values_assignmentPieces (source : String) (columns : List String) :
    Fragment.values (assignmentPieces source columns) = [] := by
  simp [assignmentPieces, Fragment.values_joined]

/-- Conflict clauses bind nothing. -/
theorem values_conflictPieces (targets : List (List String)) (updates : List String) :
    Fragment.values (conflictPieces targets updates) = [] := by
  induction targets with
  | nil => rfl
  | cons target targets ih =>
    rw [conflictPieces] at ih ⊢
    rw [List.map_cons, List.flatten_cons, Fragment.values_append, ih]
    simp [Fragment.values_append, Compiler.values_listPieces, values_assignmentPieces]

/-- No assignment has a parenthesis. -/
theorem assignmentPieces_avoid (columns : List String) :
    ∀ p ∈ assignmentPieces "EXCLUDED" columns, p.Avoids '(' := by
  have hcomma : (Piece.text ", ").Avoids '(' := by
    rw [Piece.Avoids]
    decide
  have hexcluded : (Piece.text (" = " ++ "EXCLUDED" ++ ".")).Avoids '(' := by
    rw [Piece.Avoids]
    decide
  intro p hp
  obtain rfl | ⟨f, hf, hp⟩ := Fragment.mem_joined hp
  · exact hcomma
  · obtain ⟨column, -, rfl⟩ := List.mem_map.1 hf
    simp only [List.mem_cons, List.not_mem_nil, or_false] at hp
    rcases hp with rfl | rfl | rfl
    · trivial
    · exact hexcluded
    · trivial

/-- A single constraint gives its columns alone. -/
theorem ConstraintSpec.columns_of_single {spec : ConstraintSpec}
    {constraint : Constraint} (h : spec.entries = [constraint]) :
    spec.columns = constraint.columns := by
  obtain ⟨entries⟩ := spec
  obtain rfl : entries = [constraint] := h
  cases constraint with
  | simple column => rfl
  | composite columns => exact List.append_nil columns

namespace Compiler

variable {c : Compiler}

/-- The symbols of a conflict clause and what follows it: a single part is between parentheses. -/
theorem exists_symbols_conflict (hd : c.dialect.Bundled) (target updates : List String)
    (bound : Nat) :
    ∃ rest clause, symbols c.dialect bound (conflictPieces [target] updates ++ c.returning) =
        chars " ON CONFLICT ".toList ++ .char '(' :: rest ∧
      Insertion.groups? (chars " ON CONFLICT ".toList ++ .char '(' :: rest) = some [clause] := by
  have hopen := Fragment.not_mem_symbols hd (c := '(') rfl
    (listPieces_avoid target (by decide)) bound
  have hclose := Fragment.not_mem_symbols hd (c := ')') rfl
    (listPieces_avoid target (by decide)) bound
  have hset := Fragment.not_mem_symbols hd (c := '(') rfl (assignmentPieces_avoid updates) bound
  have hafter : Symbol.char '(' ∉ chars " DO UPDATE SET ".toList ++
      (symbols c.dialect bound (assignmentPieces "EXCLUDED" updates) ++
        symbols c.dialect bound c.returning) := by
    rw [List.mem_append, List.mem_append, not_or, not_or]
    exact ⟨by decide, hset, c.not_mem_returning bound⟩
  have hbefore : Symbol.char '(' ∉ chars " ON CONFLICT ".toList := by decide
  have hclause := Insertion.groups?_intercalate (List.forall_mem_singleton.2 hopen)
    (List.forall_mem_singleton.2 hclose) hafter hbefore (List.cons_ne_nil _ [])
  rw [List.intercalate_singleton] at hclause
  refine ⟨_, _, ?_, hclause⟩
  simp [conflictPieces, render, Fragment.render_append, values_listPieces,
    values_assignmentPieces, chars]

/-- The parenthesized parts of an upsert: its columns, its tuples and its target. -/
theorem groups?_conflict (hd : c.dialect.Bundled) (hcasts : ∀ ch ∈ ['(', ')'], c.CastsAvoid ch)
    (t : TableName) (columns : List String) {chunk : List (List Json)} (hchunk : chunk ≠ [])
    (target updates : List String) :
    ∃ clause, Insertion.groups? (symbols c.dialect 0 (c.insertFragment t.pieces
        (Identifier.listPieces columns) columns chunk (conflictPieces [target] updates))) =
      some ((symbols c.dialect 0 (Identifier.listPieces columns), chars " VALUES ".toList) ::
        (Insertion.spaced (chars " ON CONFLICT ".toList)
          (renderList (Symbol.rendering c.dialect) 0 (chunk.map (c.cells columns))) ++
            [clause])) := by
  have hvalues : Symbol.char '(' ∉ chars " VALUES ".toList := by decide
  have hconflict : Symbol.char '(' ∉ chars " ON CONFLICT ".toList := by decide
  have hne : renderList (Symbol.rendering c.dialect) 0 (chunk.map (c.cells columns)) ≠ [] :=
    Fragment.renderList_ne_nil (by simpa using hchunk) 0
  obtain ⟨rest, clause, hsplit, hclause⟩ :=
    exists_symbols_conflict hd target updates (c.tuples columns chunk).values.length
  refine ⟨clause, ?_⟩
  rw [groups?_symbols hd t columns hchunk, hsplit,
    Insertion.groups?_intercalate_append
      (not_mem_cells hd (hcasts '(' (by decide)) rfl (by decide) (by decide) columns chunk)
      (not_mem_cells hd (hcasts ')' (by decide)) rfl (by decide) (by decide) columns chunk)
      hconflict hvalues hne, hclause]
  rfl

/-- **An upsert reads back,** when every row has a value for every column. -/
theorem upsertion?_insertFragment (hd : c.dialect.Bundled) (hquiet : c.CastsQuiet)
    (hcasts : ∀ ch ∈ ['"', '(', ')', ','], c.CastsAvoid ch) (t : TableName)
    {columns : List String} {chunk : List (List Json)} (hcolumns : columns ≠ [])
    (hchunk : chunk ≠ []) (hrows : ∀ row ∈ chunk, row.length = columns.length)
    {target updates : List String} (htarget : target ≠ []) (hupdates : updates ≠ []) :
    (c.writeStatement (c.insertFragment t.pieces (Identifier.listPieces columns) columns chunk
      (conflictPieces [target] updates))).upsertion? =
        some ⟨⟨columns, chunk.map (List.zipWith c.cellWritten columns)⟩, target, updates⟩ := by
  have hmerge : Strategy.onConflict target ≠ .merge [] := nofun
  -- The text is read twice: for its `SET` clauses as tokens, and for its tuples as symbols.
  have hclauses := setClauses?_upsertPieces hd hquiet t columns chunk hupdates hmerge
    (List.forall_mem_singleton.2 htarget)
  have hvalues : (c.insertFragment t.pieces (Identifier.listPieces columns) columns chunk
      (conflictPieces [target] updates)).values =
        chunk.flatMap fun row => (c.cells columns row).values := by
    simp [insertFragment, values_pieces, values_listPieces, values_returning, values_tuples,
      values_conflictPieces]
  have hne : renderList (Symbol.rendering c.dialect) 0 (chunk.map (c.cells columns)) ≠ [] :=
    Fragment.renderList_ne_nil (by simpa using hchunk) 0
  obtain ⟨clause, hgroups⟩ := groups?_conflict hd
    (fun ch hch => hcasts ch (List.mem_cons_of_mem _ (List.mem_append_left [','] hch)))
    t columns hchunk target updates
  have hinsertion := Insertion.readBefore?_eq (Fragment.symbols_sql hd
    (c.insertFragment_legible t columns chunk [target] updates) (hcasts '"' (by decide)) 0)
    (c.isPrefixOf_symbols t columns hchunk _) hgroups hne (mapM_name?_listPieces hcolumns)
    (mapM_tuple?_cells hd (hcasts ',' (by decide)) hcolumns hrows)
  rw [← hvalues] at hinsertion
  exact Statement.upsertion?_eq hclauses hinsertion

/-! ### The upserts of a plan -/

/-- The only constraint is in the only clause of every statement. -/
theorem strategyOf_of_single {spec : ConstraintSpec} {constraint : Constraint}
    (h : spec.entries = [constraint]) (c : Compiler) (rows : RowSet) (chunk : List (List Json)) :
    c.strategyOf rows spec chunk = .onConflict constraint.columns := by
  obtain ⟨entries⟩ := spec
  obtain rfl : entries = [constraint] := h
  cases constraint <;> rfl

/-- The upsert of all records of a row set that conflict on a target. -/
def upsertion (c : Compiler) (rows : RowSet) (target updates : List String) : Upsertion :=
  ⟨⟨rows.columns, rows.rows.map (List.zipWith c.cellWritten rows.columns)⟩, target, updates⟩

/-- The upserts of the chunks of a row set, one for each statement. -/
def upsertions (c : Compiler) (rows : RowSet) (target updates : List String) : List Upsertion :=
  (c.chunked rows).map fun chunk => c.upsertion ⟨rows.columns, chunk⟩ target updates

/-- What a database stores of a record. -/
def stored {ω : Type} (c : Compiler) (st : Storage ω) (record : Record) : Row ω :=
  fun column => st.value column (c.written record column)

section Table

variable {ω : Type} [DecidableEq ω] {st : Storage ω} {rows : RowSet} {target updates : List String}

/-- The size of the chunks does not matter. -/
theorem runAll_upsertions (c : Compiler) (rows : RowSet) (target updates : List String)
    (st : Storage ω) (table : List (Row ω)) :
    Upsertion.runAll (c.upsertions rows target updates) st table =
      (c.upsertion rows target updates).run st table := by
  have hrows := (c.upsertion rows target updates).runAll_eq_run
    ((c.chunked rows).map fun chunk => chunk.map (List.zipWith c.cellWritten rows.columns)) st table
  rw [List.map_map, ← List.map_flatten, flatten_chunked] at hrows
  exact hrows

omit [DecidableEq ω] in
/-- A tuple leaves what is stored of its record. -/
theorem given_cells (c : Compiler) (st : Storage ω) (record : Record) {columns : List String}
    {column : String} (h : column ∈ columns) :
    st.given columns (columns.map (c.written record)) column = c.stored st record column := by
  have hzip : columns.zip (columns.map (c.written record)) =
      columns.map fun column => (column, c.written record column) := by
    rw [List.zip, List.zipWith_map_right, List.zipWith_self]
  rw [Storage.given, hzip, List.lookup_graph _ h]
  rfl

omit [DecidableEq ω] in
/-- Nothing is null that normalizing leaves. -/
theorem stored_ne_none {record : Record} {column : String}
    (h : c.normalizer.normalize column (record.cell column) ≠ .null) (st : Storage ω) :
    c.stored st record column ≠ none := by
  rw [stored, ← cellWritten_cell, cellWritten]
  split
  · contradiction
  · exact Option.some_ne_none _

/-- An upsert on a single constraint leaves no column out. -/
theorem isFull_upsertion {spec : ConstraintSpec} {constraint : Constraint}
    (hspec : spec.entries = [constraint])
    (hcovered : ∀ column ∈ constraint.columns, column ∈ rows.columns) (c : Compiler) :
    (c.upsertion rows constraint.columns (updateColumns rows.columns spec)).IsFull where
  target_subset := hcovered
  updates_subset := updateColumns_subset rows.columns spec
  covered column hcolumn := by
    have hcolumns := ConstraintSpec.columns_of_single hspec
    exact hcolumns ▸ mem_columns_or_mem_updateColumns hcolumn spec

/-- **Upserting the same records twice is upserting them once.**  The records are not null in the
columns of the only constraint, and no two rows of the table agree on them.  The statements of the
plan write the upserts of the chunks, and read back as them where the dialect and the casts are
legible.  A second run of them changes nothing; still no two rows agree; a row joins for every new
value of the constraint; and the row with a value of the constraint holds every column of the last
record with that value. -/
theorem runAll_of_upsert {input : Json} {records : List Record} (hinput : RecordsOf input records)
    (hkeys : ((records.headD []).map (·.1)).Nodup) (hrows : RowSet.ofJson input = .ok rows)
    {spec : ConstraintSpec} {constraint : Constraint} (hspec : spec.entries = [constraint])
    (hcovered : ∀ column ∈ constraint.columns, column ∈ rows.columns)
    (hvalues : ∀ record ∈ records, ∀ column ∈ constraint.columns,
      c.normalizer.normalize column (record.cell column) ≠ .null)
    {table : String} {plan : WritePlan} (hplan : c.upsert table rows spec = .ok plan)
    (st : Storage ω) {initial : List (Row ω)} (hinitial : Unique constraint.columns initial) :
    ∃ t us final, TableName.resolve table c.options.schema = .ok t ∧
      us = c.upsertions rows constraint.columns (updateColumns rows.columns spec) ∧
      plan.statements = (c.chunked rows).map (fun chunk => c.writeStatement
        (c.insertFragment t.pieces (Identifier.listPieces rows.columns) rows.columns chunk
          (conflictPieces [constraint.columns] (updateColumns rows.columns spec)))) ∧
      (c.dialect.Bundled → c.CastsQuiet → (∀ ch ∈ ['"', '(', ')', ','], c.CastsAvoid ch) →
        constraint.columns ≠ [] → plan.statements.mapM Statement.upsertion? = some us) ∧
      final = Upsertion.runAll us st initial ∧
      Upsertion.runAll us st final = final ∧
      Settled constraint.columns rows.columns (records.map (c.stored st)) initial final := by
  have hcolumns_ne := RowSet.columns_ne_nil hrows
  rw [RowSet.ofJson_eq hinput] at hrows
  obtain ⟨-, hcolumns, -, hcells⟩ := RowSet.ofRecords_eq hrows
  rw [← hcolumns] at hkeys
  -- What the rows hold are the records, column by column.
  have hrecords : rows.rows = records.map fun record => rows.columns.map record.cell := by
    rw [hcells]
    exact List.map_congr_left fun record _ => RowSet.cells_eq record hkeys
  have htuples : (c.upsertion rows constraint.columns (updateColumns rows.columns spec)).tuples =
      records.map fun record => rows.columns.map (c.written record) := by
    rw [upsertion, hrecords, List.map_map]
    exact List.map_congr_left fun record _ => c.zipWith_cellWritten record rows.columns
  -- The upsert is full: every column of the records is in its target or is set.
  have hfull := isFull_upsertion hspec hcovered c
  have hgiven : ∀ record ∈ records, ∀ column ∈ rows.columns,
      st.given rows.columns (rows.columns.map (c.written record)) column =
        c.stored st record column :=
    fun record _ column hcolumn => c.given_cells st record hcolumn
  have hstored : ∀ record ∈ records, ∀ column ∈ constraint.columns,
      c.stored st record column ≠ none := fun record hrecord column hcolumn =>
    stored_ne_none (hvalues record hrecord column hcolumn) st
  obtain ⟨t, ht⟩ := exists_resolve_of_upsert hplan
  obtain ⟨-, rfl⟩ := (upsert_yields ht rows spec).eq_of_ok hplan
  -- With one constraint every dialect writes one conflict clause, however many records there are.
  have hstatements : (c.chunked rows).map (fun chunk => c.writeStatement
      (c.upsertPieces t.pieces rows.columns chunk (updateColumns rows.columns spec)
        (c.strategyOf rows spec chunk))) =
      (c.chunked rows).map (fun chunk => c.writeStatement
        (c.insertFragment t.pieces (Identifier.listPieces rows.columns) rows.columns chunk
          (conflictPieces [constraint.columns] (updateColumns rows.columns spec)))) :=
    List.map_congr_left fun chunk _ => by
      rw [strategyOf_of_single hspec]
      rfl
  have hlength : ∀ row ∈ rows.rows, row.length = rows.columns.length := by
    rw [hrecords, List.forall_mem_map]
    intro record _
    exact List.length_map _
  refine ⟨t, _, _, ht, rfl, hstatements, fun hd hquiet hcasts htarget => ?_, rfl, ?_, ?_⟩
  · rw [hstatements, List.mapM_map]
    refine mapM_eq_some fun chunk hchunk => ?_
    refine upsertion?_insertFragment hd hquiet hcasts t hcolumns_ne
      (List.length_pos_iff.1 (length_of_mem_chunks hchunk).1) (fun row hrow => hlength row ?_)
      htarget (updateColumns_ne_nil hcolumns_ne spec)
    rw [← c.flatten_chunked rows]
    exact List.mem_flatten_of_mem hchunk hrow
  · rw [runAll_upsertions, runAll_upsertions]
    exact Upsertion.run_run hfull
      (Upsertion.none_not_mem_key hfull htuples hgiven hstored) initial
  · rw [runAll_upsertions]
    exact Upsertion.settled_run hfull htuples hgiven hstored hinitial

end Table

/-- Three records in chunks of two, the last one with the id of the first, and a table that has the
id of the second. -/
theorem runAll_of_upsert_repeated :
    ∃ rows plan us final,
      RowSet.ofJson (.arr [.obj [("id", .int 1), ("name", .str "a")],
        .obj [("id", .int 2), ("name", .str "b")],
        .obj [("id", .int 1), ("name", .str "c")]]) = .ok rows ∧
      (ofDialect .postgres { batchSize := 2 }).upsert "user" rows ⟨[.simple "id"]⟩ = .ok plan ∧
      plan.statements.mapM Statement.upsertion? = some us ∧
      final = Upsertion.runAll us (⟨fun _ v _ => v, fun _ _ => none⟩ : Storage SqlValue)
        [fun column => if column = "id" then some (.int 2) else none] ∧
      Upsertion.runAll us ⟨fun _ v _ => v, fun _ _ => none⟩ final = final ∧
      final.length = 2 ∧
      ∃ row ∈ final, row "id" = some (.int 1) ∧ row "name" = some (.text "c") := by
  have hinput := RecordsOf.many [[("id", .int 1), ("name", .str "a")],
    [("id", .int 2), ("name", .str "b")], [("id", .int 1), ("name", .str "c")]]
  have hvalues : ∀ record ∈ [[("id", Json.int 1), ("name", .str "a")],
      [("id", .int 2), ("name", .str "b")], [("id", .int 1), ("name", .str "c")]],
      ∀ column ∈ (Constraint.simple "id").columns,
        (ofDialect .postgres { batchSize := 2 }).normalizer.normalize column
          (Record.cell record column) ≠ .null := by
    simp [Constraint.columns, Normalizer.normalize_eq_null, Record.cell]
  have ht : TableName.resolve "user" (ofDialect .postgres { batchSize := 2 }).options.schema =
      .ok ⟨none, "user"⟩ := rfl
  have hplan := (upsert_yields ht ⟨["id", "name"],
    [[.int 1, .str "a"], [.int 2, .str "b"], [.int 1, .str "c"]]⟩ ⟨[.simple "id"]⟩ _).2
      ⟨⟨by decide, fun chunk _ => by rw [strategyOf_of_single rfl]; decide⟩, rfl⟩
  obtain ⟨t, us, final, -, -, -, hread, hfinal, htwice, hsettled⟩ :=
    runAll_of_upsert hinput (by decide) rfl rfl (by decide) hvalues hplan
      (⟨fun _ v _ => v, fun _ _ => none⟩ : Storage SqlValue)
      (List.pairwise_singleton _ fun column => if column = "id" then some (.int 2) else none)
  have hquiet : (ofDialect .postgres { batchSize := 2 }).CastsQuiet :=
    forall_mem_of_all (by decide)
  have havoid : ∀ ch ∈ ['"', '(', ')', ','],
      ∀ target ∈ (ofDialect .postgres { batchSize := 2 }).castTargets, ch ∉ target.toList :=
    forall_mem_of_all (by decide)
  obtain ⟨⟨row, hrow, hid⟩, hholds⟩ := hsettled.last [_, _] _ [] rfl (by simp)
  refine ⟨_, _, us, final, rfl, hplan, hread .postgres hquiet havoid (by decide), hfinal, htwice,
    ?_, row, hrow, ?_, ?_⟩
  · rw [hsettled.length]
    decide
  · exact hholds row hrow hid "id" (by decide)
  · exact hholds row hrow hid "name" (by decide)

end Compiler
end Querysmith
