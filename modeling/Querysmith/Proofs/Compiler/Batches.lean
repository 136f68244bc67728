/-
# The batches of a write

A write goes out in batches, one statement each.  How many records a batch holds is what the batch
size and the bound on parameters allow for records of so many cells, and at least one; the division
behind it rounds down, so one record more would be too many (`chunkSize_greatest`).  The statement
of a batch is the one that is compiled for the batch alone, it binds a value a cell at most, and its
text tells how many records it writes: an insert has a tuple for each, whatever conflict clauses
stand behind them, and a merge writes a single one (`Statement.records?`).
-/

import Querysmith.Proofs.Compiler.Repetition
import Querysmith.Proofs.Compiler.Strategies

namespace Querysmith

open Sql
open Sql.Symbol (chars)

open Fragment (symbols render renderList)

/-! ### The size of a batch -/

namespace Compiler

variable (c : Compiler) {columns : Nat}

/-- A statement takes no more records than the size of a batch, and one if that size is zero. -/
theorem chunkSize_le (columns : Nat) : c.chunkSize columns ≤ max c.options.batchSize 1 := by
  unfold chunkSize
  omega

/-- Records of a batch have room for their cells, when a single one has. -/
theorem chunkSize_mul_le (hcolumns : 0 < columns) (hfits : columns ≤ c.dialect.maxParameters) :
    c.chunkSize columns * columns ≤ c.dialect.maxParameters := by
  have hone : 1 ≤ c.dialect.maxParameters / columns := (Nat.one_le_div_iff hcolumns).2 hfits
  have hle : c.chunkSize columns ≤ c.dialect.maxParameters / columns := by
    unfold chunkSize
    rw [Nat.max_eq_left hcolumns]
    omega
  exact (Nat.mul_le_mul_right columns hle).trans (Nat.div_mul_le_self _ _)

/-- Records that are too wide are written one by one. -/
theorem chunkSize_eq_one (hwide : c.dialect.maxParameters < columns) :
    c.chunkSize columns = 1 := by
  have hnone : c.dialect.maxParameters / max columns 1 = 0 := by
    rw [Nat.max_eq_left (by omega)]
    exact Nat.div_eq_of_lt hwide
  rw [chunkSize, hnone, Nat.min_zero]
  rfl

/-- **No larger batch is allowed:** either the batch size stops it, or one record more has more
cells than may be bound. -/
theorem chunkSize_greatest (hcolumns : 0 < columns) :
    c.chunkSize columns = max c.options.batchSize 1 ∨
      c.dialect.maxParameters < (c.chunkSize columns + 1) * columns := by
  have hcut : c.dialect.maxParameters < (c.dialect.maxParameters / columns + 1) * columns := by
    rw [Nat.mul_comm]
    exact Nat.lt_mul_div_succ _ hcolumns
  by_cases hsize : c.options.batchSize ≤ c.dialect.maxParameters / columns
  · left
    rw [chunkSize, Nat.max_eq_left hcolumns, Nat.min_eq_left hsize]
  · right
    refine hcut.trans_le (Nat.mul_le_mul_right columns ?_)
    unfold chunkSize
    rw [Nat.max_eq_left hcolumns]
    omega

end Compiler

/-- Full batches and one that is not empty are as many as a division rounded up says. -/
theorem length_of_full_batches {full size last : Nat} (hlast : 0 < last) (hle : last ≤ size) :
    full + 1 = (full * size + last + size - 1) / size := by
  rw [eq_comm, Nat.div_eq_iff (by omega), Nat.add_mul, Nat.one_mul]
  omega

/-- Only a single record is merged. -/
theorem Strategy.rows_of_merge {d : Dialect} {spec : ConstraintSpec} {rows : Nat}
    {columns : List String} {groups : List (List String)}
    (h : choose d spec rows columns = .merge groups) : rows = 1 := by
  grind [choose]

/-! ### How many records a text writes -/

namespace Sql.Insertion

/-- How many parenthesized parts follow each other like tuples, one at least. -/
def run (parts : List (List Symbol × List Symbol)) : Nat :=
  (parts.takeWhile fun part => part.2 = chars ", ".toList).length + 1

/-- Parts that follow each other with commas between them are counted one by one; what comes behind
the last one is another text. -/
theorem run_spaced {after : List Symbol} (hafter : after ≠ chars ", ".toList)
    {parts : List (List Symbol)} (hne : parts ≠ []) (clauses : List (List Symbol × List Symbol)) :
    run (spaced after parts ++ clauses) = parts.length := by
  fun_induction spaced after parts with
  | case1 => exact absurd rfl hne
  | case2 part =>
    rw [run, List.singleton_append, List.takeWhile_cons_of_neg (by simpa using hafter)]
    rfl
  | case3 part rest hrest ih =>
    have hcons : rest ≠ [] := by
      rintro rfl
      exact hrest rfl
    have hrun := ih hcons
    rw [run] at hrun ⊢
    rw [List.cons_append, List.takeWhile_cons_of_pos (by simp), List.length_cons, hrun,
      List.length_cons]

/-- Without parentheses there are no parts. -/
theorem groups?_of_not_mem {ss : List Symbol} (h : .char '(' ∉ ss) : groups? ss = some [] := by
  rw [groups?, List.splitOn_eq_singleton h]
  rfl

/-- A parenthesized part before anything. -/
theorem exists_groups?_part {before part : List Symbol} (hbefore : .char '(' ∉ before)
    (hopen : .char '(' ∉ part) (hclose : .char ')' ∉ part) (tail : List Symbol) :
    ∃ between, groups? (before ++ .char '(' :: (part ++ .char ')' :: tail)) =
      (groups? tail).map ((part, between) :: ·) := by
  by_cases htail : Symbol.char '(' ∈ tail
  · obtain ⟨between, rest, rfl, hbetween⟩ := List.eq_append_cons_of_mem htail
    exact ⟨between, groups?_cons hbefore hopen hclose hbetween rest⟩
  · have h := groups?_intercalate (List.forall_mem_singleton.2 hopen)
      (List.forall_mem_singleton.2 hclose) htail hbefore (List.cons_ne_nil _ [])
    rw [List.intercalate_singleton] at h
    exact ⟨tail, by rw [h, groups?_of_not_mem htail]; rfl⟩

end Sql.Insertion

/-- How many records a statement writes, as its text tells: one for each tuple behind `VALUES`, or
a single one that a merge reads from its only value. -/
def Statement.records? (s : Statement) : Option Nat := do
  let ss ← Symbol.read? s.sql.toList
  if (chars "WITH source_data AS (SELECT ".toList).isPrefixOf ss then
    guard (s.params.length = 1)
    return 1
  else
    match ← Insertion.groups? ss with
    | (_, after) :: tuples =>
      guard (after = chars " VALUES ".toList ∧ tuples ≠ [])
      return Insertion.run tuples
    | [] => none

/-- The records of an insert are counted by its tuples. -/
theorem Statement.records?_eq {sql : String} {params : List SqlValue} {returnsRows : Bool}
    {ss columnList after : List Symbol} {parts : List (List Symbol)}
    {clauses : List (List Symbol × List Symbol)} (hread : Symbol.read? sql.toList = some ss)
    (hmerge : (chars "WITH source_data AS (SELECT ".toList).isPrefixOf ss = false)
    (hgroups : Insertion.groups? ss = some ((columnList, chars " VALUES ".toList) ::
      (Insertion.spaced after parts ++ clauses)))
    (hafter : after ≠ chars ", ".toList) (hne : parts ≠ []) :
    records? ⟨sql, params, returnsRows⟩ = some parts.length := by
  have hspaced : Insertion.spaced after parts ++ clauses ≠ [] := fun hnil => hne (by
    rw [← Insertion.map_fst_spaced after parts, List.append_eq_nil_iff.1 hnil |>.1, List.map_nil])
  rw [records?, hread, Option.bind_eq_bind, Option.bind_some, hmerge]
  simp only [Bool.false_eq_true, if_false, hgroups, Option.bind_eq_bind, Option.bind_some, guard,
    true_and, if_pos hspaced, Insertion.run_spaced hafter hne]
  rfl

/-- A merge has one record. -/
theorem Statement.records?_eq_one {sql : String} {params : List SqlValue} {returnsRows : Bool}
    {ss : List Symbol} (hread : Symbol.read? sql.toList = some ss)
    (hmerge : (chars "WITH source_data AS (SELECT ".toList).isPrefixOf ss = true)
    (hparams : params.length = 1) : records? ⟨sql, params, returnsRows⟩ = some 1 := by
  rw [records?, hread, Option.bind_eq_bind, Option.bind_some, if_pos hmerge, hparams]
  rfl

namespace Compiler

variable {c : Compiler}

/-- Conflict clauses and what follows them have a parenthesized part for each target. -/
theorem exists_groups?_conflicts (hd : c.dialect.Bundled) (updates : List String) (bound : Nat)
    (targets : List (List String)) {before : List Symbol} (hbefore : .char '(' ∉ before) :
    ∃ clauses, Insertion.groups? (before ++
      symbols c.dialect bound (conflictPieces targets updates ++ c.returning)) = some clauses := by
  -- What a clause sets stands before the target of the next one, so the text before is general.
  induction targets generalizing before with
  | nil =>
    refine ⟨[], Insertion.groups?_of_not_mem ?_⟩
    rw [List.mem_append, not_or]
    exact ⟨hbefore, c.not_mem_returning bound⟩
  | cons target targets ih =>
    have hconflict : Symbol.char '(' ∉ before ++ chars " ON CONFLICT ".toList := by
      rw [List.mem_append, not_or]
      exact ⟨hbefore, by decide⟩
    have hopen := Fragment.not_mem_symbols hd (c := '(') rfl
      (listPieces_avoid target (by decide)) bound
    have hclose := Fragment.not_mem_symbols hd (c := ')') rfl
      (listPieces_avoid target (by decide)) bound
    have hset : Symbol.char '(' ∉ chars " DO UPDATE SET ".toList ++
        symbols c.dialect bound (assignmentPieces "EXCLUDED" updates) := by
      rw [List.mem_append, not_or]
      exact ⟨by decide, Fragment.not_mem_symbols hd rfl (assignmentPieces_avoid updates) bound⟩
    obtain ⟨clauses, hclauses⟩ := ih hset
    obtain ⟨between, hpart⟩ := Insertion.exists_groups?_part hconflict hopen hclose
      (chars " DO UPDATE SET ".toList ++
        symbols c.dialect bound (assignmentPieces "EXCLUDED" updates) ++
          symbols c.dialect bound (conflictPieces targets updates ++ c.returning))
    rw [hclauses] at hpart
    refine ⟨_, Eq.trans (congrArg Insertion.groups? ?_) hpart⟩
    simp [conflictPieces, render, Fragment.render_append, values_listPieces,
      values_assignmentPieces, chars]

/-- The parenthesized parts of an insert: its columns and its tuples, and then those of the conflict
clauses. -/
theorem exists_groups?_insertFragment (hd : c.dialect.Bundled)
    (hcasts : ∀ ch ∈ ['(', ')'], c.CastsAvoid ch) (t : TableName) (columns : List String)
    {chunk : List (List Json)} (hchunk : chunk ≠ []) (targets : List (List String))
    (updates : List String) :
    ∃ after clauses, after ≠ chars ", ".toList ∧
      Insertion.groups? (symbols c.dialect 0 (c.insertFragment t.pieces
        (Identifier.listPieces columns) columns chunk (conflictPieces targets updates))) =
        some ((symbols c.dialect 0 (Identifier.listPieces columns), chars " VALUES ".toList) ::
          (Insertion.spaced after (renderList (Symbol.rendering c.dialect) 0
            (chunk.map (c.cells columns))) ++ clauses)) := by
  have hvalues : Symbol.char '(' ∉ chars " VALUES ".toList := by decide
  have hne : renderList (Symbol.rendering c.dialect) 0 (chunk.map (c.cells columns)) ≠ [] :=
    Fragment.renderList_ne_nil (by simpa using hchunk) 0
  -- A bracket inside a tuple would end it too early, and no cell writes one.
  have hopen := not_mem_cells hd (hcasts '(' (by decide)) rfl (by decide) (by decide) columns chunk
  have hclose := not_mem_cells hd (hcasts ')' (by decide)) rfl (by decide) (by decide) columns chunk
  cases targets with
  | nil =>
    refine ⟨symbols c.dialect (c.tuples columns chunk).values.length c.returning, [], ?_, ?_⟩
    · rcases c.symbols_returning (c.tuples columns chunk).values.length with h | h <;> rw [h] <;>
        decide
    · rw [List.append_nil]
      exact groups?_insertFragment hd hcasts t columns hchunk
  | cons target targets =>
    have hconflict : Symbol.char '(' ∉ chars " ON CONFLICT ".toList := by decide
    obtain ⟨clauses, hclauses⟩ := exists_groups?_conflicts hd updates
      (c.tuples columns chunk).values.length (target :: targets) List.not_mem_nil
    -- The first conflict clause opens its list right behind the tuples.
    obtain ⟨rest, hrest⟩ : ∃ rest, symbols c.dialect (c.tuples columns chunk).values.length
        (conflictPieces (target :: targets) updates ++ c.returning) =
          chars " ON CONFLICT ".toList ++ .char '(' :: rest := by
      obtain ⟨clause, hclause⟩ : ∃ clause, conflictPieces (target :: targets) updates =
          .text " ON CONFLICT (" :: clause := ⟨_, rfl⟩
      exact ⟨_, by rw [hclause]; rfl⟩
    rw [List.nil_append, hrest] at hclauses
    refine ⟨chars " ON CONFLICT ".toList, clauses, by decide, ?_⟩
    rw [groups?_symbols hd t columns hchunk, hrest,
      Insertion.groups?_intercalate_append hopen hclose hconflict hvalues hne, hclauses]
    rfl

/-- **An insert writes a record a tuple,** whatever its conflict clauses. -/
theorem records?_insertFragment (hd : c.dialect.Bundled)
    (hcasts : ∀ ch ∈ ['"', '(', ')'], c.CastsAvoid ch) (t : TableName) (columns : List String)
    {chunk : List (List Json)} (hchunk : chunk ≠ []) (targets : List (List String))
    (updates : List String) :
    (c.writeStatement (c.insertFragment t.pieces (Identifier.listPieces columns) columns chunk
      (conflictPieces targets updates))).records? = some chunk.length := by
  have hread := Fragment.symbols_sql hd
    (c.insertFragment_legible t columns chunk targets updates) (hcasts '"' (by decide)) 0
  obtain ⟨after, clauses, hafter, hgroups⟩ := exists_groups?_insertFragment hd
    (fun ch hch => hcasts ch (List.mem_cons_of_mem _ hch)) t columns hchunk targets updates
  have hne : renderList (Symbol.rendering c.dialect) 0 (chunk.map (c.cells columns)) ≠ [] :=
    Fragment.renderList_ne_nil (by simpa using hchunk) 0
  have hmerge : (chars "WITH source_data AS (SELECT ".toList).isPrefixOf
      (symbols c.dialect 0 (c.insertFragment t.pieces (Identifier.listPieces columns) columns chunk
        (conflictPieces targets updates))) = false := by
    rw [symbols_insertFragment c t columns hchunk]
    rfl
  rw [writeStatement, Statement.ofFragment,
    Statement.records?_eq hread hmerge hgroups hafter hne, Fragment.length_renderList,
    List.length_map]

/-- An insert binds what its tuples bind: conflict clauses bind nothing. -/
theorem values_insertFragment (c : Compiler) (t : TableName) (columns : List String)
    (chunk : List (List Json)) (targets : List (List String)) (updates : List String) :
    (c.insertFragment t.pieces (Identifier.listPieces columns) columns chunk
      (conflictPieces targets updates)).values = (c.tuples columns chunk).values := by
  simp [insertFragment, values_pieces, values_listPieces, values_returning, values_conflictPieces]

/-- The groups of a merge bind nothing. -/
theorem values_matchPieces (groups : List (List String)) :
    Fragment.values (matchPieces groups) = [] := by
  simp [matchPieces, Fragment.values_joined, List.flatMap_map]

/-- **A merge binds one text,** the record as a document. -/
theorem values_mergePieces (c : Compiler) (t : TableName) (columns : List String)
    (row : List Json) (groups : List (List String)) (updates : List String) :
    (c.mergePieces t.pieces columns row groups updates).values =
      [.text (c.sourceRecord columns row).text] := by
  simp [mergePieces, values_pieces, values_listPieces, values_assignmentPieces, values_matchPieces,
    values_conflictPieces]

/-- **A merge writes one record.** -/
theorem records?_mergePieces (hd : c.dialect.Bundled) (hcasts : c.CastsAvoid '"') (t : TableName)
    (columns : List String) (row : List Json) (groups : List (List String))
    (updates : List String) :
    (c.writeStatement (c.mergePieces t.pieces columns row groups updates)).records? = some 1 := by
  have hread := Fragment.symbols_sql hd
    (c.mergePieces_legible t columns row groups updates) hcasts 0
  have hmerge : (chars "WITH source_data AS (SELECT ".toList).isPrefixOf
      (symbols c.dialect 0 (c.mergePieces t.pieces columns row groups updates)) = true := by
    obtain ⟨rest, hrest⟩ : ∃ rest, c.mergePieces t.pieces columns row groups updates =
        .text "WITH source_data AS (SELECT " :: rest := ⟨_, rfl⟩
    rw [hrest, List.isPrefixOf_iff_prefix]
    exact List.prefix_append _ _
  rw [writeStatement, Statement.ofFragment]
  exact Statement.records?_eq_one hread hmerge (by rw [values_mergePieces]; rfl)

/-! ### The statements of a write -/

/-- What writes a row set: an insert, or an upsert on what is declared. -/
def writing (c : Compiler) (table : String) (spec : Option ConstraintSpec) (rows : RowSet) :
    Except Error WritePlan :=
  match spec with
  | none => c.insert table rows
  | some spec => c.upsert table rows spec

/-- The statement of a batch. -/
def batchStatement (c : Compiler) (t : TableName) (spec : Option ConstraintSpec)
    (columns : List String) (batch : List (List Json)) : Statement :=
  c.writeStatement <| match spec with
    | none => c.insertFragment t.pieces (Identifier.listPieces columns) columns batch []
    | some spec => c.upsertPieces t.pieces columns batch (updateColumns columns spec)
        (Strategy.choose c.dialect spec batch.length columns)

/-- **The statement of a batch is an insert of all its records, or a merge of a single one.** -/
theorem batchStatement_cases (c : Compiler) (t : TableName) (spec : Option ConstraintSpec)
    (columns : List String) (batch : List (List Json)) :
    (∃ targets updates, c.batchStatement t spec columns batch =
      c.writeStatement (c.insertFragment t.pieces (Identifier.listPieces columns) columns batch
        (conflictPieces targets updates))) ∨
    (batch.length = 1 ∧ ∃ groups updates, c.batchStatement t spec columns batch =
      c.writeStatement (c.mergePieces t.pieces columns (batch.headD []) groups updates)) := by
  cases spec with
  | none => exact .inl ⟨[], [], rfl⟩
  | some spec =>
    cases hstrategy : Strategy.choose c.dialect spec batch.length columns with
    | merge groups =>
      refine .inr ⟨Strategy.rows_of_merge hstrategy, groups, updateColumns columns spec, ?_⟩
      simp only [batchStatement, hstrategy, upsertPieces]
    | plain | onConflict _ | chained _ =>
      refine .inl ⟨(Strategy.choose c.dialect spec batch.length columns).targets,
        updateColumns columns spec, ?_⟩
      simp only [batchStatement, hstrategy, upsertPieces]

/-- A cell binds a value at most. -/
theorem length_values_cell (c : Compiler) (column : String) (v : Json) :
    (c.cell column v).values.length ≤ 1 := by
  rw [cell]
  split
  · exact Nat.zero_le 1
  · exact Nat.le_refl 1

/-- A record binds at most one value for each column; a null is written out. -/
theorem length_values_cells (c : Compiler) (columns : List String) (row : List Json) :
    (c.cells columns row).values.length ≤ columns.length := by
  have hcell : ∀ f ∈ List.zipWith c.cell columns row, (Fragment.values f).length ≤ 1 := by
    rw [← List.map_uncurry_zip_eq_zipWith, List.forall_mem_map]
    exact fun x _ => c.length_values_cell x.1 x.2
  have hcells := length_flatMap_le hcell
  rw [cells, Fragment.values_joined]
  rw [List.length_zipWith, Nat.mul_one] at hcells
  exact hcells.trans (Nat.min_le_left _ _)

/-- A statement binds a value a cell at most. -/
theorem length_params_batchStatement (c : Compiler) (t : TableName) (spec : Option ConstraintSpec)
    {columns : List String} (hcolumns : columns ≠ []) (batch : List (List Json)) :
    (c.batchStatement t spec columns batch).params.length ≤ batch.length * columns.length := by
  rcases c.batchStatement_cases t spec columns batch with
    ⟨targets, updates, h⟩ | ⟨hone, groups, updates, h⟩
  · rw [h, writeStatement, Statement.ofFragment, values_insertFragment, values_tuples]
    exact length_flatMap_le fun row _ => c.length_values_cells columns row
  · have hpos := List.length_pos_iff.2 hcolumns
    rw [h, writeStatement, Statement.ofFragment, values_mergePieces, hone, Nat.one_mul]
    exact hpos

/-- **From the text of a batch its records can be counted.** -/
theorem records?_batchStatement (hd : c.dialect.Bundled)
    (hcasts : ∀ ch ∈ ['"', '(', ')'], c.CastsAvoid ch) (t : TableName)
    (spec : Option ConstraintSpec) (columns : List String) {batch : List (List Json)}
    (hbatch : batch ≠ []) : (c.batchStatement t spec columns batch).records? =
      some batch.length := by
  rcases c.batchStatement_cases t spec columns batch with
    ⟨targets, updates, h⟩ | ⟨hone, groups, updates, h⟩
  · rw [h]
    exact records?_insertFragment hd hcasts t columns hbatch targets updates
  · rw [h, hone]
    exact records?_mergePieces hd (hcasts '"' (by decide)) t columns (batch.headD []) groups updates

/-- **A write has a statement for each chunk,** the one that the chunk has when it is written
alone. -/
theorem exists_batchStatements {table : String} {spec : Option ConstraintSpec} {rows : RowSet}
    {plan : WritePlan} (h : c.writing table spec rows = .ok plan) :
    ∃ t, plan.statements = (c.chunked rows).map (c.batchStatement t spec rows.columns) ∧
      ∀ batch ∈ c.chunked rows, c.writing table spec ⟨rows.columns, batch⟩ =
        .ok ⟨[c.batchStatement t spec rows.columns batch], batch.length⟩ := by
  -- A chunk is no longer than a chunk may be, so written alone it stays in one piece.
  have halone : ∀ batch ∈ c.chunked rows, c.chunked ⟨rows.columns, batch⟩ = [batch] := by
    intro batch hbatch
    obtain ⟨hpos, hle⟩ := length_of_mem_chunks hbatch
    exact chunks_of_length_le (List.length_pos_iff.1 hpos) hle
  cases spec with
  | none =>
    obtain ⟨t, ht⟩ := exists_resolve_of_ok h
    obtain ⟨husable, rfl⟩ := (insert_yields ht rows).eq_of_ok h
    refine ⟨t, rfl, fun batch hbatch => ?_⟩
    have hbatches := (insert_yields ht ⟨rows.columns, batch⟩ _).2 ⟨husable, rfl⟩
    rw [halone batch hbatch] at hbatches
    exact hbatches
  | some spec =>
    obtain ⟨t, ht⟩ := exists_resolve_of_upsert h
    obtain ⟨⟨htable, husable⟩, rfl⟩ := (upsert_yields ht rows spec).eq_of_ok h
    refine ⟨t, rfl, fun batch hbatch => ?_⟩
    have hbatches := (upsert_yields ht ⟨rows.columns, batch⟩ spec _).2 ⟨⟨htable, by
      rw [halone batch hbatch]
      exact List.forall_mem_singleton.2 (husable batch hbatch)⟩, rfl⟩
    rw [halone batch hbatch] at hbatches
    exact hbatches

/-! ### The batches of a plan -/

/-- **What a plan does with its records** when `size` is the size of its batches. -/
structure Batched (c : Compiler) (table : String) (spec : Option ConstraintSpec) (rows : RowSet)
    (plan : WritePlan) (size : Nat) : Prop where
  /-- A batch has room for a record, and for no more records than wanted. -/
  bounds : 1 ≤ size ∧ size ≤ max c.options.batchSize 1
  /-- A larger batch is not wanted, or its records have more cells than may be bound. -/
  greatest : size = max c.options.batchSize 1 ∨
    c.dialect.maxParameters < (size + 1) * rows.columns.length
  /-- The batches are as many as the records fill, the last one perhaps in part. -/
  length_statements : plan.statements.length = (rows.rows.length + size - 1) / size
  /-- Batch for batch the plan is the records: all batches but the last are full, the statement of
  a batch is the only one of the plan for its records, and its text counts them. -/
  batches : ∃ (init : List (List (List Json))) (last : List (List Json)),
    (init ++ [last]).flatten = rows.rows ∧ (∀ batch ∈ init, batch.length = size) ∧
    (1 ≤ last.length ∧ last.length ≤ size) ∧
    List.Forall₂ (fun batch s =>
        c.writing table spec ⟨rows.columns, batch⟩ = .ok ⟨[s], batch.length⟩ ∧
        (c.dialect.Bundled → (∀ ch ∈ ['"', '(', ')'], c.CastsAvoid ch) →
          s.records? = some batch.length))
      (init ++ [last]) plan.statements
  /-- No statement binds more values than the dialect allows, when a record has room. -/
  length_params : rows.columns.length ≤ c.dialect.maxParameters →
    ∀ s ∈ plan.statements, s.params.length ≤ c.dialect.maxParameters
  /-- Records that are too wide for it have a statement each. -/
  wide : c.dialect.maxParameters < rows.columns.length → size = 1

/-- **Every write is in batches that are as large as they may be.** -/
theorem batched_of_writing {input : Json} {rows : RowSet} (hrows : RowSet.ofJson input = .ok rows)
    {table : String} {spec : Option ConstraintSpec} {plan : WritePlan}
    (hplan : c.writing table spec rows = .ok plan) :
    c.Batched table spec rows plan (c.chunkSize rows.columns.length) := by
  have hcolumns := RowSet.columns_ne_nil hrows
  have hpos := List.length_pos_iff.2 hcolumns
  obtain ⟨init, last, hchunks, hinit, hlast, hle, hlength⟩ :=
    exists_chunks (c.chunkSize_pos rows.columns.length) (RowSet.rows_ne_nil hrows)
  obtain ⟨t, hstatements, halone⟩ := exists_batchStatements hplan
  have hchunked : c.chunked rows = init ++ [last] := hchunks
  have hflatten := c.flatten_chunked rows
  constructor
  · exact ⟨c.chunkSize_pos _, c.chunkSize_le _⟩
  · exact c.chunkSize_greatest hpos
  · rw [hstatements, List.length_map, hchunked, List.length_append, List.length_singleton, hlength]
    exact length_of_full_batches hlast hle
  · refine ⟨init, last, hchunked ▸ hflatten, hinit, ⟨hlast, hle⟩, ?_⟩
    rw [← hchunked, hstatements, List.forall₂_map_right_iff, List.forall₂_same]
    refine fun batch hbatch => ⟨halone batch hbatch, fun hd hcasts => ?_⟩
    exact records?_batchStatement hd hcasts t spec rows.columns
      (List.length_pos_iff.1 (length_of_mem_chunks hbatch).1)
  · intro hfits s hs
    rw [hstatements] at hs
    obtain ⟨batch, hbatch, rfl⟩ := List.mem_map.1 hs
    -- A batch binds at most one value for each of its cells, and a merge binds one document.
    calc (c.batchStatement t spec rows.columns batch).params.length
        ≤ batch.length * rows.columns.length := c.length_params_batchStatement t spec hcolumns batch
      _ ≤ c.chunkSize rows.columns.length * rows.columns.length :=
        Nat.mul_le_mul_right _ (length_of_mem_chunks hbatch).2
      _ ≤ c.dialect.maxParameters := c.chunkSize_mul_le hpos hfits
  · exact fun hwide => c.chunkSize_eq_one hwide

/-- Three records of two columns, at most two of them at once, and a constraint on each column: an
insert of two records with a conflict clause, and a merge of the third one. -/
theorem batched_of_writing_merged :
    ∃ rows plan,
      RowSet.ofJson (.arr [.obj [("id", .int 1), ("name", .str "a")],
        .obj [("id", .int 2), ("name", .null)], .obj [("id", .int 3), ("name", .str "c")]]) =
        .ok rows ∧
      (ofDialect .postgres { batchSize := 2 }).writing "user"
        (some ⟨[.simple "id", .simple "name"]⟩) rows = .ok plan ∧
      (ofDialect .postgres { batchSize := 2 }).Batched "user"
        (some ⟨[.simple "id", .simple "name"]⟩) rows plan 2 ∧
      plan.statements.length = 2 ∧ plan.statements.map (·.params.length) = [3, 1] ∧
      plan.statements.map Statement.records? = [some 2, some 1] := by
  have ht : TableName.resolve "user" (ofDialect .postgres { batchSize := 2 }).options.schema =
      .ok ⟨none, "user"⟩ := rfl
  have hrows : RowSet.ofJson (.arr [.obj [("id", .int 1), ("name", .str "a")],
      .obj [("id", .int 2), ("name", .null)], .obj [("id", .int 3), ("name", .str "c")]]) =
      .ok ⟨["id", "name"], [[.int 1, .str "a"], [.int 2, .null], [.int 3, .str "c"]]⟩ := rfl
  have hchunked : (ofDialect .postgres { batchSize := 2 }).chunked ⟨["id", "name"],
      [[.int 1, .str "a"], [.int 2, .null], [.int 3, .str "c"]]⟩ =
        [[[.int 1, .str "a"], [.int 2, .null]], [[.int 3, .str "c"]]] := by
    simp [chunked, chunkSize, ofDialect, Dialect.postgres, chunks]
  have hcasts : ∀ ch ∈ ['"', '(', ')'],
      ∀ target ∈ (ofDialect .postgres { batchSize := 2 }).castTargets, ch ∉ target.toList :=
    forall_mem_of_all (by decide)
  have hrecords : ∀ batch : List (List Json), batch ≠ [] →
      ((ofDialect .postgres { batchSize := 2 }).batchStatement ⟨none, "user"⟩
        (some ⟨[.simple "id", .simple "name"]⟩) ["id", "name"] batch).records? =
          some batch.length :=
    fun batch => records?_batchStatement .postgres hcasts _ _ _
  obtain ⟨plan, hplan, hstatements⟩ : ∃ plan : WritePlan,
      (ofDialect .postgres { batchSize := 2 }).writing "user"
        (some ⟨[.simple "id", .simple "name"]⟩) ⟨["id", "name"],
          [[.int 1, .str "a"], [.int 2, .null], [.int 3, .str "c"]]⟩ = .ok plan ∧
      plan.statements.map (·.params.length) = [3, 1] ∧
      plan.statements.map Statement.records? = [some 2, some 1] := by
    have hplan := (upsert_yields ht ⟨["id", "name"],
      [[.int 1, .str "a"], [.int 2, .null], [.int 3, .str "c"]]⟩
        ⟨[.simple "id", .simple "name"]⟩ _).2 ⟨by rw [hchunked]; decide, rfl⟩
    rw [hchunked] at hplan
    exact ⟨_, hplan, by decide +kernel, congrArg₂ (fun n m => [n, m])
      (hrecords [_, _] (List.cons_ne_nil _ _)) (hrecords [_] (List.cons_ne_nil _ _))⟩
  have hbatched := batched_of_writing hrows hplan
  have hlength : plan.statements.length = 2 := hbatched.length_statements
  exact ⟨_, plan, hrows, hplan, hbatched, hlength, hstatements⟩

end Compiler

end Querysmith
