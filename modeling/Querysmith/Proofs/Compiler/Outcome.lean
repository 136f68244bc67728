/-
# The outcome of every call

A call of the compiler resolves its table, checks its names and writes its pieces.  Once the table
is resolved the call succeeds exactly when the names are usable (a removal wants a bound value too),
and its statements are those of the plain fragments of `Proofs.Compiler.Pieces`.
-/

import Querysmith.Proofs.Compiler.Pieces

namespace Querysmith
namespace Compiler

variable {c : Compiler} {table : String} {t : TableName}

/-- A call that succeeds has resolved its table. -/
theorem exists_resolve_of_ok {α : Type} {k : Fragment → Except Error α} {r : α}
    (h : (c.table table >>= k) = .ok r) :
    ∃ t, TableName.resolve table c.options.schema = .ok t := by
  obtain ⟨_, htable, -⟩ := exists_of_bind_eq_ok h
  obtain ⟨t, ht, -⟩ := exists_of_bind_eq_ok htable
  exact ⟨t, ht⟩

/-- A table that was taken apart is written when its names are usable. -/
theorem table_yields (ht : TableName.resolve table c.options.schema = .ok t) :
    Yields (c.table table) (AllUsable t.names) t.pieces := by
  rw [Compiler.table, ht]
  exact t.fragment_yields

/-- A table binds no values. -/
theorem values_pieces (t : TableName) : Fragment.values t.pieces = [] := by
  obtain ⟨schema, name⟩ := t
  cases schema <;> rfl

/-- The clause of a filter is written when its columns are usable. -/
theorem whereClause_yields (c : Compiler) (f : Filter) (softDelete : Option String) :
    Yields (c.whereClause f softDelete) (AllUsable (f.columns ++ softDelete.toList))
      ((f.wherePieces softDelete c.predicateOptions).getD []) :=
  (f.whereFragment_yields softDelete c.predicateOptions).bind_pure _

/-- The pieces of a selection. -/
def selectPieces (c : Compiler) (t : TableName) (f : Filter) (order : SortOrder)
    (softDelete : Option String) (page : Option Page) : Fragment :=
  clauses [.text "SELECT * FROM " :: t.pieces,
    (f.wherePieces softDelete c.predicateOptions).getD [], order.pieces,
    (page.map Page.fragment).getD []]

/-- **A selection compiles when its names are usable,** to this statement. -/
theorem select_yields (ht : TableName.resolve table c.options.schema = .ok t) (f : Filter)
    (order : SortOrder) (softDelete : Option String) (page : Option Page) :
    Yields (c.select table f order softDelete page)
      (AllUsable (t.names ++ (f.columns ++ softDelete.toList) ++ order.columns))
      (.ofFragment c.dialect (c.selectPieces t f order softDelete page) true) := by
  refine Yields.congr ((table_yields ht).bind ((c.whereClause_yields f softDelete).bind
    (order.fragment_yields.bind_pure _))) ?_
  simp only [allUsable_append, and_assoc]

/-- The pieces of a count. -/
def countPieces (c : Compiler) (t : TableName) (f : Filter) (softDelete : Option String) :
    Fragment :=
  clauses [.text "SELECT count(*) AS number FROM " :: t.pieces,
    (f.wherePieces softDelete c.predicateOptions).getD []]

/-- **A count compiles when its names are usable,** to this statement. -/
theorem count_yields (ht : TableName.resolve table c.options.schema = .ok t) (f : Filter)
    (softDelete : Option String) :
    Yields (c.count table f softDelete)
      (AllUsable (t.names ++ (f.columns ++ softDelete.toList)))
      (.ofFragment c.dialect (c.countPieces t f softDelete) true) := by
  refine Yields.congr ((table_yields ht).bind ((c.whereClause_yields f softDelete).bind_pure _)) ?_
  simp only [allUsable_append]

/-- What a removal does to the rows of its clause. -/
def removalHead (t : TableName) (softDelete : Option String) : Fragment :=
  match softDelete with
  | some column => .text "UPDATE " :: t.pieces ++ [.text " SET ", .name column] ++
      [.text " = ", .hole (.int 1) none]
  | none => .text "DELETE FROM " :: t.pieces

/-- The pieces of a removal. -/
def removalPieces (c : Compiler) (t : TableName) (f : Filter) (softDelete : Option String) :
    Fragment :=
  removalHead t softDelete ++ .text " " :: Filter.groupsPieces c.predicateOptions f.groups

/-- Without a guard the groups of a clause are those of the filter. -/
theorem guardedGroups_none (f : Filter) : f.guardedGroups none = f.groups := by
  obtain ⟨groups⟩ := f
  cases groups <;> simp [Filter.guardedGroups, Filter.matchesAll, Filter.guard]

/-- A filter that binds a value has groups. -/
theorem groups_ne_nil {f : Filter} (h : f.paramCount ≠ 0) : f.groups ≠ [] := by
  rintro hg
  simp [Filter.paramCount, hg] at h

/-- The clause of a filter that has groups, without a guard. -/
theorem wherePieces_none {f : Filter} (hgroups : f.groups ≠ []) (o : PredicateOptions) :
    f.wherePieces none o = some (Filter.groupsPieces o f.groups) := by
  rw [Filter.wherePieces, guardedGroups_none]
  cases hg : f.groups with
  | nil => exact absurd hg hgroups
  | cons group groups => rfl

/-- A removal that succeeds has a filter that binds a value. -/
theorem paramCount_ne_zero_of_ok {f : Filter} {softDelete : Option String} {s : Statement}
    (h : c.delete table f softDelete = .ok s) : f.paramCount ≠ 0 := by
  intro hf
  rw [Compiler.delete, if_pos hf] at h
  cases h

/-- A removal that succeeds has resolved its table. -/
theorem exists_resolve_of_delete {f : Filter} {softDelete : Option String} {s : Statement}
    (h : c.delete table f softDelete = .ok s) :
    ∃ t, TableName.resolve table c.options.schema = .ok t := by
  have hf := paramCount_ne_zero_of_ok h
  rw [Compiler.delete, if_neg hf] at h
  exact exists_resolve_of_ok h

/-- **A removal with a bound value compiles when its names are usable,** to this statement. -/
theorem delete_yields (ht : TableName.resolve table c.options.schema = .ok t) {f : Filter}
    (hf : f.paramCount ≠ 0) (softDelete : Option String) :
    Yields (c.delete table f softDelete)
      (AllUsable (t.names ++ softDelete.toList ++ f.columns))
      (.ofFragment c.dialect (c.removalPieces t f softDelete) false) := by
  have hclause := f.whereFragment_yields none c.predicateOptions
  rw [wherePieces_none (groups_ne_nil hf), Option.toList_none, List.append_nil] at hclause
  -- The check behind the clause never fails: a filter with groups has a clause.
  have htail : ∀ {k : Option Fragment → Except Error Statement} {s : Statement},
      k (some (Filter.groupsPieces c.predicateOptions f.groups)) = .ok s →
      Yields (f.whereFragment none c.predicateOptions >>= k) (AllUsable f.columns) s := by
    intro k s hk
    refine Yields.congr (hclause.bind ?_) (and_iff_left trivial)
    rw [hk]
    exact Yields.pure s
  rw [Compiler.delete, if_neg hf, allUsable_append, allUsable_append, and_assoc]
  refine (table_yields ht).bind ?_
  cases softDelete with
  | none => exact (htail rfl).congr (by simp)
  | some column =>
    refine Yields.congr (Yields.bind (Q := AllUsable f.columns)
      (Identifier.fragment_yields column) ?_) (by simp)
    exact htail rfl

/-- **An insert compiles when its names are usable,** to one statement for each chunk. -/
theorem insert_yields (ht : TableName.resolve table c.options.schema = .ok t) (rows : RowSet) :
    Yields (c.insert table rows) (AllUsable (t.names ++ rows.columns))
      ⟨(c.chunked rows).map fun chunk => c.writeStatement
        (c.insertFragment t.pieces (Identifier.listPieces rows.columns) rows.columns chunk []),
        rows.rows.length⟩ := by
  rw [allUsable_append]
  exact (table_yields ht).bind ((Identifier.listFragment_yields rows.columns).bind_pure _)

/-- The pieces of a merge. -/
def mergePieces (c : Compiler) (table : Fragment) (columns : List String) (row : List Json)
    (groups : List (List String)) (updates : List String) : Fragment :=
  .text "WITH source_data AS (SELECT " :: Identifier.listPieces columns ++
    .text " FROM json_populate_record(NULL::" :: table ++
    .text ", " :: .hole (.text (c.sourceRecord columns row).text) (some "json") ::
    .text ")), updated AS (UPDATE " :: table ++
    .text " AS target SET " :: assignmentPieces "source_data" updates ++
    .text " FROM source_data WHERE " :: matchPieces groups ++
    .text " RETURNING target.*), inserted AS (INSERT INTO " :: table ++
    .text " (" :: Identifier.listPieces columns ++
    .text ") SELECT " :: Identifier.listPieces columns ++
    .text " FROM source_data WHERE NOT EXISTS (SELECT 1 FROM updated)" ::
      conflictPieces [groups.headD []] updates ++
    [.text " RETURNING *) SELECT * FROM updated UNION ALL SELECT * FROM inserted"]

/-- A merge is written when its columns and those of its groups are usable. -/
theorem mergeFragment_yields (c : Compiler) (table : Fragment) (columns : List String)
    (row : List Json) (groups : List (List String)) (updates : List String) :
    Yields (c.mergeFragment table columns row groups updates)
      (AllUsable (columns ++ (updates ++ (groups.flatten ++
        conflictNames [groups.headD []] updates))))
      (c.mergePieces table columns row groups updates) := by
  simp only [allUsable_append]
  exact (Identifier.listFragment_yields columns).bind
    ((assignments_yields "source_data" updates).bind
      ((groupMatches_yields groups).bind
        ((conflictClauses_yields [groups.headD []] updates).bind_pure _)))

/-- The names that a chunk of an upsert writes besides its table. -/
def upsertNames (columns updates : List String) (strategy : Strategy) : List String :=
  match strategy with
  | .merge groups =>
    columns ++ (updates ++ (groups.flatten ++ conflictNames [groups.headD []] updates))
  | _ => columns ++ conflictNames strategy.targets updates

/-- The pieces of a chunk of an upsert. -/
def upsertPieces (c : Compiler) (table : Fragment) (columns : List String)
    (chunk : List (List Json)) (updates : List String) (strategy : Strategy) : Fragment :=
  match strategy with
  | .merge groups => c.mergePieces table columns (chunk.headD []) groups updates
  | _ => c.insertFragment table (Identifier.listPieces columns) columns chunk
      (conflictPieces strategy.targets updates)

/-- What a strategy writes is written when the names that it brings in are usable. -/
theorem upsertFragment_yields (c : Compiler) (table : Fragment) (columns : List String)
    (chunk : List (List Json)) (updates : List String) (strategy : Strategy) :
    Yields (c.upsertFragment table columns chunk updates strategy)
      (AllUsable (upsertNames columns updates strategy))
      (c.upsertPieces table columns chunk updates strategy) := by
  have hinsert := (Identifier.listFragment_yields columns).bind
    (f := fun columnList => do
      let conflict ← conflictClauses strategy.targets updates
      return c.insertFragment table columnList columns chunk conflict)
    ((conflictClauses_yields strategy.targets updates).bind_pure _)
  rw [← allUsable_append] at hinsert
  cases strategy with
  | merge groups => exact c.mergeFragment_yields table columns (chunk.headD []) groups updates
  | plain => exact hinsert
  | onConflict target => exact hinsert
  | chained groups => exact hinsert

/-- The strategy of a chunk of an upsert. -/
def strategyOf (c : Compiler) (rows : RowSet) (spec : ConstraintSpec) (chunk : List (List Json)) :
    Strategy :=
  Strategy.choose c.dialect spec chunk.length rows.columns

/-- An upsert that succeeds has resolved its table. -/
theorem exists_resolve_of_upsert {rows : RowSet} {spec : ConstraintSpec} {plan : WritePlan}
    (h : c.upsert table rows spec = .ok plan) :
    ∃ t, TableName.resolve table c.options.schema = .ok t := by
  rw [upsert, upsertChunks, bind_assoc] at h
  exact exists_resolve_of_ok h

/-- **An upsert compiles when the names of every chunk are usable,** to one statement for each.
Chunks may follow different strategies, so they may bring in different names. -/
theorem upsert_yields (ht : TableName.resolve table c.options.schema = .ok t) (rows : RowSet)
    (spec : ConstraintSpec) :
    Yields (c.upsert table rows spec)
      (AllUsable t.names ∧ ∀ chunk ∈ c.chunked rows,
        AllUsable (upsertNames rows.columns (updateColumns rows.columns spec)
          (c.strategyOf rows spec chunk)))
      ⟨(c.chunked rows).map fun chunk => c.writeStatement
        (c.upsertPieces t.pieces rows.columns chunk (updateColumns rows.columns spec)
          (c.strategyOf rows spec chunk)),
        rows.rows.length⟩ := by
  have hchunk := fun chunk => (c.upsertFragment_yields t.pieces rows.columns chunk
    (updateColumns rows.columns spec) (c.strategyOf rows spec chunk)).bind_pure c.writeStatement
  have hchunks := (Yields.mapM hchunk (c.chunked rows)).bind_pure fun statements =>
    WritePlan.mk statements rows.rows.length
  have htable := (table_yields ht).bind_pure fun table => (c.chunked rows).map fun chunk =>
    UpsertChunk.mk chunk.length (c.strategyOf rows spec chunk)
      ((c.upsertFragment table rows.columns chunk (updateColumns rows.columns spec)
        (c.strategyOf rows spec chunk)).map c.writeStatement)
  refine htable.bind ?_
  rw [List.mapM_map]
  exact hchunks

end Compiler
end Querysmith
