/-
# Upserts

An insert that updates the rows it collides with.  How a chunk resolves its conflicts depends on the
number of declared constraints and on the dialect:

| constraints | records | the dialect has | statement |
| --- | --- | --- | --- |
| none | any | anything | plain insert |
| one | any | anything | one `ON CONFLICT` clause |
| more | any | several conflict clauses | one clause for each constraint |
| more | one | writes inside a `WITH` | merge: update the matching rows, else insert |
| more | more | writes inside a `WITH` | one clause, for the first constraint |

A conflict overwrites every column that no constraint names.  When there is none, the first column
is set, so that the clause is not empty.
-/

import Querysmith.Compiler.Insert
import Querysmith.Constraint

namespace Querysmith

/-- How a chunk resolves its conflicts. -/
inductive Strategy where
  /-- Not at all: a conflict fails the statement. -/
  | plain
  /-- One `ON CONFLICT` clause. -/
  | onConflict (target : List String)
  /-- Update of the rows that match one of the groups, and an insert when there are none. -/
  | merge (groups : List (List String))
  /-- One `ON CONFLICT` clause for each group. -/
  | chained (groups : List (List String))
  deriving DecidableEq, Repr

namespace Strategy

/-- The groups whose columns all are among the given ones. -/
def covered (spec : ConstraintSpec) (columns : List String) : List (List String) :=
  spec.groups.filter fun group => group.all columns.contains

/-- The strategy for a chunk of so many records with these columns. -/
def choose (d : Dialect) (spec : ConstraintSpec) (rows : Nat) (columns : List String) : Strategy :=
  match spec.firstTarget? with
  | none => plain
  | some first =>
    if spec.total = 1 then onConflict first
    else if d.chainedConflicts then chained spec.groups
    else if rows = 1 ∧ d.writableCte ∧ covered spec columns ≠ [] then merge (covered spec columns)
    else onConflict first

/-- The strategy names one of several constraints and passes over the others. -/
def fallsBack (strategy : Strategy) (spec : ConstraintSpec) : Bool :=
  match strategy with
  | onConflict _ => spec.total != 1
  | _ => false

/-- The targets of the `ON CONFLICT` clauses. -/
def targets : Strategy → List (List String)
  | plain | merge _ => []
  | onConflict target => [target]
  | chained groups => groups

/-- A description for diagnostics. -/
def describe : Strategy → String
  | plain => "Plain"
  | onConflict target => "OnConflict(" ++ Text.quotedList target ++ ")"
  | merge groups => "Merge([" ++ Text.joinWith ", " (groups.map Text.quotedList) ++ "])"
  | chained groups =>
    "ChainedConflict([" ++ Text.joinWith ", " (groups.map Text.quotedList) ++ "])"

end Strategy

/-- The columns that a conflict overwrites: those that no constraint names, or else the first. -/
def updateColumns (columns : List String) (spec : ConstraintSpec) : List String :=
  match columns.filter (!spec.columns.contains ·) with
  | [] => columns.take 1
  | remaining => remaining

/-- `column = source.column` for each column. -/
def assignments (source : String) (columns : List String) : Except Error Fragment := do
  let names ← columns.mapM Identifier.fragment
  return Fragment.joined ", " (names.map fun name => name ++ .text (" = " ++ source ++ ".") :: name)

/-- One `ON CONFLICT` clause for each target. -/
def conflictClauses (targets : List (List String)) (updates : List String) :
    Except Error Fragment := do
  if targets.isEmpty then return []
  let set ← assignments "EXCLUDED" updates
  let clauses ← targets.mapM fun target => do
    let target ← Identifier.listFragment target
    return .text " ON CONFLICT (" :: target ++ .text ") DO UPDATE SET " :: set
  return clauses.flatten

/-- The condition that a row and the source agree on one of the groups. -/
def groupMatches (groups : List (List String)) : Except Error Fragment := do
  let branches ← groups.mapM fun group => do
    let names ← group.mapM Identifier.fragment
    let terms := names.map fun name =>
      .text "target." :: name ++ .text " = source_data." :: name
    return .text "(" :: Fragment.joined " AND " terms ++ [.text ")"]
  return Fragment.joined " OR " branches

namespace Compiler

/-- A cell of the document that carries a merged record: a text that holds a JSON document is
embedded as that document. -/
def sourceCell (c : Compiler) (column : String) (v : Json) : Json :=
  match c.normalizer.normalize column v with
  | .str s => if Json.isDocumentText s then (Json.parse? s).getD (.str s) else .str s
  | v => v

/-- The document that carries a merged record. -/
def sourceRecord (c : Compiler) (columns : List String) (row : List Json) : Json :=
  .obj (List.zipWith (fun column v => (column, c.sourceCell column v)) columns row)

/-- The merge of one record: the rows that match one of the groups are updated, and when there are
none the record is inserted, with the first group as its conflict target.  The record is bound as
one document and read against the row type of the table, so every cell has the type of its
column. -/
def mergeFragment (c : Compiler) (table : Fragment) (columns : List String)
    (row : List Json) (groups : List (List String)) (updates : List String) :
    Except Error Fragment := do
  let columnList ← Identifier.listFragment columns
  let source := SqlValue.text (c.sourceRecord columns row).text
  let set ← assignments "source_data" updates
  let matching ← groupMatches groups
  let conflict ← conflictClauses [groups.headD []] updates
  return .text "WITH source_data AS (SELECT " :: columnList ++
    .text " FROM json_populate_record(NULL::" :: table ++
    .text ", " :: .hole source (some "json") ::
    .text ")), updated AS (UPDATE " :: table ++
    .text " AS target SET " :: set ++
    .text " FROM source_data WHERE " :: matching ++
    .text " RETURNING target.*), inserted AS (INSERT INTO " :: table ++
    .text " (" :: columnList ++
    .text ") SELECT " :: columnList ++
    .text " FROM source_data WHERE NOT EXISTS (SELECT 1 FROM updated)" :: conflict ++
    [.text " RETURNING *) SELECT * FROM updated UNION ALL SELECT * FROM inserted"]

/-- The statement of one chunk. -/
def upsertFragment (c : Compiler) (table : Fragment) (columns : List String)
    (chunk : List (List Json)) (updates : List String) (strategy : Strategy) :
    Except Error Fragment :=
  match strategy with
  | .merge groups => c.mergeFragment table columns (chunk.headD []) groups updates
  | _ => do
    let columnList ← Identifier.listFragment columns
    let conflict ← conflictClauses strategy.targets updates
    return c.insertFragment table columnList columns chunk conflict

/-- A chunk of an upsert: how many records it writes, how it resolves conflicts, and its
statement. -/
structure UpsertChunk where
  rows : Nat
  strategy : Strategy
  statement : Except Error Statement

/-- The chunks of an upsert in record order. -/
def upsertChunks (c : Compiler) (table : String) (rows : RowSet) (spec : ConstraintSpec) :
    Except Error (List UpsertChunk) := do
  let table ← c.table table
  let updates := updateColumns rows.columns spec
  return (c.chunked rows).map fun chunk =>
    let strategy := Strategy.choose c.dialect spec chunk.length rows.columns
    ⟨chunk.length, strategy,
      (c.upsertFragment table rows.columns chunk updates strategy).map c.writeStatement⟩

/-- Inserts that resolve conflicts, one statement a chunk. -/
def upsert (c : Compiler) (table : String) (rows : RowSet) (spec : ConstraintSpec) :
    Except Error WritePlan := do
  let chunks ← c.upsertChunks table rows spec
  return ⟨← chunks.mapM (·.statement), rows.rows.length⟩

end Compiler
end Querysmith
