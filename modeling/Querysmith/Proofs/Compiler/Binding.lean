/-
# What a write binds

A write binds the cells of its records one by one, record after record and column after column: for
a cell the value that its normalized value becomes, and nothing for a null, which stands in the text
(`boundValue?`).  Only the statement that merges a single record binds something else, that record
as one document.  The two are told apart by how their texts begin (`binds_of_writing`).
-/

import Querysmith.Proofs.Compiler.Batches
import Querysmith.Proofs.Compiler.Selection

namespace Querysmith

namespace Compiler

variable {c : Compiler}

/-- The value that is bound for a cell; there is none for a null. -/
def boundValue? (c : Compiler) (column : String) (v : Json) : Option SqlValue :=
  match c.normalizer.normalize column v with
  | .null => none
  | normal => some (.ofJson normal)

/-- Nothing but null is written without a value. -/
theorem boundValue?_of_ne_null (c : Compiler) (column : String) {v : Json} (hv : v ≠ .null) :
    c.boundValue? column v = some (.ofJson (c.normalizer.normalize column v)) := by
  have hnormal := (c.normalizer.normalize_eq_null column v).not.2 hv
  rw [boundValue?]
  split
  · contradiction
  · rfl

/-- A cell binds its value, and nothing when it is null. -/
theorem values_cell (c : Compiler) (column : String) (v : Json) :
    (c.cell column v).values = (c.boundValue? column v).toList := by
  rw [cell, boundValue?]
  generalize c.normalizer.normalize column v = normal
  cases normal <;> rfl

/-- The cells of records in the order in which they are written, each with its column. -/
def cellsOf (columns : List String) (records : List (List Json)) : List (String × Json) :=
  records.flatMap columns.zip

/-- The cells of a record bind their values in the order of the columns. -/
theorem values_cells (c : Compiler) (columns : List String) (row : List Json) :
    (c.cells columns row).values =
      (columns.zip row).filterMap fun cell => c.boundValue? cell.1 cell.2 := by
  rw [cells, Fragment.values_joined, ← List.map_uncurry_zip_eq_zipWith, List.flatMap_map,
    List.filterMap_eq_flatMap_toList]
  exact congrArg (List.flatMap · _) (funext fun cell => c.values_cell cell.1 cell.2)

/-- **The tuples of records bind their cells,** in order. -/
theorem values_tuples_eq (c : Compiler) (columns : List String) (records : List (List Json)) :
    (c.tuples columns records).values =
      (cellsOf columns records).filterMap fun cell => c.boundValue? cell.1 cell.2 := by
  rw [values_tuples, cellsOf, List.filterMap_flatMap]
  exact congrArg (List.flatMap · records) (funext fun row => c.values_cells columns row)

/-- **What a statement binds for its records.** -/
inductive Binds (c : Compiler) (spec : Option ConstraintSpec) (columns : List String)
    (records : List (List Json)) (s : Statement) : Prop
  /-- An insert, perhaps with conflict clauses, binds the cells. -/
  | cells (htext : Text.startsWith s.sql "INSERT INTO " = true)
      (hparams : s.params = (cellsOf columns records).filterMap
        fun cell => c.boundValue? cell.1 cell.2)
  /-- A merge, which only an upsert of a single record can be, binds the record as a document. -/
  | document (hspec : spec ≠ none) (htext : Text.startsWith s.sql "WITH source_data AS " = true)
      {record : List Json} (hrecords : records = [record])
      (hparams : s.params = [.text (c.sourceRecord columns record).text])

/-- A statement begins with the text at its head. -/
theorem startsWith_writeStatement (c : Compiler) (start rest : String) (f : Fragment) :
    Text.startsWith (c.writeStatement (.text (start ++ rest) :: f)).sql start = true := by
  rw [writeStatement, Statement.ofFragment, Fragment.sql_text_cons, Text.startsWith,
    List.isPrefixOf_iff_prefix, String.append_assoc, String.toList_append]
  exact List.prefix_append _ _

/-- **An insert binds its records one after another.** -/
theorem binds_insertFragment (c : Compiler) (t : TableName) (spec : Option ConstraintSpec)
    (columns : List String) (records : List (List Json)) (targets : List (List String))
    (updates : List String) :
    c.Binds spec columns records (c.writeStatement (c.insertFragment t.pieces
      (Identifier.listPieces columns) columns records (conflictPieces targets updates))) := by
  refine .cells (c.startsWith_writeStatement "INSERT INTO " "" _) ?_
  rw [writeStatement, Statement.ofFragment, values_insertFragment, values_tuples_eq]

/-- **A statement of a write binds the cells of its records,** or a single record as a document. -/
theorem binds_batchStatement (c : Compiler) (t : TableName) (spec : Option ConstraintSpec)
    (columns : List String) (records : List (List Json)) :
    c.Binds spec columns records (c.batchStatement t spec columns records) := by
  cases spec with
  | none => exact c.binds_insertFragment t none columns records [] []
  | some spec =>
    rcases c.batchStatement_cases t (some spec) columns records with
      ⟨targets, updates, h⟩ | ⟨hone, groups, updates, h⟩
    · rw [h]
      exact c.binds_insertFragment t (some spec) columns records targets updates
    · obtain ⟨record, rfl⟩ := List.length_eq_one_iff.1 hone
      rw [h]
      refine .document (Option.some_ne_none spec)
        (c.startsWith_writeStatement "WITH source_data AS " "(SELECT " _) rfl ?_
      rw [writeStatement, Statement.ofFragment, values_mergePieces]
      rfl

/-- **Chunk for chunk, the statements of a write bind the records.** -/
theorem binds_of_writing {table : String} {spec : Option ConstraintSpec} {rows : RowSet}
    {plan : WritePlan} (h : c.writing table spec rows = .ok plan) :
    List.Forall₂ (c.Binds spec rows.columns) (c.chunked rows) plan.statements := by
  obtain ⟨t, hstatements, -⟩ := exists_batchStatements h
  rw [hstatements, List.forall₂_map_right_iff, List.forall₂_same]
  exact fun batch _ => c.binds_batchStatement t spec rows.columns batch

end Compiler
end Querysmith
