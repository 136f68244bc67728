/-
# Row sets

Records aligned with one list of columns.  The columns are the keys of the first record; of every
record the values under these keys are taken, null where a key is missing.
-/

import Querysmith.Error

namespace Querysmith

/-- A record: the fields of a JSON object. -/
abbrev Record := List (String × Json)

/-- The value of a column in a record, null when it has none. -/
def Record.cell (record : Record) (column : String) : Json :=
  (record.lookup column).getD .null

/-- The values of a record under the columns.  A record with exactly these columns, in order, is
taken as it is. -/
def Record.cells (record : Record) (columns : List String) : List Json :=
  if record.map (·.1) == columns then record.map (·.2)
  else columns.map record.cell

/-- Rows of values under a list of columns. -/
structure RowSet where
  columns : List String
  rows : List (List Json)
  deriving Repr

namespace RowSet

/-- The row set of a list of records. -/
def ofRecords : List Record → Except Error RowSet
  | [] => .error (.invalidRows .noRecords)
  | [] :: _ => .error (.invalidRows .noColumns)
  | first :: rest =>
    let columns := first.map (·.1)
    .ok ⟨columns, (first :: rest).map (·.cells columns)⟩

/-- The record of a JSON value. -/
def readRecord : Json → Except Error Record
  | .obj fields => .ok fields
  | v => .error (.invalidRows (.notRecord v))

/-- Reads one record or an array of records. -/
def ofJson : Json → Except Error RowSet
  | .obj fields => ofRecords [fields]
  | .arr items => do ofRecords (← items.mapM readRecord)
  | v => .error (.invalidRows (.notRecords v))

end RowSet
end Querysmith
