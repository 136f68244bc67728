/-
# Results

What the operations of an engine answer, and how result rows are read: the identifier of a written
row, and texts that hold JSON documents.
-/

import Querysmith.RowSet
import Querysmith.Json.Document
import Querysmith.Text.Capital

namespace Querysmith

/-- The rows of a read, and the number of matching rows over all pages. -/
structure ReadResult where
  data : List Record
  count : Nat

/-- The outcome of a write. -/
structure WriteResult where
  rows : Nat
  message : String
  /-- The identifier of the row, when one record was written. -/
  id : Option Json

/-- The outcome of a removal. -/
structure RemoveResult where
  rows : Nat
  message : String
  deriving DecidableEq, Repr

/-- The words of a table name: `user_account` is `User Account`. -/
def titleOf (table : String) : String :=
  let words := (Text.splitOn '_' table.toList).filter (!·.isEmpty)
  Text.joinWith " " (words.map fun word =>
    String.ofList ((word.take 1).flatMap Text.capital ++ word.drop 1))

/-- The outcome of a write of so many records into a table. -/
def WriteResult.saved (table : String) (rows : Nat) (id : Option Json) : WriteResult :=
  let title := titleOf table
  let message :=
    if rows = 1 then "1 " ++ title ++ " is saved"
    else Text.ofNat rows ++ " " ++ title ++ "s are saved"
  ⟨rows, message, id⟩

/-- The outcome of a removal of so many rows from a table. -/
def RemoveResult.removed (table : String) (rows : Nat) : RemoveResult :=
  ⟨rows, Text.ofNat rows ++ " " ++ table ++ (if 1 < rows then "s" else "") ++ " removed"⟩

/-- The identifier in a row: the value of `id`, else of the first key that ends in `_id`, else of
the first that holds `id`, else of the first key at all. -/
def extractId (row : Record) : Option Json :=
  ((row.find? fun (key, _) => key == "id")
    <|> (row.find? fun (key, _) => Text.endsWith key "_id")
    <|> (row.find? fun (key, _) => Text.contains key "id")
    <|> row.head?).map (·.2)

/-- A cell of a result row; a text that holds a JSON document becomes that document. -/
def decodeCell : Json → Json
  | .str s => if Json.isDocumentText s then (Json.parse? s).getD (.str s) else .str s
  | v => v

/-- The rows with the documents in their texts read. -/
def decodeJsonText (rows : List Record) : List Record :=
  rows.map fun row => row.map fun (key, v) => (key, decodeCell v)

namespace ReadResult

/-- The result as a JSON value. -/
def toJson (r : ReadResult) : Json :=
  .obj [("data", .arr (r.data.map .obj)), ("count", .int r.count)]

end ReadResult

namespace WriteResult

/-- The result as a JSON value; without an identifier there is no field for it. -/
def toJson (r : WriteResult) : Json :=
  .obj ([("rows", .int r.rows), ("message", .str r.message), ("type", .str "success")] ++
    r.id.toList.map fun id => ("id", id))

end WriteResult

namespace RemoveResult

/-- The result as a JSON value. -/
def toJson (r : RemoveResult) : Json :=
  .obj [("rows", .int r.rows), ("message", .str r.message)]

end RemoveResult
end Querysmith
