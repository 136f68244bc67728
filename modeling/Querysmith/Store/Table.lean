/-
# Tables

A table keeps its rows in the order of their keys: a further row goes where its key belongs
(`insertByKey`).  The key is the value of the column `id` where that is the primary key, and hidden
otherwise; a row that brings none gets the one behind the greatest.  Columns are found by name in
either case.
-/

import Querysmith.RowSet
import Querysmith.Store.Affinity
import Querysmith.Store.Fault

namespace Querysmith
namespace Store

/-- A column. -/
structure Column where
  name : String
  affinity : Affinity
  notNull : Bool := false
  /-- What a row holds that does not name the column. -/
  standard : Cell := .null
  deriving DecidableEq, Repr, Inhabited

/-- A row: its key, and a cell for each column. -/
structure Row where
  key : Int
  cells : List Cell
  deriving DecidableEq, Repr, Inhabited

namespace Row

/-- The cell in a place. -/
def cell (r : Row) (place : Nat) : Cell :=
  r.cells[place]?.getD .null

/-- The rows have values in all these places, and the same ones. -/
def agree (a b : Row) (places : List Nat) : Bool :=
  places.all fun i => (a.cell i).same (b.cell i)

end Row

/-- A table. -/
structure Table where
  name : String
  columns : List Column
  /-- The place of the column that holds the key. -/
  keyPlace : Option Nat := none
  /-- The groups of places that are unique together, in order of declaration. -/
  uniques : List (List Nat) := []
  rows : List Row := []
  deriving Repr, Inhabited

namespace Table

/-- The place of a column. -/
def place? (t : Table) (column : String) : Option Nat :=
  t.columns.findIdx? fun c => Text.lowerAscii c.name == Text.lowerAscii column

/-- The column in a place. -/
def columnAt (t : Table) (place : Nat) : Column :=
  t.columns[place]?.getD ⟨"", .blob, false, .null⟩

/-- A row under the names of the columns. -/
def record (t : Table) (r : Row) : Record :=
  List.zipWith (fun column cell => (column.name, cell.toJson)) t.columns r.cells

/-- All rows as records. -/
def records (t : Table) : List Record :=
  t.rows.map t.record

/-- The first key from `key` on that no row has; the rows are in the order of their keys. -/
def freeKey (key : Int) : List Row → Int
  | [] => key
  | r :: rest =>
    if r.key < key then freeKey key rest
    else if r.key = key then freeKey (key + 1) rest
    else key

/-- The key behind the greatest one; behind the greatest integer there is none, and a key that is
free is taken. -/
def nextKey (t : Table) : Int :=
  match t.rows.getLast? with
  | some r => if r.key < SqlValue.maxInt then r.key + 1 else freeKey 1 t.rows
  | none => 1

/-- The rows with a further one, in the order of keys. -/
def insertByKey (r : Row) : List Row → List Row
  | [] => [r]
  | s :: rest => if s.key < r.key then s :: insertByKey r rest else r :: s :: rest

/-- The table with a further row. -/
def add (t : Table) (r : Row) : Table :=
  { t with rows := insertByKey r t.rows }

/-- The table without the row of a key. -/
def remove (t : Table) (key : Int) : Table :=
  { t with rows := t.rows.filter (·.key ≠ key) }

/-! ### What a row must satisfy -/

/-- The first column that has no value though it must have one. -/
def missing? (t : Table) (r : Row) : Option Fault :=
  (t.columns.zipIdx.find? fun (column, place) => column.notNull && (r.cell place).isNull).map
    fun (column, _) => .notNull t.name column.name

/-- The collision of a row with the rows of the table: its key is looked at first, then the unique
groups, the last declared one first. -/
def collision? (t : Table) (r : Row) : Option Fault :=
  match t.rows.find? (·.key = r.key), t.keyPlace with
  | some _, some place => some (.primaryKey t.name (t.columnAt place).name)
  | _, _ => t.uniques.reverse.findSome? fun group =>
    if t.rows.any (r.agree · group) then
      some (.unique t.name (group.map fun place => (t.columnAt place).name))
    else none

/-- The table with a further row that has all values it must have and collides with none. -/
def add? (t : Table) (r : Row) : Except Fault Table :=
  match t.missing? r, t.collision? r with
  | some fault, _ => .error fault
  | none, some fault => .error fault
  | none, none => .ok (t.add r)

/-! ### New rows -/

/-- The key that a value asks for: none for null, and a fault when it is no integer. -/
def keyOf (c : Cell) : Except Fault (Option Int) :=
  match Affinity.integer.store c with
  | .null => .ok none
  | .int i => .ok (some i)
  | _ => .error .keyMismatch

/-- The row of values in places; of two values in one place the first counts. -/
def row (t : Table) (places : List Nat) (values : List Cell) : Except Fault Row := do
  let given := places.zip values
  let cells := t.columns.zipIdx.map fun (column, place) =>
    match given.lookup place with
    | some c => column.affinity.store c
    | none => column.standard
  match t.keyPlace with
  | none => return ⟨t.nextKey, cells⟩
  | some place =>
    let key := (← keyOf (cells[place]?.getD .null)).getD t.nextKey
    return ⟨key, cells.set place (.int key)⟩

/-- The row with a column set; the column of the key also sets the key. -/
def setCell (t : Table) (r : Row) (place : Nat) (c : Cell) : Except Fault Row := do
  let stored := (t.columnAt place).affinity.store c
  if t.keyPlace = some place then
    match stored with
    | .int i => return ⟨i, r.cells.set place stored⟩
    | _ => throw .keyMismatch
  else return { r with cells := r.cells.set place stored }

/-- How a conflict on a group of places is resolved: the places that are set, each with the place
in the new row that it is set from. -/
structure Resolution where
  group : List Nat
  updates : List (Nat × Nat)
  deriving DecidableEq, Repr

/-- The row that agrees with the new one on the group of the first resolution that finds one. -/
def conflicting? (t : Table) (r : Row) : List Resolution → Option (Row × Resolution)
  | [] => none
  | resolution :: rest =>
    match t.rows.find? (r.agree · resolution.group) with
    | some old => some (old, resolution)
    | none => t.conflicting? r rest

/-- Writes the values of a record: as an update of the row that it conflicts with, or else as a new
row.  Also tells the written row. -/
def write (t : Table) (places : List Nat) (resolutions : List Resolution) (values : List Cell) :
    Except Fault (Row × Table) := do
  let r ← t.row places values
  if let some fault := t.missing? r then throw fault
  match t.conflicting? r resolutions with
  | some (old, resolution) =>
    let new ← resolution.updates.foldlM
      (fun row (place, source) => t.setCell row place (r.cell source)) old
    return (new, ← (t.remove old.key).add? new)
  | none => return (r, ← t.add? r)

end Table
end Store
end Querysmith
