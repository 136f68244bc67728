/-
# A database

Tables, and what commands do to them.  A command either does all it asks for or fails and changes
nothing.
-/

import Querysmith.Engine.Backend
import Querysmith.Sql.Reader
import Querysmith.Store.Match

namespace Querysmith
namespace Store

/-- A database. -/
structure Database where
  tables : List Table := []
  deriving Repr, Inhabited

/-- What a command answers: rows, and the number of rows that it touched. -/
structure Outcome where
  rows : List Record := []
  affected : Nat := 0
  deriving Repr

namespace Database

/-- The name of the schema that is the database itself. -/
def ownSchema : String := "main"

/-- The table of a name. -/
def table (db : Database) (name : TableName) : Except Fault Table :=
  let known := name.schema.all fun schema => Text.lowerAscii schema == ownSchema
  match db.tables.find? fun t => Text.lowerAscii t.name == Text.lowerAscii name.name with
  | some t => if known then .ok t else .error (.noTable name)
  | none => .error (.noTable name)

/-- The database with a table in the place of the one of that name. -/
def replace (db : Database) (t : Table) : Database :=
  ⟨db.tables.map fun s => if s.name = t.name then t else s⟩

/-- The constrained places that are, as a set, the columns of a conflict clause. -/
def constraint? (t : Table) (target : List String) : Option (List Nat) := do
  let places ← target.mapM t.place?
  let groups := t.keyPlace.toList.map ([·]) ++ t.uniques
  groups.find? fun group => group.all places.contains && places.all group.contains

/-- The resolutions of conflict clauses, counted from `number`. -/
def resolutions (t : Table) (clauses : List Sql.ConflictClause) :
    Except Fault (List Table.Resolution) :=
  clauses.zipIdx.mapM fun (clause, i) =>
    match constraint? t clause.target with
    | some group =>
      .ok ⟨group, clause.updates.filterMap fun (column, source) =>
        match t.place? column, t.place? source with
        | some place, some origin => some (place, origin)
        | _, _ => none⟩
    | none => .error (.noConstraint (if 1 < clauses.length then some (i + 1) else none))

/-- Writes records one after another; later ones see the earlier ones.  The written rows are
collected in reverse. -/
def writeAll (places : List Nat) (resolutions : List Table.Resolution) :
    Table → List Row → List (List Cell) → Except Fault (List Row × Table)
  | t, acc, [] => .ok (acc.reverse, t)
  | t, acc, values :: rest =>
    match t.write places resolutions values with
    | .ok (r, t) => writeAll places resolutions t (r :: acc) rest
    | .error fault => .error fault

/-- Sets a column in rows one after another. -/
def setAll (place : Nat) (c : Cell) : Table → List Row → Except Fault Table
  | t, [] => .ok t
  | t, r :: rest => do setAll place c (← (t.remove r.key).add? (← t.setCell r place c)) rest

/-- The natural number of a bound. -/
def boundOf : Cell → Nat
  | .int i => i.toNat
  | _ => 0

/-- The part of a list that a page shows. -/
def paged {α : Type} (bound : Bindings) (page : Option (Sql.Term × Sql.Term)) (xs : List α) :
    List α :=
  match page with
  | some (limit, offset) =>
    (xs.drop (boundOf (termCell bound offset))).take (boundOf (termCell bound limit))
  | none => xs

/-- What a command answers and leaves behind. -/
def perform (db : Database) (bound : Bindings) : Sql.Command → Except Fault (Outcome × Database)
  | .values items =>
    let fields := items.map fun (value, name) => (name, (termCell bound value).toJson)
    .ok ({ rows := [Json.ofPairs fields] }, db)
  | .select name clause order page => do
    let t ← db.table name
    let rows := paged bound page (t.matching bound clause order)
    return ({ rows := rows.map t.record }, db)
  | .count name label clause => do
    let t ← db.table name
    let number := (t.matching bound clause []).length
    return ({ rows := [[(label, .int number)]] }, db)
  | .insert name columns rows conflicts returning => do
    let t ← db.table name
    let places ← columns.mapM fun column =>
      match t.place? column with
      | some place => .ok place
      | none => .error (.noColumn name column)
    let resolutions ← resolutions t conflicts
    let (written, t') ← writeAll places resolutions t [] (rows.map (·.map (termCell bound)))
    return (⟨if returning then written.map t.record else [], written.length⟩, db.replace t')
  | .update name column value clause => do
    let t ← db.table name
    match t.place? column with
    | none => throw (.noUpdateColumn column)
    | some place =>
      let rows := t.matching bound clause []
      let t' ← setAll place (termCell bound value) t rows
      return ({ affected := rows.length }, db.replace t')
  | .delete name clause => do
    let t ← db.table name
    let rows := t.matching bound clause []
    let t' := { t with rows := t.rows.filter (!t.isMatch bound clause ·) }
    return ({ affected := rows.length }, db.replace t')

/-- Runs the statement that a text writes. -/
def run (db : Database) (sql : String) (bound : Bindings) : Except Fault (Outcome × Database) :=
  match Sql.Command.read? sql with
  | some command => db.perform bound command
  | none => .error .unreadable

/-- A call that takes one part of the outcome. -/
def call {α : Type} (part : Outcome → α) (db : Database) (sql : String) (bound : Bindings) :
    Reply α × Database :=
  match db.run sql bound with
  | .ok (outcome, db') => (⟨.ok (part outcome), 0⟩, db')
  | .error fault => (⟨.error fault.toError, 0⟩, db)

/-- Databases as the backend of an engine. -/
def backend : Backend Database where
  query := call Outcome.rows
  execute := call Outcome.affected

end Database
end Store
end Querysmith
