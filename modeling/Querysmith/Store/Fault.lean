/-
# Faults of a store

Why a store refuses a statement, with the number and the wording of each reason.
-/

import Querysmith.Error
import Querysmith.Identifier

namespace Querysmith
namespace Store

/-- Why a statement fails. -/
inductive Fault where
  /-- The text is no statement that the store reads. -/
  | unreadable
  | noTable (table : TableName)
  | noColumn (table : TableName) (column : String)
  /-- The column of an update is not there. -/
  | noUpdateColumn (column : String)
  /-- No unique constraint has the columns of a conflict clause; the number of the clause is given
  when the statement has more than one. -/
  | noConstraint (number : Option Nat)
  | notNull (table column : String)
  | unique (table : String) (columns : List String)
  | primaryKey (table column : String)
  /-- The key of a row is no integer. -/
  | keyMismatch
  /-- The place of the database cannot be reached. -/
  | cannotOpen
  deriving DecidableEq, Repr

/-- A table name as a message shows it. -/
def tableText (table : TableName) : String :=
  match table.schema with
  | some schema => schema ++ "." ++ table.name
  | none => table.name

/-- An ordinal number in front of a noun: `1st `, `2nd `, `3rd `, `4th `. -/
def ordinal (n : Nat) : String :=
  let ending :=
    if n / 10 % 10 = 1 then "th"
    else match n % 10 with
      | 1 => "st"
      | 2 => "nd"
      | 3 => "rd"
      | _ => "th"
  Text.ofNat n ++ ending ++ " "

namespace Fault

/-- The number of a fault. -/
def code : Fault → Nat
  | notNull .. => 1299
  | unique .. => 2067
  | primaryKey .. => 1555
  | keyMismatch => 20
  | cannotOpen => 14
  | _ => 1

/-- The wording of a fault. -/
def text : Fault → String
  | unreadable => "syntax error"
  | noTable table => "no such table: " ++ tableText table
  | noColumn table column => "table " ++ tableText table ++ " has no column named " ++ column
  | noUpdateColumn column => "no such column: " ++ column
  | noConstraint number =>
    (number.map ordinal).getD "" ++
      "ON CONFLICT clause does not match any PRIMARY KEY or UNIQUE constraint"
  | notNull table column => "NOT NULL constraint failed: " ++ table ++ "." ++ column
  | unique table columns =>
    "UNIQUE constraint failed: " ++ Text.joinWith ", " (columns.map (table ++ "." ++ ·))
  | primaryKey table column => "UNIQUE constraint failed: " ++ table ++ "." ++ column
  | keyMismatch => "datatype mismatch"
  | cannotOpen => "unable to open database file"

/-- The number and the wording. -/
def report (f : Fault) : String :=
  "(code: " ++ Text.ofNat f.code ++ ") " ++ f.text

/-- The fault as an error of a request. -/
def toError (f : Fault) : Error :=
  let message := "error returned from database: " ++ f.report
  .engine message [message, f.report]

end Fault
end Store
end Querysmith
