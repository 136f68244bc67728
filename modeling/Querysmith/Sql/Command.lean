/-
# Commands

What a statement asks of a database, without the text that says it.
-/

import Querysmith.Filter.Operator
import Querysmith.Identifier
import Querysmith.SortOrder
import Querysmith.Value

namespace Querysmith
namespace Sql

/-- A value in a statement. -/
inductive Term where
  /-- The bound value with a number, counted from one. -/
  | placeholder (n : Nat)
  | literal (v : SqlValue)
  deriving DecidableEq, Repr, Inhabited

/-- One test of a condition. -/
inductive Test where
  | compare (column : String) (op : Operator) (operand : Term)
  /-- `in`, or `not in` when negated. -/
  | member (column : String) (negated : Bool) (operands : List Term)
  /-- `1 = 1` or `1 = 0`. -/
  | constant (holds : Bool)
  deriving DecidableEq, Repr, Inhabited

/-- An OR of ANDs of tests. -/
abbrev Clause := List (List Test)

/-- An `ON CONFLICT` clause: the columns of the conflict, and the columns that are set, each with
the column of the new record that it is set to. -/
structure ConflictClause where
  target : List String
  updates : List (String × String)
  deriving DecidableEq, Repr

/-- A command. -/
inductive Command where
  /-- The values of terms, each under a name. -/
  | values (items : List (Term × String))
  /-- Rows; the page is a limit and an offset. -/
  | select (table : TableName) (clause : Option Clause) (order : List SortKey)
      (page : Option (Term × Term))
  /-- The number of rows, under a name. -/
  | count (table : TableName) (name : String) (clause : Option Clause)
  | insert (table : TableName) (columns : List String) (rows : List (List Term))
      (conflicts : List ConflictClause) (returning : Bool)
  /-- Sets one column. -/
  | update (table : TableName) (column : String) (value : Term) (clause : Option Clause)
  | delete (table : TableName) (clause : Option Clause)
  deriving DecidableEq, Repr

end Sql
end Querysmith
