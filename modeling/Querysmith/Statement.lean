/-
# Statements

A compiled statement: its text, the values it binds in the order of their placeholders, and whether
it yields rows.
-/

import Querysmith.Fragment

namespace Querysmith

/-- A statement with its bound values. -/
structure Statement where
  sql : String
  params : List SqlValue
  returnsRows : Bool
  deriving DecidableEq, Repr

namespace Statement

/-- The statement that a fragment writes in a dialect. -/
def ofFragment (d : Dialect) (f : Fragment) (returnsRows : Bool) : Statement :=
  ⟨f.sql d 0, f.values, returnsRows⟩

/-- A caller's own text with its values. -/
def raw (sql : String) (params : List SqlValue) : Statement :=
  ⟨sql, params, true⟩

/-- One line of a dry run: the number and the value of a parameter. -/
def paramLine (number : Nat) (v : SqlValue) : String :=
  "  -- " ++ Text.ofNat number ++ " = " ++ v.inline

/-- The lines of a dry run behind the text of the statement. -/
def paramLines (s : Statement) : List String :=
  s.params.zipIdx.map fun (v, i) => paramLine (i + 1) v

/-- What a dry run shows: the text, and below it a line for each bound value. -/
def display (s : Statement) : String :=
  Text.joinWith "\n" (s.sql :: s.paramLines)

end Statement

/-- The statements of a write, one a chunk, and the number of records. -/
structure WritePlan where
  statements : List Statement
  rows : Nat
  deriving DecidableEq, Repr

end Querysmith
