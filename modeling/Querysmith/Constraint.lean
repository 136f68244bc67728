/-
# Unique constraints

What a caller declares as unique in a table: a column, or a group of columns that are unique
together.  Conflicts are resolved group by group, the composite groups first.
-/

import Querysmith.Error

namespace Querysmith

/-- A unique constraint. -/
inductive Constraint where
  /-- A unique column. -/
  | simple (column : String)
  /-- Columns that are unique together. -/
  | composite (columns : List String)
  deriving DecidableEq, Repr

namespace Constraint

/-- The constrained columns. -/
def columns : Constraint → List String
  | simple column => [column]
  | composite columns => columns

/-- The column that a JSON value names. -/
def readColumn : Json → Except Error String
  | .str column => .ok column
  | v => .error (.invalidConstraint (.columnNotText v))

/-- Fails on a constraint with an empty column name or without columns. -/
def checked (c : Constraint) : Except Error Constraint :=
  if c.columns.contains "" then .error (.invalidConstraint .emptyColumn)
  else if c.columns.isEmpty then .error (.invalidConstraint .noColumns)
  else .ok c

/-- Reads an entry: a text is a column, an array or the keys of an object a group of columns. -/
def ofJson : Json → Except Error Constraint
  | .str column => checked (simple column)
  | .arr columns => do checked (composite (← columns.mapM readColumn))
  | .obj fields => checked (composite (fields.map (·.1)))
  | v => .error (.invalidConstraint (.unsupportedEntry v))

end Constraint

/-- The declared constraints of a table, in order of declaration. -/
structure ConstraintSpec where
  entries : List Constraint
  deriving DecidableEq, Repr

namespace ConstraintSpec

/-- No constraints. -/
def none : ConstraintSpec := ⟨[]⟩

/-- Reads an array of entries; null is no constraint and a text one column. -/
def ofJson : Json → Except Error ConstraintSpec
  | .null => .ok none
  | .str column => do return ⟨[← Constraint.ofJson (.str column)]⟩
  | .arr entries => do return ⟨← entries.mapM Constraint.ofJson⟩
  | v => .error (.invalidConstraint (.notArray v))

/-- The spec with a further constraint. -/
def add (spec : ConstraintSpec) (c : Constraint) : ConstraintSpec := ⟨spec.entries ++ [c]⟩

/-- The composite groups in order of declaration. -/
def composites (spec : ConstraintSpec) : List (List String) :=
  spec.entries.filterMap fun
    | .composite columns => some columns
    | .simple _ => Option.none

/-- The unique columns in order of declaration. -/
def simples (spec : ConstraintSpec) : List String :=
  spec.entries.filterMap fun
    | .simple column => some column
    | .composite _ => Option.none

/-- Every constraint as a group of columns: the composite ones, then the single columns. -/
def groups (spec : ConstraintSpec) : List (List String) :=
  spec.composites ++ spec.simples.map ([·])

/-- Every constrained column, in the order of the groups. -/
def columns (spec : ConstraintSpec) : List String :=
  spec.groups.flatten

/-- The number of constraints. -/
def total (spec : ConstraintSpec) : Nat :=
  spec.composites.length + spec.simples.length

/-- The group that stands for all where only one can be named. -/
def firstTarget? (spec : ConstraintSpec) : Option (List String) :=
  spec.groups.head?

end ConstraintSpec
end Querysmith
