/-
# Identifiers

Every table and column name of a statement is quoted, and before that it is checked: no database
takes an empty name or one with a NUL character.  A table is named by itself or behind its schema
and a dot.
-/

import Querysmith.Error
import Querysmith.Fragment

namespace Querysmith
namespace Identifier

/-- The name can be quoted: it is not empty and holds no NUL. -/
def isUsable (name : String) : Bool :=
  !name.toList.isEmpty && !name.toList.contains (Char.ofNat 0)

/-- Fails on a name that cannot be quoted. -/
def check (name : String) : Except Error Unit :=
  if name.toList.isEmpty then .error (.invalidIdentifier .empty)
  else if name.toList.contains (Char.ofNat 0) then .error (.invalidIdentifier (.holdsNul name))
  else .ok ()

/-- The check passes exactly the usable names. -/
theorem check_eq_ok_iff {name : String} : check name = .ok () ↔ isUsable name = true := by
  rw [check, isUsable]
  cases name.toList.isEmpty <;> cases name.toList.contains (Char.ofNat 0) <;> simp

/-- The quoted name as a fragment. -/
def fragment (name : String) : Except Error Fragment := do
  check name
  return [.name name]

/-- Quoted names with commas between them, as a fragment. -/
def listFragment (names : List String) : Except Error Fragment := do
  return .joined ", " (← names.mapM fragment)

/-- The quoted name. -/
def quote (d : Dialect) (name : String) : Except Error String :=
  (fragment name).map (·.sql d 0)

/-- Quoted names with commas between them. -/
def quoteList (d : Dialect) (names : List String) : Except Error String :=
  (listFragment names).map (·.sql d 0)

end Identifier

/-- A table, perhaps inside a schema. -/
structure TableName where
  schema : Option String
  name : String
  deriving DecidableEq, Repr

namespace TableName

/-- The table that a text names: what stands before the first dot is the schema, and without a dot
the default schema is taken. -/
def resolve (table : String) (defaultSchema : Option String) : Except Error TableName :=
  let (schema, name) := match Text.splitOnce table "." with
    | some (schema, name) => (some schema, name)
    | none => (defaultSchema, table)
  if name = "" ∨ schema = some "" then .error (.invalidIdentifier (.badTable table))
  else .ok ⟨schema, name⟩

/-- The quoted table name as a fragment; the name is checked before its schema. -/
def fragment (table : TableName) : Except Error Fragment := do
  let name ← Identifier.fragment table.name
  match table.schema with
  | some schema => return (← Identifier.fragment schema) ++ [.text "."] ++ name
  | none => return name

/-- The quoted table name. -/
def sql (d : Dialect) (table : TableName) : Except Error String :=
  table.fragment.map (·.sql d 0)

end TableName
end Querysmith
