/-
# Dialects

What a database wants written differently: the quote around identifiers, the placeholders of bound
values, how many values a statement may bind, and which features its statements may use.
-/

import Querysmith.Text

namespace Querysmith

/-- How the placeholder of a bound value is written. -/
inductive Marker where
  /-- A sign followed by the number of the value, counted from one. -/
  | numbered (sign : String)
  /-- A sign alone. -/
  | bare (sign : String)
  deriving DecidableEq, Repr

/-- The dialect of a database.  Without further features a dialect has no `RETURNING`, no casts of
placeholders, no writes inside a `WITH` and one `ON CONFLICT` clause a statement. -/
structure Dialect where
  name : String
  marker : Marker
  maxParameters : Nat
  quote : Char := '"'
  returning : Bool := false
  typeCasts : Bool := false
  writableCte : Bool := false
  chainedConflicts : Bool := false
  deriving DecidableEq, Repr

namespace Dialect

/-- PostgreSQL: `$n`, casts as `$n::type`, and writes inside a `WITH`. -/
def postgres : Dialect where
  name := "postgresql"
  marker := .numbered "$"
  maxParameters := 65535
  returning := true
  typeCasts := true
  writableCte := true

/-- SQLite: `?n`, and several `ON CONFLICT` clauses a statement. -/
def sqlite : Dialect where
  name := "sqlite"
  marker := .numbered "?"
  maxParameters := 32766
  returning := true
  chainedConflicts := true

/-- The placeholder of the value with a number, counted from one. -/
def placeholder (d : Dialect) (n : Nat) : String :=
  match d.marker with
  | .numbered sign => sign ++ Text.ofNat n
  | .bare sign => sign

/-- A placeholder with a cast; a dialect without casts leaves it out. -/
def cast (d : Dialect) (placeholder target : String) : String :=
  if d.typeCasts then placeholder ++ "::" ++ target else placeholder

/-- The placeholder of a value that may have a cast. -/
def castPlaceholder (d : Dialect) (n : Nat) (target : Option String) : String :=
  match target with
  | some target => d.cast (d.placeholder n) target
  | none => d.placeholder n

/-- A name between the quotes of the dialect, with each quote inside it written twice. -/
def quoteIdentifier (d : Dialect) (name : String) : String :=
  String.ofList (d.quote :: Text.double d.quote name.toList ++ [d.quote])

/-- The dialect of a name, in either case. -/
def ofName? (name : String) : Option Dialect :=
  let word := Text.lowerAscii name
  if word = "postgres" ∨ word = "postgresql" ∨ word = "pg" then some postgres
  else if word = "sqlite" then some sqlite
  else none

/-- The message about a name that no dialect has. -/
def unknownName (name : String) : String :=
  "unknown dialect: " ++ Text.lowerAscii name

/-- The dialect of the database that a URL names. -/
def ofUrl? (url : String) : Option Dialect :=
  if Text.startsWith url "postgres://" || Text.startsWith url "postgresql://" then some postgres
  else if Text.startsWith url "sqlite:" then some sqlite
  else none

end Dialect
end Querysmith
