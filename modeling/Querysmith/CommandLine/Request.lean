/-
# Requests

The levels of the program's command line, and what its arguments ask for.

```text
program [settings] OPERATION [arguments]
program [settings] compile [--dialect NAME] OPERATION [arguments]
```
-/

import Querysmith.CommandLine.Operation
import Querysmith.CommandLine.Switch

namespace Querysmith
namespace CommandLine

/-- The name of the program. -/
def program : String := "sqlsieve"

/-- The version of the program. -/
def version : String := "0.1.0"

/-- The database that is used when none is named. -/
def standardDatabase : String := "sqlite:db.sqlite3"

/-! ### Levels -/

/-- The text writes a natural number of 64 bits. -/
def isNatural (s : String) : Bool :=
  (Config.readNatural maxWord s).toOption.isSome

/-- The natural number that a text writes. -/
def naturalOf (s : String) : Nat :=
  (Config.readNatural maxWord s).toOption.getD 0

/-- The table of an operation. -/
def tableSwitch : Switch where
  long := "table"
  short := some 't'
  required := true
  about := "Table name, optionally schema-qualified"

/-- The switches that select rows. -/
def selectionSwitches : List Switch := [
  tableSwitch,
  { long := "filter"
    short := some 'f'
    about := "Filter as JSON (`[[[\"col\", \"op\", value], ...], ...]`), or @file" },
  { long := "soft-delete"
    about := "Soft-delete flag column" }]

/-- The switches that read rows. -/
def readSwitches : List Switch := selectionSwitches ++ [
  { long := "sort"
    arity := .repeated
    about := "Sort tokens; prefix with `-` for descending" }]

/-- The switches of a page. -/
def pageSwitches : List Switch := [
  { long := "page"
    accepts := isNatural
    about := "Zero-based page number"
    standard := some "0" },
  { long := "limit"
    accepts := isNatural
    about := "Rows per page"
    standard := some "30" }]

/-- The switches that write records. -/
def writeSwitches : List Switch := [
  tableSwitch,
  { long := "data"
    short := some 'd'
    required := true
    about := "A record or an array of records as JSON, or @file" },
  { long := "constraints"
    short := some 'c'
    about := "Unique constraints as JSON (`[\"email\", [\"tenant_id\", \"slug\"]]`), or @file" }]

/-- The operations and what they do. -/
def operationNames : List (String × String) := [
  ("get", "Fetch every matching row and the total count"),
  ("list", "Fetch one page of matching rows and the total count"),
  ("count", "Count matching rows"),
  ("remove", "Delete matching rows, or flag them with --soft-delete"),
  ("insert", "Insert records; a duplicate fails with the database error"),
  ("upsert", "Insert records or update the rows they conflict with"),
  ("query", "Run raw SQL with positional parameters")]

/-- The command that describes other commands. -/
def helpCommand : String × String :=
  ("help", "Print this message or the help of the given subcommand(s)")

/-- What showing statements does. -/
def compileAbout : String := "Print the SQL an operation compiles to, without connecting"

/-- The switches of an operation. -/
def operationSwitches : String → List Switch
  | "get" => readSwitches
  | "list" => readSwitches ++ pageSwitches
  | "insert" | "upsert" => writeSwitches
  | "query" => [
    { long := "params"
      short := some 'p'
      about := "JSON array of parameters, or @file" }]
  | _ => selectionSwitches

/-- The level of an operation behind a path. -/
def operationLevel (path : List String) (name : String) : Level where
  path := path ++ [name]
  about := (operationNames.lookup name).getD ""
  switches := operationSwitches name
  operand := if name = "query" then some ("sql", "SQL text") else none

/-- The level that chooses a dialect for statements to show. -/
def compileLevel : Level where
  path := [program, "compile"]
  about := compileAbout
  switches := [
    { long := "dialect"
      accepts := fun name => (Dialect.ofName? name).isSome
      about := "Dialect to compile for"
      standard := some "postgres" }]
  commands := operationNames ++ [helpCommand]

/-- The outermost level. -/
def programLevel : Level where
  path := [program]
  about := "Command-line front end for the sqlsieve query compiler and engine"
  switches := [
    { long := "database"
      short := some 'd'
      about := "Database URL (postgres://... or sqlite:...)"
      substitute := some "DATABASE_URL"
      standard := some standardDatabase },
    { long := "schema"
      short := some 's'
      about := "Schema applied to table names without one"
      substitute := some "SQLSIEVE_SCHEMA" },
    { long := "auto-wildcard"
      arity := .flag
      about := "Wrap `like` values as `%value%`" },
    { long := "normalize-filters"
      arity := .flag
      about := "Normalize filter values with the column-name heuristics" },
    { long := "sequential"
      arity := .flag
      about := "Run write chunks one after another" },
    { long := "verbose"
      short := some 'v'
      arity := .flag
      about := "Enable verbose output" }]
  commands := operationNames ++ [("compile", compileAbout), helpCommand]
  versioned := true

/-! ### Requests -/

/-- What the arguments set for every operation. -/
structure Settings where
  database : Option String
  schema : Option String
  autoWildcard : Bool
  normalizeFilters : Bool
  sequential : Bool
  verbose : Bool
  deriving DecidableEq, Repr

/-- What is to be done. -/
inductive Task where
  | run (operation : Operation)
  | compile (dialect : Dialect) (operation : Operation)
  deriving DecidableEq, Repr

/-- What the arguments ask for. -/
structure Request where
  settings : Settings
  task : Task
  deriving DecidableEq, Repr

/-- The settings among what was found. -/
def Settings.ofFound (f : Found) : Settings where
  database := f.value? "database"
  schema := f.value? "schema"
  autoWildcard := f.has "auto-wildcard"
  normalizeFilters := f.has "normalize-filters"
  sequential := f.has "sequential"
  verbose := f.has "verbose"

/-- The selection among what was found. -/
def Selection.ofFound (f : Found) : Selection where
  table := (f.value? "table").getD ""
  filter := f.value? "filter"
  softDelete := f.value? "soft-delete"

/-- The submission among what was found. -/
def Submission.ofFound (f : Found) : Submission where
  table := (f.value? "table").getD ""
  data := (f.value? "data").getD ""
  constraints := f.value? "constraints"

/-- The order among what was found; a value may hold several tokens with commas between them. -/
def orderOf (f : Found) : SortOrder :=
  .ofTokens ((f.values "sort").flatMap fun value =>
    (Text.splitOn ',' value.toList).map String.ofList)

/-- The page among what was found. -/
def pageOf (f : Found) : Page :=
  let standard : Page := {}
  { page := ((f.value? "page").map naturalOf).getD standard.page
    limit := ((f.value? "limit").map naturalOf).getD standard.limit }

/-- The operation of a name with what was found on its level. -/
def Operation.ofFound (name : String) (f : Found) : Operation :=
  match name with
  | "get" => .get (.ofFound f) (orderOf f)
  | "list" => .list (.ofFound f) (orderOf f) (pageOf f)
  | "count" => .count (.ofFound f)
  | "remove" => .remove (.ofFound f)
  | "insert" => .insert (.ofFound f)
  | "upsert" => .upsert (.ofFound f)
  | _ => .query (f.operands.headD "") (f.value? "params")

/-- The arguments of an operation. -/
def readOperation (path : List String) (name : String) (args : List String) :
    Except Stop Operation := do
  let level := operationLevel path name
  let (found, _) ← level.scan {} none args
  if level.isComplete found then return .ofFound name found else throw .usage

/-- The level that a call for help names. -/
def levelOf (l : Level) : List String → Except Stop Level
  | [] => .ok l
  | name :: rest =>
    if l.commands.any (·.1 == name) then
      if name = "compile" then levelOf compileLevel rest
      else levelOf (operationLevel l.path name) rest
    else .error .usage

/-- A call for help. -/
def helpStop {α : Type} (l : Level) (args : List String) : Except Stop α := do
  throw (.help (← levelOf l args))

/-- What arguments ask for. -/
def Request.read (args : List String) : Except Stop Request := do
  let (found, command) ← programLevel.scan {} none args
  let settings := Settings.ofFound found
  match command with
  | none => throw .usage
  | some ("help", rest) => helpStop programLevel rest
  | some ("compile", rest) =>
    let (found, command) ← compileLevel.scan {} none rest
    let dialect := ((found.value? "dialect").bind Dialect.ofName?).getD .postgres
    match command with
    | none => throw .usage
    | some ("help", rest) => helpStop compileLevel rest
    | some (name, rest) =>
      return ⟨settings, .compile dialect (← readOperation compileLevel.path name rest)⟩
  | some (name, rest) =>
    return ⟨settings, .run (← readOperation programLevel.path name rest)⟩

end CommandLine
end Querysmith
