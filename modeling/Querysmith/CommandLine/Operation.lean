/-
# Operations

The operations of the command line.  Their arguments are texts: a filter, records, constraints and
parameters are JSON, written out or, behind an `@`, the path of a file that holds it.  An operation
is either compiled, which shows its statements, or run on an engine.
-/

import Querysmith.Engine

namespace Querysmith
namespace CommandLine

/-- Why a run of the program fails. -/
inductive Failure where
  | notJson (raw : String)
  | fileNotJson (path : String)
  | unreadableFile (path : String)
  | paramsNotArray (got : Json)
  | inFilter (e : Error)
  | inConstraints (e : Error)
  | error (e : Error)
  /-- No server answers. -/
  | unreachable

namespace Failure

/-- The wording of a failure. -/
def message : Failure → String
  | notJson raw => "not valid JSON: " ++ raw
  | fileNotJson path => path ++ " is not valid JSON"
  | unreadableFile path => "failed to read " ++ path
  | paramsNotArray got => "--params must be a JSON array, got " ++ got.text
  | inFilter _ => "invalid --filter"
  | inConstraints _ => "invalid --constraints"
  | error e => e.message
  | unreachable => "pool timed out while waiting for an open connection"

/-- What is behind a failure, the outermost cause first. -/
def causes : Failure → List String
  | inFilter e | inConstraints e => e.message :: e.causes
  | error e => e.causes
  | _ => []

/-- A text whose further lines are indented. -/
def indented (blanks : Nat) (s : String) : String :=
  Text.joinWith (String.ofList ('\n' :: List.replicate blanks ' '))
    ((Text.splitOn '\n' s.toList).map String.ofList)

/-- The message and the causes, which are numbered when there are several. -/
def report (f : Failure) : String :=
  match f.causes with
  | [] => f.message
  | [cause] => f.message ++ "\n\nCaused by:\n    " ++ indented 4 cause
  | causes =>
    f.message ++ "\n\nCaused by:" ++
      String.join (causes.zipIdx.map fun (cause, i) =>
        "\n    " ++ Text.ofNat i ++ ": " ++ indented 7 cause)

end Failure

/-- The contents of files by their paths. -/
abbrev Files := String → Option String

/-- The document of an argument. -/
def readDocument (files : Files) (raw : String) : Except Failure Json :=
  match raw.toList with
  | '@' :: path =>
    let path := String.ofList path
    match files path with
    | none => .error (.unreadableFile path)
    | some text => match Json.parse? text with
      | some v => .ok v
      | none => .error (.fileNotJson path)
  | _ => match Json.parse? raw with
    | some v => .ok v
    | none => .error (.notJson raw)

/-- The document of an argument that may be left out; null when it is. -/
def readOptional (files : Files) : Option String → Except Failure Json
  | some raw => readDocument files raw
  | none => .ok .null

/-- The parameters of a caller's own statement. -/
def readParams (files : Files) (raw : Option String) : Except Failure (List Json) := do
  match ← readOptional files raw with
  | .null => return []
  | .arr items => return items
  | v => throw (.paramsNotArray v)

/-- Which rows of a table an operation is about. -/
structure Selection where
  table : String
  filter : Option String
  softDelete : Option String
  deriving DecidableEq, Repr

namespace Selection

/-- The filter of a selection. -/
def read (s : Selection) (files : Files) : Except Failure Filter := do
  (Filter.ofJson (← readOptional files s.filter)).mapError .inFilter

end Selection

/-- What a writing operation writes. -/
structure Submission where
  table : String
  data : String
  constraints : Option String
  deriving DecidableEq, Repr

namespace Submission

/-- The records of a submission. -/
def readData (s : Submission) (files : Files) : Except Failure Json :=
  readDocument files s.data

/-- The constraints of a submission. -/
def readConstraints (s : Submission) (files : Files) : Except Failure ConstraintSpec := do
  (ConstraintSpec.ofJson (← readOptional files s.constraints)).mapError .inConstraints

end Submission

/-- An operation. -/
inductive Operation where
  | get (rows : Selection) (order : SortOrder)
  | list (rows : Selection) (order : SortOrder) (page : Page)
  | count (rows : Selection)
  | remove (rows : Selection)
  | insert (records : Submission)
  | upsert (records : Submission)
  | query (sql : String) (params : Option String)
  deriving DecidableEq, Repr

namespace Operation

/-- The statements of an operation.  An insert leaves its constraints unread. -/
def compile (c : Compiler) (files : Files) : Operation → Except Failure (List Statement)
  | get rows order => do
    let f ← rows.read files
    return [← (c.select rows.table f order rows.softDelete none).mapError .error]
  | list rows order page => do
    let f ← rows.read files
    return [← (c.select rows.table f order rows.softDelete (some page)).mapError .error]
  | count rows => do
    let f ← rows.read files
    return [← (c.count rows.table f rows.softDelete).mapError .error]
  | remove rows => do
    let f ← rows.read files
    return [← (c.delete rows.table f rows.softDelete).mapError .error]
  | insert records => do
    let data ← records.readData files
    let rows ← (RowSet.ofJson data).mapError .error
    return (← (c.insert records.table rows).mapError .error).statements
  | upsert records => do
    let data ← records.readData files
    let rows ← (RowSet.ofJson data).mapError .error
    let spec ← records.readConstraints files
    return (← (c.upsert records.table rows spec).mapError .error).statements
  | query sql params => do
    return [.raw sql ((← readParams files params).map .ofJson)]

/-- The lines that show a statement: its text, and each bound value behind its number. -/
def listing (s : Statement) : String :=
  String.join (((s.sql ++ ";") :: s.paramLines).map (· ++ "\n"))

/-- A computation on a session of an engine that may fail. -/
abbrev Job (σ : Type) := ExceptT Failure (StateM (Session σ))

/-- A run of an engine as a job. -/
def job {σ α : Type} (r : Run σ α) : Job σ α :=
  fun s => match r s with
    | (.ok a, s) => (.ok a, s)
    | (.error e, s) => (.error (.error e), s)

/-- What is read from the arguments, as a step of a job. -/
def settle {σ α : Type} : Except Failure α → Job σ α
  | .ok a => pure a
  | .error f => throw f

/-- Runs an operation; the result is a document. -/
def run {σ : Type} (e : Engine σ) (files : Files) : Operation → Job σ Json
  | get rows order => do
    let f ← settle (rows.read files)
    return (← job (e.get rows.table f order rows.softDelete)).toJson
  | list rows order page => do
    let f ← settle (rows.read files)
    return (← job (e.list rows.table f order rows.softDelete page)).toJson
  | count rows => do
    let f ← settle (rows.read files)
    return .int (← job (e.count rows.table f rows.softDelete))
  | remove rows => do
    let f ← settle (rows.read files)
    return (← job (e.remove rows.table f rows.softDelete)).toJson
  | insert records => do
    let data ← settle (records.readData files)
    let spec ← settle (records.readConstraints files)
    return (← job (e.insert records.table data spec)).toJson
  | upsert records => do
    let data ← settle (records.readData files)
    let spec ← settle (records.readConstraints files)
    return (← job (e.upsert records.table data spec)).toJson
  | query sql params => do
    let params ← settle (readParams files params)
    return .arr ((← job (e.runQuery sql params)).map .obj)

end Operation
end CommandLine
end Querysmith
