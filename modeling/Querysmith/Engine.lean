/-
# The engine

Compiles requests and runs them on a backend.  A read runs its statement and then counts the
matching rows; a count that fails is reported as zero, since the rows are there already.  A write
runs one statement a chunk, either one after another or all at once.

Writes at once go in rounds: in the first round every chunk is started, in record order, and in each
further round the unfinished ones are asked in that order.  The first failure to be there ends the
write; in the first round the chunks behind it are not even started.
-/

import Querysmith.Engine.Backend
import Querysmith.Engine.Config
import Querysmith.Engine.Event
import Querysmith.Engine.Result

namespace Querysmith

/-- A compiler, a backend and their configuration. -/
structure Engine (σ : Type) where
  backend : Backend σ
  compiler : Compiler
  config : Config

/-- How a statement was sent. -/
inductive Via where
  | query
  | execute
  deriving DecidableEq, Repr

/-- A statement that was sent. -/
structure Call where
  via : Via
  sql : String
  params : List SqlValue
  deriving DecidableEq, Repr

/-- The state of a session: the database, and what happened so far. -/
structure Session (σ : Type) where
  database : σ
  /-- The statements sent, in the order in which they were started. -/
  calls : List Call := []
  /-- The places of the calls in the order in which they were finished. -/
  finished : List Nat := []
  events : List Event := []

/-- A computation on a session that may fail; what happened before a failure stays. -/
abbrev Run (σ : Type) := ExceptT Error (StateM (Session σ))

namespace Engine

/-- The engine of a dialect. -/
def ofDialect {σ : Type} (backend : Backend σ) (d : Dialect) (config : Config) : Engine σ where
  backend := backend
  compiler := .ofDialect d config.options
  config := config

variable {σ : Type} (e : Engine σ)

/-- Notes an event. -/
def note (event : Event) : Run σ Unit :=
  modify fun s => { s with events := s.events ++ [event] }

/-- Notes events in order. -/
def noteAll (events : List Event) : Run σ Unit :=
  modify fun s => { s with events := s.events ++ events }

/-- Sends a statement for its rows. -/
def sendQuery (s : Session σ) (sql : String) (params : List SqlValue) :
    Reply (List Record) × Session σ :=
  let (reply, database) := e.backend.query s.database sql params
  (reply, { s with database := database, calls := s.calls ++ [⟨.query, sql, params⟩] })

/-- Sends a statement for the number of rows that it touches. -/
def sendExecute (s : Session σ) (sql : String) (params : List SqlValue) :
    Reply Nat × Session σ :=
  let (reply, database) := e.backend.execute s.database sql params
  (reply, { s with database := database, calls := s.calls ++ [⟨.execute, sql, params⟩] })

/-- Sends a writing statement; one that yields no rows answers none. -/
def sendWrite (s : Session σ) (statement : Statement) : Reply (List Record) × Session σ :=
  if statement.returnsRows then e.sendQuery s statement.sql statement.params
  else
    let (reply, s') := e.sendExecute s statement.sql statement.params
    (⟨reply.outcome.map fun _ => [], reply.delay⟩, s')

/-- The outcome of a call or of compiling, as a step of a run. -/
def settle {α : Type} : Except Error α → Run σ α
  | .ok a => pure a
  | .error err => throw err

/-- Sends a statement and waits for its outcome. -/
def await {α : Type} (send : Session σ → Reply α × Session σ) : Run σ α := do
  let s ← MonadState.get
  let (reply, s') := send s
  set { s' with finished := s'.finished ++ [s.calls.length] }
  settle reply.outcome

/-! ### Reading -/

/-- The rows of a statement, with the documents in their texts read if that is configured. -/
def read (s : Statement) : Run σ (List Record) := do
  let rows ← await (e.sendQuery · s.sql s.params)
  note (.fetched rows.length)
  return if e.config.parseJsonText then decodeJsonText rows else rows

/-- The number in the cell of a count: a natural number of 64 bits, or a text that writes one. -/
def countValue? : Json → Option Nat
  | .int i => if 0 ≤ i ∧ i ≤ maxWord then some i.toNat else none
  | .str s => (Config.readNatural maxWord (Text.trim s)).toOption
  | _ => none

/-- The number of matching rows; zero when the database does not tell. -/
def count (table : String) (f : Filter) (softDelete : Option String) : Run σ Nat := do
  let s ← settle (e.compiler.count table f softDelete)
  note (.compiled "count" s.sql s.params.length)
  try
    let rows ← await (e.sendQuery · s.sql s.params)
    return ((rows.head?.bind (·.lookup "number")).bind countValue?).getD 0
  catch err =>
    note (.countFailed table err.message)
    return 0

/-- Matching rows, and their number over all pages. -/
def select (table : String) (f : Filter) (order : SortOrder) (softDelete : Option String)
    (page : Option Page) : Run σ ReadResult := do
  let s ← settle (e.compiler.select table f order softDelete page)
  note (.compiled "select" s.sql s.params.length)
  let data ← e.read s
  let count ← e.count table f softDelete
  return ⟨data, count⟩

/-- Every matching row. -/
def get (table : String) (f : Filter) (order : SortOrder) (softDelete : Option String) :
    Run σ ReadResult :=
  e.select table f order softDelete none

/-- One page of the matching rows. -/
def list (table : String) (f : Filter) (order : SortOrder) (softDelete : Option String)
    (page : Page) : Run σ ReadResult :=
  e.select table f order softDelete (some page)

/-- The rows of a caller's own statement. -/
def runQuery (sql : String) (params : List Json) : Run σ (List Record) :=
  e.read (.raw sql (params.map .ofJson))

/-! ### Writing -/

/-- Removes the matching rows, or flags them on a soft-delete column. -/
def remove (table : String) (f : Filter) (softDelete : Option String) : Run σ RemoveResult := do
  let s ← settle (e.compiler.delete table f softDelete)
  note (.compiled "delete" s.sql s.params.length)
  let rows ← await (e.sendExecute · s.sql s.params)
  note (.removed table rows softDelete.isSome)
  return .removed table rows

/-- Runs the chunks one after another, up to the first that fails. -/
def writeInOrder : List Statement → Run σ (List (List Record))
  | [] => pure []
  | statement :: rest => do
    let rows ← await (e.sendWrite · statement)
    return rows :: (← writeInOrder rest)

/-- A chunk that was started: its place among the calls and its reply. -/
structure Started where
  place : Nat
  reply : Reply (List Record)

/-- Starts the chunks in order.  A chunk that fails at once ends the round: the chunks behind it are
not started. -/
def startAll (s : Session σ) : List Statement → List Started × Session σ
  | [] => ([], s)
  | statement :: rest =>
    let (reply, s') := e.sendWrite s statement
    let chunk : Started := ⟨s.calls.length, reply⟩
    if reply.delay = 0 ∧ reply.outcome.toOption.isNone then ([chunk], s')
    else
      let (chunks, s'') := startAll s' rest
      (chunk :: chunks, s'')

/-- The started chunks in the order in which they finish: by round, and in a round by record. -/
def finishOrder (chunks : List Started) : List Started :=
  chunks.mergeSort fun a b => a.reply.delay ≤ b.reply.delay

/-- The chunks that finish before the write ends, and the failure that ends it, if any. -/
def untilFailure : List Started → List Nat × Option Error
  | [] => ([], none)
  | chunk :: rest =>
    match chunk.reply.outcome with
    | .ok _ =>
      let (places, failure) := untilFailure rest
      (chunk.place :: places, failure)
    | .error err => ([chunk.place], some err)

/-- Runs the chunks at once.  The rows are those of the chunks in record order. -/
def writeAtOnce (statements : List Statement) : Run σ (List (List Record)) := do
  let session ← MonadState.get
  let (chunks, session') := e.startAll session statements
  let (places, failure) := untilFailure (finishOrder chunks)
  set { session' with finished := session'.finished ++ places }
  match failure with
  | some err => throw err
  | none => return chunks.filterMap (·.reply.outcome.toOption)

/-- Runs a write plan.  When it writes one record, the identifier is taken from the first row that
came back. -/
def write (table : String) (plan : WritePlan) : Run σ WriteResult := do
  let results ←
    if e.config.sequentialChunks then e.writeInOrder plan.statements
    else e.writeAtOnce plan.statements
  let id := if plan.rows = 1 then (results.head?.bind List.head?).bind extractId else none
  if plan.rows = 1 ∧ id.isNone then
    note (.noId table results.flatten.length)
  note (.saved table plan.rows plan.statements.length)
  return .saved table plan.rows id

/-- Inserts a record or an array of records.  Constraints change nothing here: a collision is an
error of the database. -/
def insert (table : String) (data : Json) (spec : ConstraintSpec) : Run σ WriteResult := do
  let rows ← settle (RowSet.ofJson data)
  unless spec.entries.isEmpty do note (.constraintsIgnored table)
  let plan ← settle (e.compiler.insert table rows)
  noteAll (Event.ofInsert e.compiler rows plan)
  e.write table plan

/-- Inserts or updates a record or an array of records. -/
def upsert (table : String) (data : Json) (spec : ConstraintSpec) : Run σ WriteResult := do
  let rows ← settle (RowSet.ofJson data)
  let chunks ← settle (e.compiler.upsertChunks table rows spec)
  noteAll (Event.ofUpsert e.compiler.dialect spec chunks)
  let statements ← settle (chunks.mapM (·.statement))
  e.write table ⟨statements, rows.rows.length⟩

end Engine
end Querysmith
