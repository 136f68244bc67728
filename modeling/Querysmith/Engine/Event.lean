/-
# Events

What an engine notes while it works, and the line that is logged for each event.
-/

import Querysmith.Compiler.Upsert
import Querysmith.Compiler.Read

namespace Querysmith

/-- Something that an engine notes. -/
inductive Event where
  /-- A statement was compiled; `kind` is `select`, `count` or `delete`. -/
  | compiled (kind sql : String) (params : Nat)
  | compiledInsert (rows params : Nat)
  | compiledUpsert (rows params : Nat) (strategy : Strategy)
  /-- Several constraints are declared and only one can be named. -/
  | fallsBack (dialect : String) (rows constraints : Nat) (target : List String)
  | constraintsIgnored (table : String)
  | fetched (rows : Nat)
  | countFailed (table message : String)
  | removed (table : String) (rows : Nat) (soft : Bool)
  | noId (table : String) (returned : Nat)
  | saved (table : String) (rows chunks : Nat)
  deriving DecidableEq, Repr

namespace Event

/-- The line of an event: its level, its message and its fields. -/
def line : Event → String
  | compiled kind sql params =>
    "DEBUG compiled " ++ kind ++ " sql=" ++ sql ++ " params=" ++ Text.ofNat params
  | compiledInsert rows params =>
    "DEBUG compiled insert chunk rows=" ++ Text.ofNat rows ++ " params=" ++ Text.ofNat params
  | compiledUpsert rows params strategy =>
    "DEBUG compiled upsert chunk rows=" ++ Text.ofNat rows ++ " params=" ++ Text.ofNat params ++
      " strategy=" ++ strategy.describe
  | fallsBack dialect rows constraints target =>
    "WARN multi-constraint upsert falls back to the first constraint dialect=" ++
      Text.quoted dialect ++ " rows=" ++ Text.ofNat rows ++
      " constraints=" ++ Text.ofNat constraints ++ " conflict_target=" ++ Text.quotedList target
  | constraintsIgnored table =>
    "DEBUG insert ignores constraints, use upsert to resolve conflicts table=" ++ Text.quoted table
  | fetched rows => "DEBUG fetched rows=" ++ Text.ofNat rows
  | countFailed table message =>
    "WARN count failed, reporting 0 table=" ++ Text.quoted table ++ " error=" ++ message
  | removed table rows soft =>
    "INFO removed table=" ++ Text.quoted table ++ " rows=" ++ Text.ofNat rows ++
      " soft=" ++ Options.flagWord soft
  | noId table returned =>
    "DEBUG single-record write reported no id table=" ++ Text.quoted table ++
      " returned=" ++ Text.ofNat returned
  | saved table rows chunks =>
    "INFO saved table=" ++ Text.quoted table ++ " rows=" ++ Text.ofNat rows ++
      " chunks=" ++ Text.ofNat chunks

/-- What compiling an insert notes: each chunk with its statement. -/
def ofInsert (c : Compiler) (rows : RowSet) (plan : WritePlan) : List Event :=
  List.zipWith (fun chunk s => compiledInsert chunk.length s.params.length) (c.chunked rows)
    plan.statements

/-- What compiling the chunks of an upsert notes, up to the first that fails. -/
def ofUpsert (d : Dialect) (spec : ConstraintSpec) : List Compiler.UpsertChunk → List Event
  | [] => []
  | chunk :: rest =>
    let fallback :=
      if chunk.strategy.fallsBack spec then
        [fallsBack d.name chunk.rows spec.total (spec.firstTarget?.getD [])]
      else []
    match chunk.statement with
    | .ok s =>
      fallback ++ compiledUpsert chunk.rows s.params.length chunk.strategy :: ofUpsert d spec rest
    | .error _ => fallback

end Event
end Querysmith
