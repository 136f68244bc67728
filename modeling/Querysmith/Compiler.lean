/-
# The compiler

What the statements of all operations share: the dialect, the casts, the normalizer and the options
of a compiler, how many records go into one statement, and the page of a listing.
-/

import Querysmith.Cast
import Querysmith.Filter.Where
import Querysmith.Statement

namespace Querysmith

/-- The options of a compiler. -/
structure Options where
  /-- The schema of tables that are named without one. -/
  schema : Option String := none
  /-- Patterns are put between `%` signs. -/
  autoWildcard : Bool := false
  /-- Operands of filters are normalized like written values. -/
  normalizeFilters : Bool := false
  /-- The most records one statement writes. -/
  batchSize : Nat := 1000
  deriving DecidableEq, Repr

namespace Options

/-- The options with another batch size; zero is taken for one. -/
def withBatchSize (o : Options) (size : Nat) : Options :=
  { o with batchSize := max size 1 }

/-- The word of a boolean. -/
def flagWord (b : Bool) : String := if b then "true" else "false"

/-- A description of the options for diagnostics. -/
def describe (o : Options) : String :=
  let schema := match o.schema with
    | some s => "Some(" ++ Text.quoted s ++ ")"
    | none => "None"
  "CompilerOptions \x7b schema: " ++ schema ++
    ", auto_wildcard: " ++ flagWord o.autoWildcard ++
    ", normalize_filter_values: " ++ flagWord o.normalizeFilters ++
    ", batch_size: " ++ Text.ofNat o.batchSize ++ " \x7d"

end Options

/-- What turns requests into statements of one dialect. -/
structure Compiler where
  dialect : Dialect
  casts : CastRegistry
  normalizer : Normalizer := {}
  options : Options := {}

namespace Compiler

/-- The compiler of a dialect, with the casts that the dialect needs. -/
def ofDialect (d : Dialect) (options : Options := {}) : Compiler where
  dialect := d
  casts := if d.typeCasts then .postgres else .empty
  options := options

/-- The quoted table that a text names. -/
def table (c : Compiler) (name : String) : Except Error Fragment := do
  (← TableName.resolve name c.options.schema).fragment

/-- The choices for compiling filters. -/
def predicateOptions (c : Compiler) : PredicateOptions where
  autoWildcard := c.options.autoWildcard
  normalizer := if c.options.normalizeFilters then some c.normalizer else none

/-- The clause of a filter, empty when there is none. -/
def whereClause (c : Compiler) (f : Filter) (softDelete : Option String) :
    Except Error Fragment := do
  return (← f.whereFragment softDelete c.predicateOptions).getD []

/-- How many records of so many columns one statement writes: as many as the batch size and the
bound on parameters allow, and at least one. -/
def chunkSize (c : Compiler) (columns : Nat) : Nat :=
  max (min c.options.batchSize (c.dialect.maxParameters / max columns 1)) 1

/-- A statement takes at least one record, whatever the options are. -/
theorem chunkSize_pos (c : Compiler) (columns : Nat) : 0 < c.chunkSize columns :=
  Nat.le_max_right _ _

/-- The clauses that are not empty, with a space between two neighbours. -/
def clauses (parts : List Fragment) : Fragment :=
  Fragment.joined " " (parts.filter (!·.isEmpty))

end Compiler

/-- A page of a listing; pages are counted from zero. -/
structure Page where
  page : Nat := 0
  limit : Nat := 30
  deriving DecidableEq, Repr

namespace Page

/-- The rows before the page, at most the greatest number of 64 bits. -/
def offset (p : Page) : Nat := min (p.page * p.limit) maxWord

/-- A count as a bound value, at most the largest integer. -/
def bound (n : Nat) : SqlValue := .int (min n SqlValue.maxInt)

/-- The clause of a page. -/
def fragment (p : Page) : Fragment :=
  [.text "LIMIT ", .hole (bound p.limit) none, .text " OFFSET ", .hole (bound p.offset) none]

end Page
end Querysmith
