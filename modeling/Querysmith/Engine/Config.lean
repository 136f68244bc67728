/-
# Configuration

The configuration of an engine and how it is read from named settings.  A blank setting counts as
absent, and the first setting that cannot be read is the error.
-/

import Querysmith.Compiler

namespace Querysmith

/-- The configuration of an engine. -/
structure Config where
  options : Options := {}
  /-- The chunks of a write run one after another. -/
  sequentialChunks : Bool := false
  /-- Texts in result rows that hold a JSON document become that document. -/
  parseJsonText : Bool := true
  maxConnections : Nat := 10
  deriving DecidableEq, Repr

namespace Config

/-- The greatest natural number of 32 bits, `2^32 - 1`. -/
def maxHalfWord : Nat := 4294967295

/-- The named settings. -/
abbrev Settings := String → Option String

/-- A setting, unless it is absent or blank. -/
def present (settings : Settings) (key : String) : Option String :=
  (settings key).filter fun raw => Text.trim raw ≠ ""

/-- The boolean that a text names. -/
def flagOfText? (text : String) : Option Bool :=
  let word := Text.lowerAscii (Text.trim text)
  if ["1", "true", "yes", "on"].contains word then some true
  else if ["0", "false", "no", "off"].contains word then some false
  else none

/-- A boolean setting. -/
def flag (settings : Settings) (key : String) : Except Error (Option Bool) :=
  match present settings key with
  | none => .ok none
  | some raw =>
    match flagOfText? raw with
    | some b => .ok (some b)
    | none => .error (.config (.notBoolean key raw))

/-- Reads digits from the left.  What ends the reading is the first character that is no digit or
the first digit that takes the number above `bound`. -/
def readDigits (bound acc : Nat) : List Char → Except NumberFault Nat
  | [] => .ok acc
  | c :: cs =>
    if c.isDigit then
      let next := 10 * acc + Text.digitValue c
      if bound < next then .error .tooLarge else readDigits bound next cs
    else .error .badDigit

/-- Reads a natural number of at most `bound`, perhaps with a plus sign in front. -/
def readNatural (bound : Nat) (text : String) : Except NumberFault Nat :=
  let digits := match text.toList with
    | '+' :: cs => cs
    | cs => cs
  if digits.isEmpty then .error .badDigit else readDigits bound 0 digits

/-- A numeric setting. -/
def natural (bound : Nat) (settings : Settings) (key : String) : Except Error (Option Nat) :=
  match present settings key with
  | none => .ok none
  | some raw =>
    match readNatural bound (Text.trim raw) with
    | .ok n => .ok (some n)
    | .error fault => .error (.config (.notNumber key raw fault))

/-- The configuration of the settings. -/
def read (settings : Settings) : Except Error Config := do
  let schema := (present settings "SQLSIEVE_SCHEMA").map Text.trim
  let autoWildcard ← flag settings "SQLSIEVE_AUTO_WILDCARD"
  let normalizeFilters ← flag settings "SQLSIEVE_NORMALIZE_FILTERS"
  let batchSize ← natural maxWord settings "SQLSIEVE_BATCH_SIZE"
  let sequential ← flag settings "SQLSIEVE_SEQUENTIAL_CHUNKS"
  let parseJsonText ← flag settings "SQLSIEVE_PARSE_JSON_TEXT"
  let maxConnections ← natural maxHalfWord settings "SQLSIEVE_MAX_CONNECTIONS"
  let standard : Config := {}
  return {
    options := {
      schema := schema
      autoWildcard := autoWildcard.getD standard.options.autoWildcard
      normalizeFilters := normalizeFilters.getD standard.options.normalizeFilters
      batchSize := (batchSize.map (max · 1)).getD standard.options.batchSize }
    sequentialChunks := sequential.getD standard.sequentialChunks
    parseJsonText := parseJsonText.getD standard.parseJsonText
    maxConnections := (maxConnections.map (max · 1)).getD standard.maxConnections }

end Config
end Querysmith
