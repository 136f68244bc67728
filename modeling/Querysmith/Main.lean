/-
# The program

Reads the arguments, the variables and the files that a run may look at, and prints how it ends.  A
database lives as long as the run.
-/

import Querysmith.CommandLine.Workspace

namespace Querysmith
namespace CommandLine

/-- The variables that a run looks at. -/
def variableNames : List String := [
  "DATABASE_URL", "SQLSIEVE_SCHEMA", "SQLSIEVE_AUTO_WILDCARD", "SQLSIEVE_NORMALIZE_FILTERS",
  "SQLSIEVE_BATCH_SIZE", "SQLSIEVE_SEQUENTIAL_CHUNKS", "SQLSIEVE_PARSE_JSON_TEXT",
  "SQLSIEVE_MAX_CONNECTIONS"]

/-- The variables that are set. -/
def readVariables : IO (List (String × String)) :=
  variableNames.filterMapM fun name => do
    return (← IO.getEnv name).map fun value => (name, value)

/-- The paths that arguments may name: what stands behind the first `@` of each. -/
def pathsIn (args : List String) : List String :=
  args.filterMap fun a => (Text.splitOnce a "@").map (·.2)

/-- The files of these paths that can be read. -/
def readFiles (paths : List String) : IO (List (String × String)) :=
  paths.filterMapM fun (path : String) => do
    match ← (IO.FS.readFile path).toBaseIO with
    | .ok text => return some (path, text)
    | .error _ => return none

/-- Whether a path is that of a directory, which is there and yet cannot be read as a file. -/
def isDirectory (path : String) : IO Bool := do
  match ← (IO.FS.readFile path).toBaseIO with
  | .error (.inappropriateType ..) => return true
  | _ => return false

end CommandLine
end Querysmith

open Querysmith CommandLine in
/-- Runs the program and tells its exit code. -/
def main (args : List String) : IO UInt32 := do
  let values ← readVariables
  let environment := fun name => values.lookup name
  let files ← readFiles (pathsIn args)
  let databasePath := (databasePath? args environment).toList
  let directories ←
    (databasePath ++ databasePath.filterMap directoryOf?).filterM isDirectory
  let workspace : Workspace := {
    environment
    files := fun path => files.lookup path
    hasDirectory := directories.contains }
  let ending := (execute args workspace).1
  match ending with
  | .printed text => IO.print text
  | .usage => IO.eprintln (programLevel.usageLine ++ "\n\nFor more information, try '--help'.")
  | .failed failure => IO.eprintln ("Error: " ++ failure.report)
  return UInt32.ofNat ending.code
