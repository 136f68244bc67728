/-
# Workspaces

What a run of the program works on: variables of the environment, files, directories and databases
by their paths.  A run ends with a text, with a refusal of its arguments or with a failure, and only
databases differ behind it.  A database that is not there is created empty, if its directory is
there.
-/

import Querysmith.CommandLine.Help
import Querysmith.CommandLine.Target
import Querysmith.Json.Pretty
import Querysmith.Store.Database

namespace Querysmith
namespace CommandLine

/-- What a run works on. -/
structure Workspace where
  environment : String → Option String
  files : Files
  hasDirectory : String → Bool
  databases : List (String × Store.Database) := []

/-- How a run ends. -/
inductive Ending where
  /-- With a text. -/
  | printed (text : String)
  /-- With wrong arguments. -/
  | usage
  | failed (failure : Failure)

namespace Ending

/-- The exit code of the program. -/
def code : Ending → Nat
  | printed _ => 0
  | failed _ => 1
  | usage => 2

end Ending

/-- The path without leading `./`. -/
def plainPath (path : String) : String :=
  match path.toList with
  | '.' :: '/' :: rest => String.ofList (Target.withoutLeading ['.', '/'] rest.length rest)
  | _ => path

/-- The directory of a path, when it names one. -/
def directoryOf? (path : String) : Option String :=
  match path.toList.reverse.dropWhile (· ≠ '/') with
  | [] => none
  | ['/'] => some "/"
  | _ :: directory => some (String.ofList directory.reverse)

namespace Workspace

/-- The database of a path; a new one where there is none. -/
def openDatabase (w : Workspace) (path : String) : Except Store.Fault Store.Database :=
  let path := plainPath path
  if w.hasDirectory path then .error .cannotOpen
  else match w.databases.lookup path with
    | some db => .ok db
    | none => if (directoryOf? path).all w.hasDirectory then .ok {} else .error .cannotOpen

/-- The workspace with a database in the place of a path. -/
def setDatabase (w : Workspace) (path : String) (db : Store.Database) : Workspace :=
  let path := plainPath path
  let others := w.databases.filter (·.1 ≠ path)
  { w with databases := others ++ [(path, db)] }

end Workspace

namespace Request

/-- The configuration: the variables, and the arguments where they say otherwise. -/
def config (r : Request) (environment : String → Option String) : Except Error Config := do
  let config ← Config.read environment
  return { config with
    options := { config.options with
      schema := r.settings.schema <|> environment "SQLSIEVE_SCHEMA"
      autoWildcard := config.options.autoWildcard || r.settings.autoWildcard
      normalizeFilters := config.options.normalizeFilters || r.settings.normalizeFilters }
    sequentialChunks := config.sequentialChunks || r.settings.sequential }

/-- The URL of the database. -/
def database (r : Request) (environment : String → Option String) : String :=
  (r.settings.database <|> environment "DATABASE_URL").getD standardDatabase

end Request

/-- How a run on a database ends, and the database behind it. -/
def runOn (config : Config) (files : Files) (operation : Operation) (db : Store.Database) :
    Ending × Store.Database :=
  let engine := Engine.ofDialect Store.Database.backend .sqlite config
  match operation.run engine files |>.run { database := db } with
  | (.ok v, session) => (.printed (v.prettyText ++ "\n"), session.database)
  | (.error failure, session) => (.failed failure, session.database)

/-- Runs an operation on the database that a URL leads to. -/
def runAt (w : Workspace) (url : String) (config : Config) (operation : Operation) :
    Ending × Workspace :=
  match Target.ofUrl url with
  | .error e => (.failed (.error e), w)
  | .ok .server => (.failed .unreachable, w)
  | .ok .memory => ((runOn config w.files operation {}).1, w)
  | .ok (.file path) =>
    match w.openDatabase path with
    | .error fault => (.failed (.error fault.toError), w)
    | .ok db =>
      let (ending, db) := runOn config w.files operation db
      (ending, w.setDatabase path db)

/-- Shows the statements of an operation. -/
def showStatements (files : Files) (dialect : Dialect) (config : Config) (operation : Operation) :
    Ending :=
  match operation.compile (.ofDialect dialect config.options) files with
  | .ok statements => .printed (String.join (statements.map Operation.listing))
  | .error failure => .failed failure

/-- The path of the database file that arguments lead to, when they lead to one. -/
def databasePath? (args : List String) (environment : String → Option String) : Option String := do
  let request ← (Request.read args).toOption
  match ← (Target.ofUrl (request.database environment)).toOption with
  | .file path => some (plainPath path)
  | _ => none

/-- A run of the program. -/
def execute (args : List String) (w : Workspace) : Ending × Workspace :=
  match Request.read args with
  | .error .usage => (.usage, w)
  | .error (.help level) => (.printed (level.helpText w.environment), w)
  | .error .version => (.printed (program ++ " " ++ version ++ "\n"), w)
  | .ok request =>
    match request.config w.environment, request.task with
    | .error e, _ => (.failed (.error e), w)
    | .ok config, .compile dialect operation =>
      (showStatements w.files dialect config operation, w)
    | .ok config, .run operation => runAt w (request.database w.environment) config operation

end CommandLine
end Querysmith
