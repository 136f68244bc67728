/-
# Targets of database URLs

Where a URL leads: to a server, to a database in memory, or to a file.  Whatever is wrong with a
URL is found before anything is opened.
-/

import Querysmith.Url

namespace Querysmith

/-- Where a URL leads. -/
inductive Target where
  | server
  /-- A database that ends with the run. -/
  | memory
  | file (path : String)
  deriving DecidableEq, Repr

namespace Target

/-- A fault of the settings inside a URL. -/
def settingFault (cause : String) : Error :=
  let message := "error with configuration: " ++ cause
  .engine message [message, cause]

/-- The port in the authority of a URL: what stands behind the last colon of the host. -/
def portOf (authority : List Char) : List Char :=
  let host := (authority.reverse.takeWhile (· ≠ '@')).reverse
  match (host.reverse.takeWhile (· ≠ ']')).reverse.dropWhile (· ≠ ':') with
  | ':' :: port => port
  | _ => []

/-- A port is a number of 16 bits, or left out. -/
def isPort (port : List Char) : Bool :=
  port.all Char.isDigit && decide (Text.readDecimal port < 65536)

/-- The target of the URL of a server. -/
def ofServerUrl (url : String) : Except Error Target :=
  let rest := ((Text.splitOnce url "://").map (·.2)).getD ""
  let authority := rest.toList.takeWhile fun c => c ≠ '/' && c ≠ '?' && c ≠ '#'
  if isPort (portOf authority) then .ok server
  else .error (settingFault "invalid port number")

/-- The list without leading copies of another one. -/
def withoutLeading (start : List Char) : Nat → List Char → List Char
  | 0, cs => cs
  | fuel + 1, cs =>
    if start.isPrefixOf cs && !start.isEmpty then
      withoutLeading start fuel (cs.drop start.length)
    else cs

/-- The values that a setting of a file URL takes; any where there is no list. -/
def settingValues : List (String × Option (List String)) := [
  ("mode", some ["ro", "rw", "rwc", "memory"]),
  ("cache", some ["private", "shared"]),
  ("immutable", some ["true", "1", "false", "0"]),
  ("vfs", none)]

/-- Fails on a setting that there is not, or on a value that it does not take. -/
def checkSetting (key value : String) : Except Error Unit :=
  match settingValues.lookup key with
  | none =>
    .error (settingFault
      ("unknown query parameter `" ++ key ++ "` while parsing connection URL"))
  | some none => .ok ()
  | some (some values) =>
    if values.contains value then .ok ()
    else .error (settingFault ("unknown value " ++ Text.quoted value ++ " for `" ++ key ++ "`"))

/-- The settings behind the question mark of a URL. -/
def settingsOf (query : List Char) : List (String × String) :=
  ((Text.splitOn '&' query).filter (!·.isEmpty)).map fun piece =>
    match Text.splitFirst ['='] piece with
    | some (key, value) => (String.ofList key, String.ofList value)
    | none => (String.ofList piece, "")

/-- The target of the URL of a file. -/
def ofFileUrl (url : String) : Except Error Target := do
  let cs := url.toList
  let cs := withoutLeading "sqlite:".toList cs.length cs
  let cs := withoutLeading "//".toList cs.length cs
  let path := cs.takeWhile (· ≠ '?')
  let settings := settingsOf ((cs.dropWhile (· ≠ '?')).drop 1)
  settings.forM fun (key, value) => checkSetting key value
  if path.isEmpty ∨ path = ":memory:".toList ∨ settings.contains ("mode", "memory") then
    return memory
  else return file (String.ofList path)

/-- The target of a URL. -/
def ofUrl (url : String) : Except Error Target := do
  if (← Url.dialect url) = .sqlite then ofFileUrl url else ofServerUrl url

end Target
end Querysmith
