/-
# Database URLs

A URL is only shown with its password hidden.
-/

import Querysmith.Dialect
import Querysmith.Error

namespace Querysmith
namespace Url

/-- The URL with `***` in the place of the password.  The credentials end at the first `@`, and the
user name at the first `:` before it. -/
def redact (url : String) : String :=
  match Text.splitOnce url "://" with
  | none => url
  | some (scheme, rest) =>
    match Text.splitOnce rest "@" with
    | none => url
    | some (credentials, host) =>
      let user := String.ofList (credentials.toList.takeWhile (· != ':'))
      scheme ++ "://" ++ user ++ ":***@" ++ host

/-- The dialect of the database that a URL names. -/
def dialect (url : String) : Except Error Dialect :=
  match Dialect.ofUrl? url with
  | some d => .ok d
  | none => .error (.config (.unsupportedUrl (redact url)))

/-- The line that is logged before a connection is opened. -/
def connectingLine (d : Dialect) (url : String) : String :=
  "INFO connecting dialect=" ++ d.name ++ " url=" ++ redact url

/-- What is said about a URL before anything is opened: the line in the log, or the refusal. -/
def announcement (url : String) : Except Error String := do
  let d ← dialect url
  return connectingLine d url

end Url
end Querysmith
