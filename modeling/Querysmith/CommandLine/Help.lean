/-
# Help

The description of a level: what it does, how it is called, its commands, its operand and its
switches, each list in columns of the width of its widest entry.
-/

import Querysmith.CommandLine.Request

namespace Querysmith
namespace CommandLine

/-- A text filled up with blanks to a width. -/
def padded (width : Nat) (s : String) : String :=
  s ++ String.ofList (List.replicate (width - s.length) ' ')

/-- Rows of two columns, two blanks in front of each column. -/
def columns (entries : List (String × String)) : String :=
  let width := (entries.map (·.1.length)).foldl max 0
  Text.joinWith "\n" (entries.map fun (entry, about) => "  " ++ padded width entry ++ "  " ++ about)

/-- The name of a value: in capitals, with underscores. -/
def valueName (name : String) : String :=
  "<" ++ String.ofList (name.toList.map fun c => if c = '-' then '_' else c.toUpper) ++ ">"

namespace Switch

/-- The long form of a switch with its value. -/
def longForm (s : Switch) : String :=
  "--" ++ s.long ++ if s.arity = .flag then "" else " " ++ valueName s.long

/-- Both forms of a switch; the short one may be missing. -/
def forms (s : Switch) : String :=
  (match s.short with
    | some c => String.ofList ['-', c, ',', ' ']
    | none => "    ") ++ s.longForm

/-- What a switch is, where else its value comes from, and what it is otherwise. -/
def description (environment : String → Option String) (s : Switch) : String :=
  let fromVariable := match s.substitute with
    | some name => " [env: " ++ name ++ "=" ++ (environment name).getD "" ++ "]"
    | none => ""
  let otherwise := match s.standard with
    | some value => " [default: " ++ value ++ "]"
    | none => ""
  s.about ++ fromVariable ++ otherwise

end Switch

namespace Level

/-- How a level is called: what has to be given is named. -/
def usageLine (l : Level) : String :=
  let required := (l.switches.filter (·.required)).map Switch.longForm
  let operand := l.operand.toList.map fun (name, _) => valueName name
  let command := if l.commands.isEmpty then [] else ["<COMMAND>"]
  "Usage: " ++ Text.joinWith " " (l.path ++ ["[OPTIONS]"] ++ required ++ operand ++ command)

/-- The description of a level. -/
def helpText (environment : String → Option String) (l : Level) : String :=
  let commands := if l.commands.isEmpty then [] else ["Commands:\n" ++ columns l.commands]
  let operand := l.operand.toList.map fun (name, about) =>
    "Arguments:\n" ++ columns [(valueName name, about)]
  let switches := l.switches.map fun s => (s.forms, s.description environment)
  let version := if l.versioned then [("-V, --version", "Print version")] else []
  let switches := columns (switches ++ ("-h, --help", "Print help") :: version)
  Text.joinWith "\n\n" ([l.about, l.usageLine] ++ commands ++ operand ++ ["Options:\n" ++ switches])
    ++ "\n"

end Level
end CommandLine
end Querysmith
