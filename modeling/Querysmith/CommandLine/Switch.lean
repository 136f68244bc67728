/-
# Switches

How arguments are read on one level of a command line.  A level has switches, perhaps an operand,
and perhaps commands; a command ends its level, and what follows belongs to the level of that
command.

A switch is written `--long value`, `--long=value`, `-s value`, `-svalue` or `-s=value`.  Flags take
no value and may be joined behind one hyphen.  An argument that looks like a switch is no value,
unless the switch takes any.  Behind `--` everything is an operand.
-/

import Querysmith.Text

namespace Querysmith
namespace CommandLine

/-- What a switch takes. -/
inductive Arity where
  /-- No value, once. -/
  | flag
  /-- One value, once. -/
  | single
  /-- One value, as often as wanted; the value may look like a switch. -/
  | repeated
  deriving DecidableEq, Repr

/-- A switch. -/
structure Switch where
  long : String
  short : Option Char := none
  arity : Arity := .single
  required : Bool := false
  /-- The values that are taken. -/
  accepts : String → Bool := fun _ => true
  about : String
  /-- The variable of the environment that stands in for the switch. -/
  substitute : Option String := none
  standard : Option String := none

/-- A level of a command line. -/
structure Level where
  /-- The program and the commands that lead to the level. -/
  path : List String
  about : String
  switches : List Switch
  /-- The one operand and what it is. -/
  operand : Option (String × String) := none
  /-- The commands, each with what it does. -/
  commands : List (String × String) := []
  /-- The level tells the version of the program. -/
  versioned : Bool := false

/-- Why reading ends early. -/
inductive Stop where
  /-- The arguments are wrong. -/
  | usage
  /-- The description of a level is asked for. -/
  | help (level : Level)
  /-- The version is asked for. -/
  | version

/-- What was found on a level. -/
structure Found where
  /-- Values under the long names of their switches, in order; flags have an empty one. -/
  switches : List (String × String) := []
  operands : List String := []
  deriving DecidableEq, Repr

namespace Found

/-- The value of a switch. -/
def value? (f : Found) (long : String) : Option String :=
  f.switches.lookup long

/-- The switch was given. -/
def has (f : Found) (long : String) : Bool :=
  (f.value? long).isSome

/-- All values of a switch. -/
def values (f : Found) (long : String) : List String :=
  (f.switches.filter (·.1 == long)).map (·.2)

/-- Takes the value of a switch. -/
def take (f : Found) (s : Switch) (value : String) : Except Stop Found :=
  if (s.arity ≠ .repeated ∧ f.has s.long) ∨ !s.accepts value then .error .usage
  else .ok { f with switches := f.switches ++ [(s.long, value)] }

/-- Takes an operand. -/
def takeOperand (l : Level) (f : Found) (value : String) : Except Stop Found :=
  if l.operand.isSome ∧ f.operands.isEmpty then .ok { f with operands := [value] }
  else .error .usage

end Found

namespace Level

/-- What an unknown switch asks for: help, the version, or nothing that there is. -/
def stop (l : Level) (help version : Bool) : Stop :=
  if help then .help l else if version ∧ l.versioned then .version else .usage

/-- Takes the characters behind one hyphen: flags, and perhaps a switch with a value, which is the
rest or, when nothing is left, the next argument. -/
def short (l : Level) (f : Found) : List Char → Except Stop (Found × Option Switch)
  | [] => .ok (f, none)
  | c :: cs =>
    match l.switches.find? (·.short = some c) with
    | none => .error (l.stop (c = 'h') (c = 'V'))
    | some s =>
      if s.arity = .flag then do l.short (← f.take s "") cs
      else match cs with
        | [] => .ok (f, some s)
        | '=' :: value => return (← f.take s (String.ofList value), none)
        | value => return (← f.take s (String.ofList value), none)

/-- Takes the characters behind two hyphens. -/
def long (l : Level) (f : Found) (body : List Char) : Except Stop (Found × Option Switch) :=
  let (name, value) := match Text.splitFirst ['='] body with
    | some (name, value) => (String.ofList name, some (String.ofList value))
    | none => (String.ofList body, none)
  match l.switches.find? (·.long = name), value with
  | none, value =>
    .error (l.stop (name = "help" ∧ value.isNone) (name = "version" ∧ value.isNone))
  | some s, some value =>
    if s.arity = .flag then .error .usage else return (← f.take s value, none)
  | some s, none => if s.arity = .flag then return (← f.take s "", none) else .ok (f, some s)

/-- The argument looks like a switch. -/
def looksLikeSwitch (a : String) : Bool :=
  Text.startsWith a "-" && a != "-"

/-- Reads the arguments of a level up to a command; `waiting` is a switch whose value is next. -/
def scan (l : Level) (f : Found) (waiting : Option Switch) :
    List String → Except Stop (Found × Option (String × List String))
  | [] => if waiting.isSome then .error .usage else .ok (f, none)
  | a :: rest =>
    match waiting with
    | some s =>
      if s.arity = .repeated ∨ !looksLikeSwitch a then do l.scan (← f.take s a) none rest
      else .error .usage
    | none =>
      if l.commands.any (·.1 == a) then .ok (f, some (a, rest))
      else match a.toList with
        | ['-', '-'] => do return (← rest.foldlM (Found.takeOperand l) f, none)
        | '-' :: '-' :: body => do
          let (f, waiting) ← l.long f body
          l.scan f waiting rest
        | '-' :: c :: cs => do
          let (f, waiting) ← l.short f (c :: cs)
          l.scan f waiting rest
        | _ => do l.scan (← f.takeOperand l a) none rest

/-- Everything that has to be given was given. -/
def isComplete (l : Level) (f : Found) : Bool :=
  (l.switches.all fun s => !s.required || f.has s.long) &&
    (l.operand.isNone || !f.operands.isEmpty)

end Level
end CommandLine
end Querysmith
