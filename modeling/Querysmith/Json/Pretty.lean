/-
# Indented JSON

The text of a value over several lines: one item or field a line, two more spaces for each level,
and an empty array or object closed at once.
-/

import Querysmith.Json

namespace Querysmith
namespace Json

/-- A line end and the blanks of a level. -/
def newLine (level : Nat) : String :=
  String.ofList ('\n' :: List.replicate (2 * level) ' ')

mutual

/-- Appends the indented text of a value that stands on a level. -/
def writePretty (level : Nat) (acc : String) : Json → String
  | arr (v :: vs) =>
    writePrettyItems (level + 1) (writePretty (level + 1) (acc ++ "[" ++ newLine (level + 1)) v) vs
      ++ newLine level ++ "]"
  | obj ((k, v) :: rest) =>
    writePrettyFields (level + 1)
        (writePretty (level + 1) (acc ++ "\x7b" ++ newLine (level + 1) ++ stringText k ++ ": ") v)
        rest
      ++ newLine level ++ "\x7d"
  | null => acc ++ "null"
  | bool b => write acc (bool b)
  | int i => write acc (int i)
  | float x => write acc (float x)
  | str s => write acc (str s)
  | arr [] => acc ++ "[]"
  | obj [] => acc ++ "\x7b\x7d"

/-- Appends the items of an array after the first. -/
def writePrettyItems (level : Nat) (acc : String) : List Json → String
  | [] => acc
  | v :: vs => writePrettyItems level (writePretty level (acc ++ "," ++ newLine level) v) vs

/-- Appends the fields of an object after the first. -/
def writePrettyFields (level : Nat) (acc : String) : List (String × Json) → String
  | [] => acc
  | (k, v) :: rest =>
    writePrettyFields level
      (writePretty level (acc ++ "," ++ newLine level ++ stringText k ++ ": ") v) rest

end

/-- The indented text of a value. -/
def prettyText (v : Json) : String :=
  v.writePretty 0 ""

end Json
end Querysmith
