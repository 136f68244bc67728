/-
# Quoted texts

How a name or a text of a caller is shown inside a message: between double quotes, with the
characters escaped that would hide where it ends or what it holds.

| character | written |
| --- | --- |
| `"` `\` | with a backslash in front |
| line feed, carriage return, tab, NUL | `\n` `\r` `\t` `\0` |
| any other that is not printable | `\u{…}`, hexadecimal, no padding |
| the rest | as itself |
-/

import Querysmith.Text
import Querysmith.Text.Printable

namespace Querysmith
namespace Text

/-- One character of a quoted text. -/
def escape (c : Char) : List Char :=
  if c = '"' ∨ c = '\\' then ['\\', c]
  else if c = '\n' then ['\\', 'n']
  else if c = '\r' then ['\\', 'r']
  else if c = '\t' then ['\\', 't']
  else if c.toNat = 0 then ['\\', '0']
  else if isPrintable c then [c]
  else ['\\', 'u', '\x7b'] ++ hexadecimal c.toNat ++ ['\x7d']

/-- The text between double quotes, escaped. -/
def quoted (s : String) : String :=
  String.ofList ('"' :: s.toList.flatMap escape ++ ['"'])

/-- A list of quoted texts between brackets. -/
def quotedList (names : List String) : String :=
  "[" ++ joinWith ", " (names.map quoted) ++ "]"

end Text
end Querysmith
