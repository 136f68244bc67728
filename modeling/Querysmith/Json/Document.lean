/-
# JSON documents in texts

A text is taken for a JSON document when, without the blanks around it, it is bracketed like an
array or an object and reads as JSON.
-/

import Querysmith.Json.Reader

namespace Querysmith
namespace Json

/-- The list begins with `opening` and ends with `closing`. -/
def isBracketed (opening closing : Char) (cs : List Char) : Bool :=
  cs.head? == some opening && cs.getLast? == some closing

/-- The text looks like a JSON array or object. -/
def isDocumentText (s : String) : Bool :=
  let cs := Text.trimChars s.toList
  (isBracketed '\x7b' '\x7d' cs || isBracketed '[' ']' cs) && (parse? (String.ofList cs)).isSome

/-- The value is an array, an object, or a text that looks like one. -/
def isDocument : Json → Bool
  | arr _ | obj _ => true
  | str s => isDocumentText s
  | _ => false

end Json
end Querysmith
