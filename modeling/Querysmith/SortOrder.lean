/-
# Sort orders

Keys in order of precedence.  A token names a column, with a minus sign in front for descending
order.
-/

import Querysmith.Identifier

namespace Querysmith

/-- A direction of sorting. -/
inductive Direction where
  | ascending
  | descending
  deriving DecidableEq, Repr

/-- The SQL word of a direction. -/
def Direction.sql : Direction → String
  | ascending => "ASC"
  | descending => "DESC"

/-- A column to sort by. -/
structure SortKey where
  column : String
  direction : Direction
  deriving DecidableEq, Repr

/-- The key of a token. -/
def SortKey.ofToken (token : String) : SortKey :=
  match token.toList with
  | '-' :: column => ⟨String.ofList column, .descending⟩
  | _ => ⟨token, .ascending⟩

/-- The key as a fragment. -/
def SortKey.fragment (key : SortKey) : Except Error Fragment := do
  return (← Identifier.fragment key.column) ++ [.text (" " ++ key.direction.sql)]

/-- Sort keys; earlier ones take precedence. -/
structure SortOrder where
  keys : List SortKey
  deriving DecidableEq, Repr

namespace SortOrder

/-- No order. -/
def unordered : SortOrder := ⟨[]⟩

/-- The order of a list of tokens. -/
def ofTokens (tokens : List String) : SortOrder := ⟨tokens.map SortKey.ofToken⟩

/-- The order with a further key. -/
def add (order : SortOrder) (key : SortKey) : SortOrder := ⟨order.keys ++ [key]⟩

/-- The token of a JSON value. -/
def readToken : Json → Except Error SortKey
  | .str token => .ok (.ofToken token)
  | v => .error (.invalidFilter (.sortTokenNotText v))

/-- Reads an array of tokens; null is no order. -/
def ofJson : Json → Except Error SortOrder
  | .null => .ok unordered
  | .arr tokens => do return ⟨← tokens.mapM readToken⟩
  | v => .error (.invalidFilter (.sortNotArray v))

/-- The clause of an order; no keys, no clause. -/
def fragment (order : SortOrder) : Except Error Fragment := do
  if order.keys.isEmpty then return []
  return .text "ORDER BY " :: Fragment.joined ", " (← order.keys.mapM SortKey.fragment)

end SortOrder
end Querysmith
