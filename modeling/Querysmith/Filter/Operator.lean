/-
# Comparison operators

The ten operators of a condition, their SQL texts, and which of them take a list or a pattern.
-/

import Querysmith.Text

namespace Querysmith

/-- A comparison operator. -/
inductive Operator where
  | equal
  | notEqual
  | less
  | greater
  | lessOrEqual
  | greaterOrEqual
  | like
  | notLike
  | isIn
  | notIn
  deriving DecidableEq, Repr, Inhabited

namespace Operator

/-- The SQL text of an operator. -/
def sql : Operator → String
  | equal => "="
  | notEqual => "!="
  | less => "<"
  | greater => ">"
  | lessOrEqual => "<="
  | greaterOrEqual => ">="
  | like => "like"
  | notLike => "not like"
  | isIn => "in"
  | notIn => "not in"

/-- All operators. -/
def all : List Operator :=
  [equal, notEqual, less, greater, lessOrEqual, greaterOrEqual, like, notLike, isIn, notIn]

/-- The operator takes a list of values. -/
def takesList : Operator → Bool
  | isIn | notIn => true
  | _ => false

/-- The operator takes a text pattern. -/
def isPattern : Operator → Bool
  | like | notLike => true
  | _ => false

/-- How an operator text is compared: without blanks at its ends and in lower case. -/
def folded (s : String) : String :=
  Text.lowerAscii (Text.trim s)

/-- The operator that a text names. -/
def ofText? (s : String) : Option Operator :=
  all.find? fun op => op.sql == folded s

end Operator
end Querysmith
