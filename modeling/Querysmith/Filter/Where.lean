/-
# The WHERE clause

A filter becomes `WHERE ((a AND b) OR (c))`, one pair of parentheses a group.  With a soft-delete
column every group also demands that the column is zero, and a filter that matches every row becomes
that one demand.
-/

import Querysmith.Filter
import Querysmith.Identifier
import Querysmith.Normalizer

namespace Querysmith

/-- The choices in compiling conditions. -/
structure PredicateOptions where
  /-- Patterns are put between `%` signs. -/
  autoWildcard : Bool := false
  /-- Operands are normalized like written values. -/
  normalizer : Option Normalizer := none

namespace PredicateOptions

/-- The value that is bound for an operand of a column. -/
def bind (o : PredicateOptions) (column : String) (v : Json) : SqlValue :=
  match o.normalizer with
  | some n => .ofJson (n.normalize column v)
  | none => .ofJson v

/-- The pattern that is bound for an operand of `like` and `not like`. -/
def pattern (o : PredicateOptions) (v : Json) : SqlValue :=
  let text := match v with
    | .str s => s
    | v => v.text
  .text (if o.autoWildcard then "%" ++ text ++ "%" else text)

end PredicateOptions

/-- A condition as a fragment.  The column is checked also where an empty list leaves it out:
nothing is a member of the empty list. -/
def Condition.fragment (o : PredicateOptions) (c : Condition) : Except Error Fragment := do
  let column ← Identifier.fragment c.column
  match c.operand with
  | .list [] => return [.text (if c.operator = .isIn then "1 = 0" else "1 = 1")]
  | .list members =>
    return column ++ .text (" " ++ c.operator.sql ++ " (") ::
      Fragment.joined ", " (members.map fun v => [.hole (o.bind c.column v) none]) ++ [.text ")"]
  | .scalar v =>
    let bound := if c.operator.isPattern then o.pattern v else o.bind c.column v
    return column ++ [.text (" " ++ c.operator.sql ++ " "), .hole bound none]

namespace Filter

/-- A group as a fragment. -/
def groupFragment (o : PredicateOptions) (group : List Condition) : Except Error Fragment := do
  return Fragment.joined " AND " (← group.mapM (Condition.fragment o))

/-- The whole clause of a list of groups. -/
def groupsFragment (o : PredicateOptions) (groups : List (List Condition)) :
    Except Error Fragment := do
  let branches ← groups.mapM (groupFragment o)
  return .text "WHERE ((" :: Fragment.joined ") OR (" branches ++ [.text "))"]

/-- The condition that a row is not flagged as deleted. -/
def guard (softDelete : Option String) : List Condition :=
  softDelete.toList.map fun column => .equal column (.int 0)

/-- The groups of a filter with the guard behind each of them. -/
def guardedGroups (f : Filter) (softDelete : Option String) : List (List Condition) :=
  if f.matchesAll then softDelete.toList.map fun column => guard (some column)
  else f.groups.map (· ++ guard softDelete)

/-- The clause of a filter, or none when every row matches and no guard is asked for. -/
def whereFragment (f : Filter) (softDelete : Option String) (o : PredicateOptions) :
    Except Error (Option Fragment) :=
  match f.guardedGroups softDelete with
  | [] => .ok none
  | groups => (groupsFragment o groups).map some

end Filter
end Querysmith
