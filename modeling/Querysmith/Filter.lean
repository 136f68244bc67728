/-
# Filters

A filter is an OR of AND-groups of comparisons; no groups at all means that every row matches.  Its
wire form is an array of groups, each an array of conditions `[column, operator, operand]`.  An
empty group is true of every row, so a filter with one collapses to the filter without groups.
-/

import Querysmith.Error

namespace Querysmith

/-- The right-hand side of a condition. -/
inductive Operand where
  /-- One value to compare with. -/
  | scalar (v : Json)
  /-- The members for `in` and `not in`. -/
  | list (members : List Json)
  deriving Repr, Inhabited

/-- A comparison of a column with an operand. -/
structure Condition where
  column : String
  operator : Operator
  operand : Operand
  deriving Repr, Inhabited

namespace Condition

/-- A condition whose operand has the shape that its operator takes: an array for `in` and
`not in`, anything but an array or object for the others. -/
def make (column : String) (op : Operator) (v : Json) : Except Error Condition :=
  if op.takesList then
    match v with
    | .arr members => .ok ⟨column, op, .list members⟩
    | other => .error (.invalidFilter (.listRequired op column other))
  else if v.isStructured then .error (.invalidFilter (.scalarRequired op column v))
  else .ok ⟨column, op, .scalar v⟩

/-- A condition on one value; an array or object is compared by its text. -/
def scalar (column : String) (op : Operator) (v : Json) : Condition :=
  ⟨column, op, .scalar (if v.isStructured then .str v.text else v)⟩

/-- `column = v` -/
def equal (column : String) (v : Json) : Condition := scalar column .equal v

/-- `column != v` -/
def notEqual (column : String) (v : Json) : Condition := scalar column .notEqual v

/-- `column < v` -/
def less (column : String) (v : Json) : Condition := scalar column .less v

/-- `column > v` -/
def greater (column : String) (v : Json) : Condition := scalar column .greater v

/-- `column like pattern` -/
def like (column pattern : String) : Condition := scalar column .like (.str pattern)

/-- `column in (members)` -/
def inList (column : String) (members : List Json) : Condition := ⟨column, .isIn, .list members⟩

/-- `column not in (members)` -/
def notInList (column : String) (members : List Json) : Condition :=
  ⟨column, .notIn, .list members⟩

/-- The operator of a wire text. -/
def readOperator (text : String) : Except Error Operator :=
  match Operator.ofText? text with
  | some op => .ok op
  | none => .error (.invalidFilter (.unknownOperator (Operator.folded text)))

/-- Reads the wire form `[column, operator, operand]`. -/
def ofJson : Json → Except Error Condition
  | .arr [column, op, operand] => do
    let column ← match column with
      | .str s => pure s
      | v => throw (.invalidIdentifier (.columnNotText v))
    let op ← match op with
      | .str s => readOperator s
      | v => throw (.invalidFilter (.operatorNotText v))
    make column op operand
  | .arr parts => .error (.invalidFilter (.conditionLength parts.length))
  | v => .error (.invalidFilter (.conditionNotArray v))

/-- The values that the condition is about. -/
def operands (c : Condition) : List Json :=
  match c.operand with
  | .scalar v => [v]
  | .list members => members

/-- How many values the condition binds. -/
def paramCount (c : Condition) : Nat := c.operands.length

end Condition

/-- An OR of AND-groups. -/
structure Filter where
  groups : List (List Condition)
  deriving Repr, Inhabited

namespace Filter

/-- The filter that every row matches. -/
def all : Filter := ⟨[]⟩

/-- The filter of AND-groups; an empty group makes every row match. -/
def ofGroups (groups : List (List Condition)) : Filter :=
  if groups.any List.isEmpty then all else ⟨groups⟩

/-- The filter of one AND-group. -/
def and (conditions : List Condition) : Filter := ofGroups [conditions]

/-- A further OR-branch.  When either side matches every row, so does the result. -/
def or (f : Filter) (group : List Condition) : Filter :=
  if f.groups.isEmpty || group.isEmpty then all else ⟨f.groups ++ [group]⟩

/-- The filter matches every row. -/
def matchesAll (f : Filter) : Bool := f.groups.isEmpty

/-- How many values the filter binds. -/
def paramCount (f : Filter) : Nat :=
  (f.groups.flatten.flatMap Condition.operands).length

/-- The wire form of no condition. -/
def isBlankCondition : Json → Bool
  | .arr [] => true
  | _ => false

/-- Reads one group of the wire form, leaving empty conditions out. -/
def readGroup : Json → Except Error (List Condition)
  | .arr conditions => (conditions.filter (!isBlankCondition ·)).mapM Condition.ofJson
  | v => .error (.invalidFilter (.groupNotArray v))

/-- Reads the wire form; null and the empty text match every row. -/
def ofJson : Json → Except Error Filter
  | .null => .ok all
  | .arr groups => do return ofGroups (← groups.mapM readGroup)
  | v => if v.str? = some "" then .ok all else .error (.invalidFilter (.filterNotArray v))

/-- The condition of one field of a map: membership for an array, else equality. -/
def fieldCondition : String × Json → Except Error Condition
  | (column, .arr members) => Condition.make column .isIn (.arr members)
  | (column, v) => Condition.make column .equal v

/-- The conditions of all fields in one group. -/
def ofMap (fields : List (String × Json)) : Except Error Filter := do
  return and (← fields.mapM fieldCondition)

/-- A filter that holds where both the first one and every condition of the second one's only group
hold. -/
def narrowed (base extra : Filter) : Filter :=
  if base.matchesAll then extra
  else ⟨base.groups.map (· ++ extra.groups.headD [])⟩

/-- Reads a loosely shaped request: a text or number is the primary key; an object with an array
under `filter` is that filter narrowed by its other fields; any other object is a map. -/
def ofInput (input : Json) (primaryKey : String) : Except Error Filter :=
  match input with
  | .str _ | .int _ | .float _ => do return and [← Condition.make primaryKey .equal input]
  | .obj fields =>
    match fields.lookup "filter" with
    | some (.arr groups) => do
      let base ← ofJson (.arr groups)
      let extra ← ofMap (fields.filter fun (key, _) => key != "filter")
      return narrowed base extra
    | _ => ofMap fields
  | v => .error (.invalidFilter (.unsupportedInput v))

end Filter
end Querysmith
