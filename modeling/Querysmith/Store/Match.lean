/-
# Which rows match

The truth of a condition on a row has three values: a test of a column or an operand without value
is neither true nor false, and a row matches only when the whole condition is true
(`Truth.all_eq_true`, `Truth.any_eq_true`).
-/

import Querysmith.Sql.Command
import Querysmith.Store.Table

namespace Querysmith
namespace Store

/-- True, false or unknown. -/
abbrev Truth := Option Bool

namespace Truth

/-- Conjunction: false wins over unknown. -/
def and : Truth → Truth → Truth
  | some false, _ | _, some false => some false
  | some true, b => b
  | none, _ => none

/-- Disjunction: true wins over unknown. -/
def or : Truth → Truth → Truth
  | some true, _ | _, some true => some true
  | some false, b => b
  | none, _ => none

/-- Negation; unknown stays unknown. -/
def not : Truth → Truth := Option.map (!·)

/-- The conjunction of a list. -/
def all (ts : List Truth) : Truth := ts.foldr and (some true)

/-- The disjunction of a list. -/
def any (ts : List Truth) : Truth := ts.foldr or (some false)

/-- A conjunction is true when both sides are. -/
theorem and_eq_true {a b : Truth} : Truth.and a b = some true ↔ a = some true ∧ b = some true := by
  rcases a with _ | _ | _ <;> rcases b with _ | _ | _ <;> decide

/-- A disjunction is true when a side is. -/
theorem or_eq_true {a b : Truth} : Truth.or a b = some true ↔ a = some true ∨ b = some true := by
  rcases a with _ | _ | _ <;> rcases b with _ | _ | _ <;> decide

/-- **A conjunction is true when all its parts are.** -/
theorem all_eq_true {ts : List Truth} : Truth.all ts = some true ↔ ∀ t ∈ ts, t = some true := by
  induction ts with
  | nil => simp [Truth.all]
  | cons t ts ih =>
    rw [Truth.all] at ih ⊢
    rw [List.foldr_cons, Truth.and_eq_true, ih, List.forall_mem_cons]

/-- **A disjunction is true when one of its parts is.** -/
theorem any_eq_true {ts : List Truth} : Truth.any ts = some true ↔ some true ∈ ts := by
  induction ts with
  | nil => simp [Truth.any]
  | cons t ts ih =>
    rw [Truth.any] at ih ⊢
    rw [List.foldr_cons, Truth.or_eq_true, ih, List.mem_cons, eq_comm]

end Truth

/-- The text matches the pattern, in which `%` is any run of characters and `_` any one, and letters
of ASCII stand for both cases. -/
def matchesPattern : List Char → List Char → Bool
  | [], [] => true
  | [], _ :: _ => false
  | '%' :: pattern, [] => matchesPattern pattern []
  | '%' :: pattern, c :: cs =>
    matchesPattern pattern (c :: cs) || matchesPattern ('%' :: pattern) cs
  | _ :: _, [] => false
  | p :: pattern, c :: cs => (p = '_' || p.toLower = c.toLower) && matchesPattern pattern cs
termination_by pattern cs => pattern.length + cs.length

/-- The bound values of a statement, by their numbers. -/
abbrev Bindings := List SqlValue

/-- The cell of a term; a number that nothing is bound to is null. -/
def termCell (bound : Bindings) : Sql.Term → Cell
  | .literal v => .ofBound v
  | .placeholder n => if n = 0 then .null else .ofBound (bound[n - 1]?.getD .null)

/-- The cell of a column in a row, with the affinity of the column.  A quoted name that no column
has stands for itself as a text. -/
def Table.columnCell (t : Table) (r : Row) (column : String) : Affinity × Cell :=
  match t.place? column with
  | some place => ((t.columnAt place).affinity, r.cell place)
  | none => (.blob, .text column)

/-- The outcome of a comparison by an operator. -/
def holds (op : Operator) (o : Ordering) : Bool :=
  match op with
  | .equal => o == .eq
  | .notEqual => o != .eq
  | .less => o == .lt
  | .lessOrEqual => o != .gt
  | .greater => o == .gt
  | .greaterOrEqual => o != .lt
  | _ => false

/-- The truth of `like` between a cell and a pattern. -/
def like (c pattern : Cell) : Truth :=
  match c.text?, pattern.text? with
  | some s, some p => some (matchesPattern p.toList s.toList)
  | _, _ => none

/-- The truth of a comparison. -/
def compareCells (affinity : Affinity) (op : Operator) (c operand : Cell) : Truth :=
  match op with
  | .like => like c operand
  | .notLike => Truth.not (like c operand)
  | op => (Cell.compare? c (affinity.operand operand)).map (holds op)

/-- The truth of a test on a row. -/
def testTruth (t : Table) (bound : Bindings) (r : Row) : Sql.Test → Truth
  | .constant b => some b
  | .compare column op operand =>
    let (affinity, c) := t.columnCell r column
    compareCells affinity op c (termCell bound operand)
  | .member column negated operands =>
    let (affinity, c) := t.columnCell r column
    let found := Truth.any (operands.map fun o => compareCells affinity .equal c (termCell bound o))
    if negated then Truth.not found else found

/-- The truth of a condition on a row. -/
def clauseTruth (t : Table) (bound : Bindings) (r : Row) (clause : Sql.Clause) : Truth :=
  Truth.any (clause.map fun group => Truth.all (group.map (testTruth t bound r)))

/-- The row matches; without a condition every row does. -/
def Table.isMatch (t : Table) (bound : Bindings) (clause : Option Sql.Clause) (r : Row) : Bool :=
  match clause with
  | some clause => clauseTruth t bound r clause == some true
  | none => true

/-- Which of two rows comes first under sort keys. -/
def Table.compareRows (t : Table) (a b : Row) : List SortKey → Ordering
  | [] => .eq
  | key :: rest =>
    let o := Cell.order (t.columnCell a key.column).2 (t.columnCell b key.column).2
    let o := match key.direction with
      | .ascending => o
      | .descending => o.swap
    o.then (t.compareRows a b rest)

/-- The matching rows in an order; rows that the order does not tell apart stay in the order of
their keys. -/
def Table.matching (t : Table) (bound : Bindings) (clause : Option Sql.Clause)
    (order : List SortKey) : List Row :=
  (t.rows.filter (t.isMatch bound clause)).mergeSort fun a b => t.compareRows a b order != .gt

end Store
end Querysmith
