/-
# Reading statements

The rows of a table, their number, and the removal of rows, all selected by the same clause.
-/

import Querysmith.Compiler
import Querysmith.SortOrder

namespace Querysmith
namespace Compiler

/-- `SELECT * FROM table` with the filter, the order and the page. -/
def select (c : Compiler) (table : String) (f : Filter) (order : SortOrder)
    (softDelete : Option String) (page : Option Page) : Except Error Statement := do
  let table ← c.table table
  let whereClause ← c.whereClause f softDelete
  let orderBy ← order.fragment
  let paging := (page.map Page.fragment).getD []
  return .ofFragment c.dialect
    (clauses [.text "SELECT * FROM " :: table, whereClause, orderBy, paging]) true

/-- `SELECT count(*) AS number FROM table` with the filter. -/
def count (c : Compiler) (table : String) (f : Filter) (softDelete : Option String) :
    Except Error Statement := do
  let table ← c.table table
  let whereClause ← c.whereClause f softDelete
  return .ofFragment c.dialect
    (clauses [.text "SELECT count(*) AS number FROM " :: table, whereClause]) true

/-- `DELETE FROM table`, or `UPDATE table SET column = 1` on a soft-delete column, with the filter.
A filter that binds no value is refused.  Rows that are flagged already are hit as well. -/
def delete (c : Compiler) (table : String) (f : Filter) (softDelete : Option String) :
    Except Error Statement := do
  if f.paramCount = 0 then throw .noFilterForDelete
  let table ← c.table table
  let head ← match softDelete with
    | some column =>
      let column ← Identifier.fragment column
      pure (.text "UPDATE " :: table ++ .text " SET " :: column ++
        [.text " = ", .hole (.int 1) none])
    | none => pure (.text "DELETE FROM " :: table)
  match ← f.whereFragment none c.predicateOptions with
  | some whereClause =>
    return .ofFragment c.dialect (head ++ .text " " :: whereClause) false
  | none => throw .noFilterForDelete

end Compiler
end Querysmith
