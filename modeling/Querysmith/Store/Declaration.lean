/-
# Declarations of tables

A table is declared by its columns, each with the text of its type, and by groups of columns that
are unique together.  A type is an affinity, perhaps followed by `PRIMARY KEY`, `NOT NULL` or
`DEFAULT 0`.
-/

import Querysmith.Store.Table

namespace Querysmith
namespace Store

/-- The affinity that a word names; a column without a known one takes values as they are. -/
def Affinity.ofWord (word : String) : Affinity :=
  match word with
  | "INTEGER" => .integer
  | "REAL" => .real
  | "TEXT" => .text
  | _ => .blob

/-- The words of a text. -/
def wordsOf (s : String) : List String :=
  ((Text.splitOn ' ' s.toList).filter (!·.isEmpty)).map String.ofList

/-- The column of a name and the text of its type. -/
def Column.declared (name type : String) : Column :=
  let affinity := Affinity.ofWord ((wordsOf type).headD "")
  { name := name
    affinity := affinity
    notNull := Text.contains type "NOT NULL"
    standard := if Text.contains type "DEFAULT 0" then affinity.store (.int 0) else .null }

/-- The table of a name, the names and types of its columns, and its unique groups. -/
def Table.declared (name : String) (columns : List (String × String))
    (uniques : List (List String)) : Table :=
  let empty : Table :=
    { name := name, columns := columns.map fun (column, type) => .declared column type }
  { empty with
    keyPlace := columns.findIdx? fun (_, type) => Text.contains type "PRIMARY KEY"
    uniques := uniques.map (·.filterMap empty.place?) }

end Store
end Querysmith
