/-
# Rows and their number

A read is two statements that are compiled apart: one for the rows and one for their number.  Both
name the table and the clause of the filter first, in the same text with the same numbers, and bind
the same values for them; what the first one has besides, its order and its page, stands behind
(`exists_count_of_select`).
-/

import Querysmith.Proofs.Compiler.Legibility

namespace Querysmith

namespace Fragment

/-- A text at the head of a fragment is written first. -/
theorem sql_text_cons (d : Dialect) (bound : Nat) (s : String) (f : Fragment) :
    sql d bound (.text s :: f) = s ++ sql d bound f := by
  rw [sql, write, write_eq, String.empty_append]

/-- A name at the head of a fragment is written first. -/
theorem sql_name_cons (d : Dialect) (bound : Nat) (s : String) (f : Fragment) :
    sql d bound (.name s :: f) = d.quoteIdentifier s ++ sql d bound f := by
  rw [sql, write, write_eq, String.empty_append]

/-- Joined fragments are the first one and the others, each behind a separator. -/
theorem joined_cons (sep : String) (f : Fragment) (fs : List Fragment) :
    joined sep (f :: fs) = f ++ fs.flatMap (.text sep :: ·) := by
  induction fs generalizing f with
  | nil => simp
  | cons g fs ih => rw [joined_cons_cons, ih, List.flatMap_cons, List.cons_append]

end Fragment

/-- The values that a page binds: its limit and its offset. -/
def Page.values (p : Page) : List SqlValue := [bound p.limit, bound p.offset]

namespace SortOrder

/-- An order binds no values. -/
theorem values_pieces (order : SortOrder) : Fragment.values order.pieces = [] := by
  rw [pieces]
  split
  · rfl
  · simp [Fragment.values_joined, List.flatMap_map]

end SortOrder

namespace Compiler

variable {c : Compiler} {table : String}

/-- Clauses behind a first one: those that are not empty, each behind a blank. -/
def behind (parts : List Fragment) : Fragment :=
  (parts.filter (!·.isEmpty)).flatMap (.text " " :: ·)

/-- The first part and the others stand behind a statement one after another. -/
theorem behind_cons (f : Fragment) (parts : List Fragment) :
    behind (f :: parts) = behind [f] ++ behind parts := by
  cases f <;> simp [behind]

/-- A first part that is not empty has no blank in front of it. -/
theorem clauses_cons {f : Fragment} (hf : f ≠ []) (parts : List Fragment) :
    clauses (f :: parts) = f ++ behind parts := by
  cases f with
  | nil => exact absurd rfl hf
  | cons p f => exact Fragment.joined_cons " " (p :: f) _

/-- The blank in front of a part binds nothing. -/
theorem values_behind (f : Fragment) : (behind [f]).values = f.values := by
  cases f <;> simp [behind]

/-- What both statements of a read name first: the table and the clause of the filter. -/
def sourcePieces (c : Compiler) (t : TableName) (f : Filter) (softDelete : Option String) :
    Fragment :=
  t.pieces ++ behind [(f.wherePieces softDelete c.predicateOptions).getD []]

/-- **A count is its own words and the rows that it counts.** -/
theorem countPieces_eq (c : Compiler) (t : TableName) (f : Filter) (softDelete : Option String) :
    c.countPieces t f softDelete =
      .text "SELECT count(*) AS number FROM " :: c.sourcePieces t f softDelete :=
  clauses_cons (List.cons_ne_nil _ _) _

/-- **A selection is its own words, the rows that it reads,** their order and a page. -/
theorem selectPieces_eq (c : Compiler) (t : TableName) (f : Filter) (order : SortOrder)
    (softDelete : Option String) (page : Option Page) :
    c.selectPieces t f order softDelete page =
      .text "SELECT * FROM " :: (c.sourcePieces t f softDelete ++
        behind [order.pieces, (page.map Page.fragment).getD []]) := by
  rw [selectPieces, clauses_cons (List.cons_ne_nil _ _), behind_cons, List.cons_append,
    ← List.append_assoc, sourcePieces]

/-- The order binds nothing and the page its limit and its offset. -/
theorem values_order_page (order : SortOrder) (page : Option Page) :
    (behind [order.pieces, (page.map Page.fragment).getD []]).values =
      (page.map Page.values).getD [] := by
  rw [behind_cons, Fragment.values_append, values_behind, values_behind, order.values_pieces,
    List.nil_append]
  cases page <;> rfl

/-- The two statements read the same rows: the same table and clause with the same values, behind
which the first one has its order and its page. -/
def ReadsSame (c : Compiler) (table : String) (f : Filter) (order : SortOrder)
    (softDelete : Option String) (page : Option Page) (rows number : Statement) : Prop :=
  ∃ source clause orderBy : Fragment,
    c.table table = .ok source ∧ c.whereClause f softDelete = .ok clause ∧
    order.fragment = .ok orderBy ∧
    number.sql = "SELECT count(*) AS number FROM " ++
      (source ++ behind [clause]).sql c.dialect 0 ∧
    rows.sql = "SELECT * FROM " ++ ((source ++ behind [clause]).sql c.dialect 0 ++
      (behind [orderBy, (page.map Page.fragment).getD []]).sql c.dialect number.params.length) ∧
    rows.params = number.params ++ (page.map Page.values).getD []

/-- **Whenever the rows can be selected they can be counted,** by a statement that reads the same
rows. -/
theorem exists_count_of_select {f : Filter} {order : SortOrder} {softDelete : Option String}
    {page : Option Page} {rows : Statement}
    (h : c.select table f order softDelete page = .ok rows) :
    ∃ number, c.count table f softDelete = .ok number ∧
      c.ReadsSame table f order softDelete page rows number := by
  obtain ⟨t, ht⟩ := exists_resolve_of_ok h
  obtain ⟨husable, rfl⟩ := (select_yields ht f order softDelete page).eq_of_ok h
  rw [allUsable_append] at husable
  obtain ⟨hread, horder⟩ := husable
  have hnames := hread
  rw [allUsable_append] at hnames
  have hcount := (count_yields ht f softDelete _).2 ⟨hread, rfl⟩
  have htable := (table_yields ht _).2 ⟨hnames.1, rfl⟩
  have hclause := (c.whereClause_yields f softDelete _).2 ⟨hnames.2, rfl⟩
  have horderBy := (order.fragment_yields _).2 ⟨horder, rfl⟩
  refine ⟨_, hcount, _, _, _, htable, hclause, horderBy, ?_, ?_, ?_⟩
  all_goals simp only [Statement.ofFragment, countPieces_eq, selectPieces_eq]
  · exact Fragment.sql_text_cons ..
  · rw [Fragment.sql_text_cons, Fragment.sql_append, Nat.zero_add]
    rfl
  · rw [Fragment.values_text, Fragment.values_append, values_order_page]
    rfl

end Compiler
end Querysmith
