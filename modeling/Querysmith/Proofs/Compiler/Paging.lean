/-
# Pages and the rows they show

Pages are counted from zero, and the statement for a page binds two numbers: how many rows it shows
and how many stand before them.  The second one is a product that stops at the greatest number of
64 bits, and both are then cut to the largest integer that can be bound, so all pages far enough
behind bind the same offset.  No row is lost or shown twice by that: an offset that was cut lies
behind every row that has a place (`Page.clamped_offset_le_iff`), and so does the end of a page
whose limit was cut (`Page.lt_clamped_iff`).  What is left is a division with remainder
(`Page.shows_iff`).
-/

import Querysmith.Proofs.Compiler.Selection

namespace Querysmith

namespace Page

/-- The integer that is bound for a count. -/
def clamped (n : Nat) : Int := min n SqlValue.maxInt

/-- A page binds its limit and its offset. -/
theorem values_eq (p : Page) : p.values = [.int (clamped p.limit), .int (clamped p.offset)] := rfl

/-- A bound of a page is not negative. -/
theorem clamped_nonneg (n : Nat) : 0 ≤ clamped n := by
  unfold clamped SqlValue.maxInt
  omega

/-- A bound of a page is an integer of 64 bits. -/
theorem clamped_le_maxInt (n : Nat) : clamped n ≤ SqlValue.maxInt := Int.min_le_right _ _

/-- **The bound offset is at most the place of a row exactly when the page begins there or
before,** because both cuts are behind the row. -/
theorem clamped_offset_le_iff (p : Page) {r : Nat} (hr : (r : Int) < SqlValue.maxInt) :
    clamped p.offset ≤ r ↔ p.page * p.limit ≤ r := by
  unfold clamped offset maxWord
  unfold SqlValue.maxInt at hr ⊢
  generalize p.page * p.limit = before
  omega

/-- A page that begins at a row or before it ends where its uncut limit says, as far as that row
can tell. -/
theorem lt_clamped_iff (p : Page) {r : Nat} (hr : (r : Int) < SqlValue.maxInt)
    (hle : p.page * p.limit ≤ r) :
    (r : Int) < clamped p.offset + clamped p.limit ↔ r < p.page * p.limit + p.limit := by
  unfold clamped offset maxWord
  unfold SqlValue.maxInt at hr ⊢
  generalize p.page * p.limit = before at hle ⊢
  omega

/-- **The bound numbers of a page are around a row exactly when the page is the quotient of its
place by the limit.** -/
theorem shows_iff (p : Page) (hlimit : 1 ≤ p.limit) {r : Nat} (hr : (r : Int) < SqlValue.maxInt) :
    clamped p.offset ≤ r ∧ (r : Int) < clamped p.offset + clamped p.limit ↔
      p.page = r / p.limit := by
  -- Where the page ends is only asked of a page that has begun, so the cuts are undone in order.
  rw [p.clamped_offset_le_iff hr, eq_comm, Nat.div_eq_iff hlimit]
  constructor
  · rintro ⟨hle, hlt⟩
    have := (p.lt_clamped_iff hr hle).1 hlt
    omega
  · rintro ⟨hle, hlt⟩
    exact ⟨hle, (p.lt_clamped_iff hr hle).2 (by omega)⟩

end Page

namespace Compiler

variable {c : Compiler} {table : String} {f : Filter} {order : SortOrder}
  {softDelete : Option String}

/-- The statement for a page is the one for all rows, behind which a limit and an offset are
bound. -/
def BindsPage (c : Compiler) (table : String) (f : Filter) (order : SortOrder)
    (softDelete : Option String) (page : Page) (limit offset : Int) : Prop :=
  ∃ all rows : Statement,
    c.select table f order softDelete none = .ok all ∧
    c.select table f order softDelete (some page) = .ok rows ∧
    rows.sql = all.sql ++ (" LIMIT " ++ c.dialect.placeholder (all.params.length + 1) ++
      " OFFSET " ++ c.dialect.placeholder (all.params.length + 2)) ∧
    rows.params = all.params ++ [.int limit, .int offset]

/-- The row at a place, counted from zero, is among those that the statement for a page asks
for. -/
def ShowsRow (c : Compiler) (table : String) (f : Filter) (order : SortOrder)
    (softDelete : Option String) (page : Page) (row : Nat) : Prop :=
  ∃ limit offset : Int, c.BindsPage table f order softDelete page limit offset ∧
    offset ≤ row ∧ row < offset + limit

/-- The clause of a page stands behind everything else. -/
theorem selectPieces_some (c : Compiler) (t : TableName) (f : Filter) (order : SortOrder)
    (softDelete : Option String) (page : Page) :
    c.selectPieces t f order softDelete (some page) =
      c.selectPieces t f order softDelete none ++ .text " " :: page.fragment := by
  rw [selectPieces_eq, selectPieces_eq, behind_cons, behind_cons order.pieces [_]]
  simp [behind, Page.fragment]

/-- What the clause of a page adds to a text. -/
theorem sql_page (d : Dialect) (bound : Nat) (p : Page) :
    Fragment.sql d bound (.text " " :: p.fragment) =
      " LIMIT " ++ d.placeholder (bound + 1) ++ " OFFSET " ++ d.placeholder (bound + 2) := by
  simp only [Fragment.sql, Page.fragment, Fragment.write, Dialect.castPlaceholder]
  simp [String.append_assoc]

/-- Whenever all rows can be selected, so can the rows of a page, with its two cut numbers. -/
theorem bindsPage_clamped {all : Statement} (h : c.select table f order softDelete none = .ok all)
    (page : Page) :
    c.BindsPage table f order softDelete page (Page.clamped page.limit)
      (Page.clamped page.offset) := by
  obtain ⟨t, ht⟩ := exists_resolve_of_ok h
  obtain ⟨husable, rfl⟩ := (select_yields ht f order softDelete none).eq_of_ok h
  refine ⟨_, _, h, (select_yields ht f order softDelete (some page) _).2 ⟨husable, rfl⟩, ?_, ?_⟩
  · simp only [Statement.ofFragment]
    rw [selectPieces_some, Fragment.sql_append, sql_page, Nat.zero_add]
  · simp only [Statement.ofFragment]
    rw [selectPieces_some, Fragment.values_append, Fragment.values_text, ← Page.values_eq]
    rfl

/-- No other numbers are bound. -/
theorem BindsPage.eq_clamped {page : Page} {limit offset : Int}
    (h : c.BindsPage table f order softDelete page limit offset) :
    limit = Page.clamped page.limit ∧ offset = Page.clamped page.offset := by
  obtain ⟨all, rows, hall, hrows, -, hparams⟩ := h
  obtain ⟨all', rows', hall', hrows', -, hparams'⟩ := bindsPage_clamped hall page
  obtain rfl : all = all' := Except.ok.inj (hall.symm.trans hall')
  obtain rfl : rows = rows' := Except.ok.inj (hrows.symm.trans hrows')
  simpa using hparams.symm.trans hparams'

/-- **A row is on the page that its place divided by the limit tells,** and on no other. -/
theorem showsRow_iff {all : Statement} (h : c.select table f order softDelete none = .ok all)
    {page : Page} (hlimit : 1 ≤ page.limit) {row : Nat} (hrow : (row : Int) < SqlValue.maxInt) :
    c.ShowsRow table f order softDelete page row ↔ page.page = row / page.limit := by
  rw [← page.shows_iff hlimit hrow]
  constructor
  · rintro ⟨limit, offset, hbinds, hshows⟩
    obtain ⟨rfl, rfl⟩ := hbinds.eq_clamped
    exact hshows
  · exact fun hshows => ⟨_, _, bindsPage_clamped h page, hshows⟩

/-- **The pages of a selection have every row once.**  For a limit that is not zero, each page
binds two integers that are not negative, and a row stands on one page among those that a number of
64 bits can name, on the one that division by the limit gives. -/
theorem existsUnique_page {all : Statement}
    (h : c.select table f order softDelete none = .ok all) {limit : Nat} (hlimit : 1 ≤ limit) :
    (∀ page : Nat, ∃ boundLimit boundOffset : Int,
      c.BindsPage table f order softDelete ⟨page, limit⟩ boundLimit boundOffset ∧
      (0 ≤ boundLimit ∧ boundLimit ≤ SqlValue.maxInt) ∧
      (0 ≤ boundOffset ∧ boundOffset ≤ SqlValue.maxInt)) ∧
    ∀ row : Nat, (row : Int) < SqlValue.maxInt →
      (∃! page, page ≤ maxWord ∧ c.ShowsRow table f order softDelete ⟨page, limit⟩ row) ∧
      ∀ page, c.ShowsRow table f order softDelete ⟨page, limit⟩ row ↔ page = row / limit := by
  refine ⟨fun page => ?_, fun row hrow => ?_⟩
  · exact ⟨_, _, bindsPage_clamped h ⟨page, limit⟩,
      ⟨Page.clamped_nonneg _, Page.clamped_le_maxInt _⟩,
      ⟨Page.clamped_nonneg _, Page.clamped_le_maxInt _⟩⟩
  · have hshows : ∀ page, c.ShowsRow table f order softDelete ⟨page, limit⟩ row ↔
        page = row / limit := fun page => showsRow_iff h hlimit hrow
    have hword : row / limit ≤ maxWord := by
      have := Nat.div_le_self row limit
      unfold SqlValue.maxInt at hrow
      unfold maxWord
      omega
    exact ⟨⟨row / limit, ⟨hword, (hshows _).2 rfl⟩, fun page hpage => (hshows page).1 hpage.2⟩,
      hshows⟩

/-- With a limit of `2^62` the offset is cut from page two on, and the product takes more than 64
bits from page four on.  The last row that has a place stands on page one all the same, and on no
other. -/
theorem existsUnique_page_cut :
    ∃ all : Statement,
      (ofDialect .postgres).select "t" .all .unordered none none = .ok all ∧
      all.sql = "SELECT * FROM \"t\"" ∧
      (∃ limit offset : Int,
        (ofDialect .postgres).BindsPage "t" .all .unordered none ⟨4, 4611686018427387904⟩
          limit offset ∧ 0 ≤ offset) ∧
      ∀ page, (ofDialect .postgres).ShowsRow "t" .all .unordered none
        ⟨page, 4611686018427387904⟩ 9223372036854775806 ↔ page = 1 := by
  have ht : TableName.resolve "t" (ofDialect .postgres).options.schema = .ok ⟨none, "t"⟩ := by
    rfl
  have h := (select_yields ht .all .unordered none none _).2 ⟨by decide, rfl⟩
  have hpages := existsUnique_page h (show 1 ≤ 4611686018427387904 by decide)
  obtain ⟨limit, offset, hbinds, -, hoffset, -⟩ := hpages.1 4
  exact ⟨_, h, by decide +kernel, ⟨limit, offset, hbinds, hoffset⟩,
    (hpages.2 9223372036854775806 (by decide)).2⟩

end Compiler
end Querysmith
