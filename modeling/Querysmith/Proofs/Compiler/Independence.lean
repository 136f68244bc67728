/-
# Statements do not depend on values

Two calls are alike when they differ in the values they bind only: in the operands of a filter and
the numbers of a page, and for a write in cells that are null together and ask for the same cast.
Calls that are alike stop at the same error, or their statements have the same text and bind the
same number of values, statement by statement (`statements_agree`).  The merge of one record binds
the whole record as one document, so its text is the same for any two records.

Every builder is followed once with two sets of values.  The names that it checks are the same in
both runs, and so is what it stops at; the fragments that it writes have the same outline.
-/

import Querysmith.Proofs.Compiler.Closed
import Querysmith.Proofs.Filter.SameForm

namespace Querysmith

open Fragment (SameOutline)

/-- Related lists are cut into related chunks. -/
theorem forall₂_chunks {α β : Type} {R : α → β → Prop} (size : Nat) {xs : List α} {ys : List β}
    (h : List.Forall₂ R xs ys) :
    List.Forall₂ (List.Forall₂ R) (chunks size xs) (chunks size ys) := by
  induction xs using chunks.induct size generalizing ys with
  | case1 xs hx =>
    have hy : ys.isEmpty = true ∨ size = 0 := by
      rcases hx with hx | hx
      · obtain rfl := List.isEmpty_iff.1 hx
        exact .inl (List.isEmpty_iff.2 (List.forall₂_nil_left_iff.1 h))
      · exact .inr hx
    rw [chunks, if_pos hx, chunks, if_pos hy]
    exact .nil
  | case2 xs hx ih =>
    have hy : ¬(ys.isEmpty = true ∨ size = 0) := by
      rintro (hy | hy)
      · obtain rfl := List.isEmpty_iff.1 hy
        exact hx (.inl (List.isEmpty_iff.2 (List.forall₂_nil_right_iff.1 h)))
      · exact hx (.inr hy)
    rw [chunks.eq_def size xs, if_neg hx, chunks.eq_def size ys, if_neg hy]
    exact .cons (List.forall₂_take size h) (ih (List.forall₂_drop size h))

namespace Compiler

variable (c : Compiler)

/-! ### Reads and removals -/

/-- Parts with the same outlines make clauses with the same outline: an empty part is left out of
both. -/
theorem clauses_sameOutline {fs gs : List Fragment} (h : List.Forall₂ SameOutline fs gs) :
    SameOutline (clauses fs) (clauses gs) :=
  .joined " " (SameOutline.filter_isEmpty h)

/-- Filters of one form have clauses of one outline, or fail alike. -/
theorem whereClause_agree {f g : Filter} (h : f.SameForm g) (softDelete : Option String) :
    Agree SameOutline (c.whereClause f softDelete) (c.whereClause g softDelete) :=
  (Filter.whereFragment_agree h softDelete c.predicateOptions).bind fun _ _ hclause => by
    cases hclause with
    | none => exact .pure (.refl [])
    | some hclause => exact .pure hclause

/-- A page is written alike whatever its numbers are. -/
theorem paging_sameOutline {page page' : Option Page} (h : page.isSome = page'.isSome) :
    SameOutline ((page.map Page.fragment).getD []) ((page'.map Page.fragment).getD []) := by
  cases page with
  | none =>
    cases page' with
    | none => exact .refl []
    | some q => cases h
  | some p =>
    cases page' with
    | none => cases h
    | some q => exact rfl

/-- **Two selections agree** when their filters have one form and both have a page or neither has
one. -/
theorem select_agree {f g : Filter} (h : f.SameForm g) {page page' : Option Page}
    (hpage : page.isSome = page'.isSome) (table : String) (order : SortOrder)
    (softDelete : Option String) :
    Agree Statement.SameText (c.select table f order softDelete page)
      (c.select table g order softDelete page') := by
  refine Agree.bind_same _ fun table => ?_
  refine (c.whereClause_agree h softDelete).bind fun clause clause' hclause => ?_
  refine Agree.bind_same _ fun orderBy => ?_
  refine .pure (SameOutline.sameText (clauses_sameOutline ?_) _ _)
  exact .cons (.refl _) (.cons hclause (.cons (.refl _) (.cons (paging_sameOutline hpage) .nil)))

/-- **Two counts agree** when their filters have one form. -/
theorem count_agree {f g : Filter} (h : f.SameForm g) (table : String)
    (softDelete : Option String) :
    Agree Statement.SameText (c.count table f softDelete) (c.count table g softDelete) := by
  refine Agree.bind_same _ fun table => ?_
  refine (c.whereClause_agree h softDelete).bind fun clause clause' hclause => ?_
  refine .pure (SameOutline.sameText (clauses_sameOutline ?_) _ _)
  exact .cons (.refl _) (.cons hclause .nil)

/-- **Two removals agree** when their filters have one form; such filters bind equally many
values. -/
theorem delete_agree {f g : Filter} (h : f.SameForm g) (table : String)
    (softDelete : Option String) :
    Agree Statement.SameText (c.delete table f softDelete) (c.delete table g softDelete) := by
  -- Whether there is anything to bind is a matter of the form, so both are refused or neither is.
  by_cases hg : g.paramCount = 0
  · rw [delete, delete, if_pos (h.paramCount_eq.trans hg), if_pos hg]
    exact .error _
  · -- Behind the head of a removal stands the clause, and without one the removal is refused.
    have htail : ∀ (head : Fragment) {k : Option Fragment → Except Error Statement},
        k none = .error .noFilterForDelete →
        (∀ clause, k (some clause) = pure (.ofFragment c.dialect (head ++ .text " " :: clause)
          false)) →
        Agree Statement.SameText (f.whereFragment none c.predicateOptions >>= k)
          (g.whereFragment none c.predicateOptions >>= k) := by
      intro head k hnone hsome
      refine (Filter.whereFragment_agree h none c.predicateOptions).bind fun _ _ hclause => ?_
      cases hclause with
      | none =>
        rw [hnone]
        exact .error _
      | some hclause =>
        rw [hsome, hsome]
        exact .pure (SameOutline.sameText ((SameOutline.refl head).append (.cons _ hclause)) _ _)
    have hf : ¬f.paramCount = 0 := fun hf => hg (h.paramCount_eq.symm.trans hf)
    rw [delete, delete, if_neg hf, if_neg hg]
    refine Agree.bind_same _ fun table => ?_
    cases softDelete with
    | none => exact htail _ rfl fun _ => rfl
    | some column => exact Agree.bind_same _ fun column => htail _ rfl fun _ => rfl

/-! ### Writes -/

/-- Two cells of a column that are null together when they are normalized, and that ask for the same
cast. -/
structure SameCell (column : String) (v w : Json) : Prop where
  null : c.normalizer.normalize column v = .null ↔ c.normalizer.normalize column w = .null
  cast : c.casts.castFor column (c.normalizer.normalize column v) =
    c.casts.castFor column (c.normalizer.normalize column w)

/-- Two rows under the same columns that agree cell by cell. -/
def SameRow (columns : List String) (row row' : List Json) : Prop :=
  List.Forall₂ (fun x y => x.1 = y.1 ∧ c.SameCell x.1 x.2 y.2) (columns.zip row)
    (columns.zip row')

/-- Two row sets with the same columns and as many rows, which agree cell by cell. -/
structure SameRows (rows rows' : RowSet) : Prop where
  columns : rows.columns = rows'.columns
  rows : List.Forall₂ (c.SameRow rows.columns) rows.rows rows'.rows

variable {c}

/-- A cell that is not null is a placeholder with the cast of its value. -/
theorem cell_of_ne_null {column : String} {v : Json}
    (h : c.normalizer.normalize column v ≠ .null) :
    c.cell column v = [.hole (.ofJson (c.normalizer.normalize column v))
      (c.casts.castFor column (c.normalizer.normalize column v))] := by
  rw [cell]
  split
  · exact absurd ‹_› h
  · rfl

/-- Cells that are null together and have the same cast have the same outline. -/
theorem SameCell.sameOutline {column : String} {v w : Json} (h : c.SameCell column v w) :
    SameOutline (c.cell column v) (c.cell column w) := by
  by_cases hv : c.normalizer.normalize column v = .null
  · rw [cell, cell, hv, h.null.1 hv]
    exact .refl _
  · rw [cell_of_ne_null hv, cell_of_ne_null fun hw => hv (h.null.2 hw), h.cast]
    exact .hole _ _ _

/-- Records whose cells agree have tuples of one outline. -/
theorem SameRow.sameOutline {columns : List String} {row row' : List Json}
    (h : c.SameRow columns row row') :
    SameOutline (c.tuple columns row) (c.tuple columns row') := by
  have hcells : List.Forall₂ SameOutline (List.zipWith c.cell columns row)
      (List.zipWith c.cell columns row') := by
    rw [← List.map_uncurry_zip_eq_zipWith, ← List.map_uncurry_zip_eq_zipWith]
    refine List.rel_map (fun {x y} hxy => ?_) h
    obtain ⟨column, v⟩ := x
    obtain ⟨column', w⟩ := y
    obtain ⟨rfl, hcell⟩ := hxy
    exact hcell.sameOutline
  exact .append (.cons _ (.joined ", " hcells)) (.refl _)

/-- Chunks whose records agree make inserts of one outline. -/
theorem insertFragment_sameOutline {columns : List String} {chunk chunk' : List (List Json)}
    (h : List.Forall₂ (c.SameRow columns) chunk chunk') (table columnList conflict : Fragment) :
    SameOutline (c.insertFragment table columnList columns chunk conflict)
      (c.insertFragment table columnList columns chunk' conflict) := by
  have htuples : SameOutline (c.tuples columns chunk) (c.tuples columns chunk') :=
    .joined ", " (List.rel_map (fun {_ _} hrow => SameRow.sameOutline hrow) h)
  exact (((SameOutline.refl _).append (.cons _ htuples)).append (.refl conflict)).append (.refl _)

/-- **Two inserts agree** when their records do.  They have equally many records, so their chunks
are of the same sizes. -/
theorem insert_agree {rows rows' : RowSet} (h : c.SameRows rows rows') (table : String) :
    Agree (fun plan plan' => List.Forall₂ Statement.SameText plan.statements plan'.statements)
      (c.insert table rows) (c.insert table rows') := by
  obtain ⟨columns, rows⟩ := rows
  obtain ⟨columns', rows'⟩ := rows'
  obtain ⟨rfl, hrows⟩ := h
  refine Agree.bind_same _ fun table => Agree.bind_same _ fun columnList => .pure ?_
  refine List.rel_map (fun {chunk chunk'} hchunk => ?_) (forall₂_chunks _ hrows)
  exact (insertFragment_sameOutline hchunk table columnList []).sameText _ _

/-- A merge binds its record as one document, so its text is the same for any two records. -/
theorem mergeFragment_agree (table : Fragment) (columns : List String) (row row' : List Json)
    (groups : List (List String)) (updates : List String) :
    Agree SameOutline (c.mergeFragment table columns row groups updates)
      (c.mergeFragment table columns row' groups updates) := by
  refine Agree.bind_same _ fun columnList => Agree.bind_same _ fun set => ?_
  refine Agree.bind_same _ fun matching => Agree.bind_same _ fun conflict => .pure ?_
  simp [SameOutline, Fragment.outline, Piece.outline]

/-- Chunks whose records agree make upserts of one outline; a merge shows nothing of its record. -/
theorem upsertFragment_agree {columns : List String} {chunk chunk' : List (List Json)}
    (h : List.Forall₂ (c.SameRow columns) chunk chunk') (table : Fragment)
    (updates : List String) (strategy : Strategy) :
    Agree SameOutline (c.upsertFragment table columns chunk updates strategy)
      (c.upsertFragment table columns chunk' updates strategy) := by
  have hinsert := Agree.bind_same (Identifier.listFragment columns) fun columnList =>
    Agree.bind_same (conflictClauses strategy.targets updates) fun conflict =>
      Agree.pure (insertFragment_sameOutline h table columnList conflict)
  cases strategy with
  | merge groups => exact mergeFragment_agree table columns _ _ groups updates
  | plain => exact hinsert
  | onConflict target => exact hinsert
  | chained groups => exact hinsert

/-- Chunks that count as many records, resolve their conflicts alike, and are written alike when
`P` holds of how they do. -/
def SameChunk (P : Strategy → Prop) (chunk chunk' : UpsertChunk) : Prop :=
  chunk.rows = chunk'.rows ∧ chunk.strategy = chunk'.strategy ∧
    (P chunk.strategy → Agree Statement.SameText chunk.statement chunk'.statement)

/-- Related rows are upserted in chunks of the same kind.  What relates the rows has to be enough
for the strategies in question. -/
theorem upsertChunks_agree {R : List Json → List Json → Prop} {P : Strategy → Prop}
    {rows rows' : RowSet} (hcolumns : rows.columns = rows'.columns)
    (hrows : List.Forall₂ R rows.rows rows'.rows)
    (hfragment : ∀ table updates strategy chunk chunk', P strategy → List.Forall₂ R chunk chunk' →
      Agree SameOutline (c.upsertFragment table rows.columns chunk updates strategy)
        (c.upsertFragment table rows.columns chunk' updates strategy))
    (table : String) (spec : ConstraintSpec) :
    Agree (List.Forall₂ (SameChunk P)) (c.upsertChunks table rows spec)
      (c.upsertChunks table rows' spec) := by
  obtain ⟨columns, rows⟩ := rows
  obtain ⟨columns', rows'⟩ := rows'
  obtain rfl : columns = columns' := hcolumns
  refine Agree.bind_same _ fun table => .pure ?_
  refine List.rel_map (fun {chunk chunk'} hchunk => ?_) (forall₂_chunks _ hrows)
  have hstrategy := congrArg (Strategy.choose c.dialect spec · columns) hchunk.length_eq
  refine ⟨hchunk.length_eq, hstrategy, fun hP => ?_⟩
  simp only [← hchunk.length_eq]
  exact (hfragment table (updateColumns columns spec) _ chunk chunk' hP hchunk).map
    fun _ _ hfragment => hfragment.sameText _ _

/-- **Two upserts agree** when their records do. -/
theorem upsert_agree {rows rows' : RowSet} (h : c.SameRows rows rows') (table : String)
    (spec : ConstraintSpec) :
    Agree (fun plan plan' => List.Forall₂ Statement.SameText plan.statements plan'.statements)
      (c.upsert table rows spec) (c.upsert table rows' spec) := by
  have hchunks := upsertChunks_agree (P := fun _ => True) h.columns h.rows
    (fun table updates strategy _ _ _ hchunk =>
      upsertFragment_agree hchunk table updates strategy) table spec
  refine hchunks.bind fun chunks chunks' hchunks => ?_
  refine (Agree.mapM (hchunks.imp fun _ _ hchunk => hchunk.2.2 trivial)).bind ?_
  exact fun _ _ hstatements => .pure hstatements

/-! ### All calls -/

variable (c)

/-- The calls differ in the values they bind only. -/
inductive SameCall : Call → Call → Prop where
  | select {f g : Filter} {page page' : Option Page} (hf : f.SameForm g)
      (hpage : page.isSome = page'.isSome) (table : String) (order : SortOrder)
      (softDelete : Option String) :
      SameCall (.select table f order softDelete page) (.select table g order softDelete page')
  | count {f g : Filter} (hf : f.SameForm g) (table : String) (softDelete : Option String) :
      SameCall (.count table f softDelete) (.count table g softDelete)
  | delete {f g : Filter} (hf : f.SameForm g) (table : String) (softDelete : Option String) :
      SameCall (.delete table f softDelete) (.delete table g softDelete)
  | insert {rows rows' : RowSet} (hrows : c.SameRows rows rows') (table : String) :
      SameCall (.insert table rows) (.insert table rows')
  | upsert {rows rows' : RowSet} (hrows : c.SameRows rows rows') (table : String)
      (spec : ConstraintSpec) : SameCall (.upsert table rows spec) (.upsert table rows' spec)

/-- Calls that differ in their values only fail alike, or their statements have the same text. -/
theorem sameText_of_sameCall {a b : Call} (h : c.SameCall a b) :
    Agree (List.Forall₂ Statement.SameText) (c.statements a) (c.statements b) := by
  have hsingle : ∀ {s t : Statement}, s.SameText t → List.Forall₂ Statement.SameText [s] [t] :=
    fun h => .cons h .nil
  cases h with
  | select hf hpage table order softDelete =>
    exact (c.select_agree hf hpage table order softDelete).map fun _ _ => hsingle
  | count hf table softDelete => exact (c.count_agree hf table softDelete).map fun _ _ => hsingle
  | delete hf table softDelete =>
    exact (c.delete_agree hf table softDelete).map fun _ _ => hsingle
  | insert hrows table => exact (insert_agree hrows table).map fun _ _ hplans => hplans
  | upsert hrows table spec => exact (upsert_agree hrows table spec).map fun _ _ hplans => hplans

/-- Row sets with the same columns and as many rows are upserted by the same strategies, and where
it is a merge, the text is the same whatever the rows hold. -/
theorem sameChunks_of_length_eq {rows rows' : RowSet} (hcolumns : rows.columns = rows'.columns)
    (hlength : rows.rows.length = rows'.rows.length) (table : String) (spec : ConstraintSpec) :
    Agree (List.Forall₂ (SameChunk fun strategy => ∃ groups, strategy = .merge groups))
      (c.upsertChunks table rows spec) (c.upsertChunks table rows' spec) := by
  refine upsertChunks_agree (R := fun _ _ => True) hcolumns
    (forall₂_of_length_eq (fun _ _ => trivial) hlength) ?_ table spec
  rintro table updates _ chunk chunk' ⟨groups, rfl⟩ -
  exact mergeFragment_agree table rows.columns _ _ groups updates

/-- **The text of a statement never depends on the values it binds.**  Calls that differ in their
values only stop at the same error, or their statements have the same text and bind as many values;
and a merge has the same text for any two records with the same columns. -/
theorem statements_agree (c : Compiler) :
    (∀ {a b : Call}, c.SameCall a b →
      Agree (List.Forall₂ Statement.SameText) (c.statements a) (c.statements b)) ∧
    ∀ rows rows' : RowSet, rows.columns = rows'.columns →
      rows.rows.length = rows'.rows.length → ∀ (table : String) (spec : ConstraintSpec),
        Agree (List.Forall₂ (SameChunk fun strategy => ∃ groups, strategy = .merge groups))
          (c.upsertChunks table rows spec) (c.upsertChunks table rows' spec) :=
  ⟨c.sameText_of_sameCall, fun _ _ hcolumns hlength => c.sameChunks_of_length_eq hcolumns hlength⟩

/-- A removal by a text that is an injection, and one by null; and the merge of two records that
have nothing but their columns in common. -/
theorem statements_agree_injected :
    (∃ s t, (ofDialect .postgres).statements
          (.delete "users" (.and [.equal "name" (.str "' OR '1' = '1")]) none) = .ok [s] ∧
        (ofDialect .postgres).statements (.delete "users" (.and [.equal "name" .null]) none) =
          .ok [t] ∧ s.SameText t) ∧
    ∃ s t, (ofDialect .postgres).upsertChunks "users" ⟨["a", "b"], [[.str "$1", .null]]⟩
          ⟨[.simple "a", .simple "b"]⟩ = .ok [⟨1, .merge [["a"], ["b"]], .ok s⟩] ∧
        (ofDialect .postgres).upsertChunks "users" ⟨["a", "b"], [[.int 1, .bool true]]⟩
          ⟨[.simple "a", .simple "b"]⟩ = .ok [⟨1, .merge [["a"], ["b"]], .ok t⟩] ∧
        s.SameText t := by
  constructor
  · have hform : (Filter.and [.equal "name" (.str "' OR '1' = '1")]).SameForm
        (.and [.equal "name" .null]) := .cons (.cons ⟨rfl, rfl, rfl⟩ .nil) .nil
    have hagree := ((statements_agree (ofDialect .postgres)).1 (.delete hform "users" none)).of_ok
    exact ⟨_, _, rfl, rfl, (List.forall₂_cons.1 hagree).1⟩
  · have hchunked : ∀ row : List Json, (ofDialect .postgres).chunked ⟨["a", "b"], [row]⟩ =
        [[row]] := fun row => chunks_of_length_le (List.cons_ne_nil row [])
      (show 1 ≤ (ofDialect .postgres).chunkSize 2 by decide)
    have hagree := (statements_agree (ofDialect .postgres)).2 ⟨["a", "b"], [[.str "$1", .null]]⟩
      ⟨["a", "b"], [[.int 1, .bool true]]⟩ rfl rfl "users" ⟨[.simple "a", .simple "b"]⟩
    rw [upsertChunks, upsertChunks, hchunked, hchunked] at hagree ⊢
    have hmerge := (List.forall₂_cons.1 hagree.of_ok).1.2.2 ⟨[["a"], ["b"]], rfl⟩
    exact ⟨_, _, rfl, rfl, hmerge.of_ok⟩

end Compiler
end Querysmith
