/-
# The strategies of an upsert

A chunk of an upsert resolves its conflicts by what is declared, by the columns of the records and,
where the dialect writes inside a `WITH`, by whether it holds a single record:

| declared | the dialect has | strategy |
| --- | --- | --- |
| nothing | anything | plain |
| one constraint | anything | one clause, for it |
| more | several conflict clauses | one clause for each |
| more, one of them covered | writes inside a `WITH` | a merge of a single record, else one clause |
| more | otherwise | one clause, for the first |

Every clause names a declared constraint (`Strategy.declared_choose`).  All chunks but the last are
full (`exists_chunks`), so a single record stands behind larger chunks only as the remainder of the
records, and only then do two chunks of a plan differ (`strategies_of_upsert`).
-/

import Querysmith.Proofs.Compiler.Overwrite

namespace Querysmith

/-! ### The lengths of chunks -/

/-- **All chunks but the last are full.** -/
theorem exists_chunks {α : Type} {size : Nat} (hsize : 0 < size) {xs : List α} (hne : xs ≠ []) :
    ∃ init last, chunks size xs = init ++ [last] ∧ (∀ chunk ∈ init, chunk.length = size) ∧
      0 < last.length ∧ last.length ≤ size ∧
      xs.length = init.length * size + last.length := by
  induction xs using chunks.induct size with
  | case1 xs hx =>
    rcases hx with hx | hx
    · exact absurd (List.isEmpty_iff.1 hx) hne
    · omega
  | case2 xs hx ih =>
    have hpos := List.length_pos_iff.2 hne
    -- By induction on the cutting: a list that fits is the last chunk, and any other one begins
    -- with a full chunk.
    by_cases hfits : xs.length ≤ size
    · refine ⟨[], xs, chunks_of_length_le hne hfits, by simp, hpos, hfits, ?_⟩
      rw [List.length_nil, Nat.zero_mul, Nat.zero_add]
    · have hrest : xs.drop size ≠ [] := by
        rw [← List.length_pos_iff, List.length_drop]
        omega
      obtain ⟨init, last, hchunks, hinit, hlast, hle, hlength⟩ := ih hrest
      have hfirst : (xs.take size).length = size := by
        rw [List.length_take]
        omega
      refine ⟨xs.take size :: init, last, ?_, List.forall_mem_cons.2 ⟨hfirst, hinit⟩, hlast, hle,
        ?_⟩
      · rw [chunks, if_neg hx, hchunks, List.cons_append]
      · rw [List.length_drop] at hlength
        rw [List.length_cons, Nat.add_mul, Nat.one_mul]
        omega

/-- A single record behind full chunks is what the size leaves over. -/
theorem mod_eq_one_iff {size k last : Nat} (hsize : 2 ≤ size) (hle : last ≤ size) :
    (k * size + last) % size = 1 ↔ last = 1 := by
  rw [Nat.mul_add_mod_self_right]
  rcases Nat.lt_or_eq_of_le hle with hlt | rfl
  · rw [Nat.mod_eq_of_lt hlt]
  · rw [Nat.mod_self]
    omega

/-! ### The declared constraints -/

namespace ConstraintSpec

/-- **The groups are the declared constraints,** in another order. -/
theorem groups_perm (spec : ConstraintSpec) :
    spec.groups.Perm (spec.entries.map Constraint.columns) := by
  obtain ⟨entries⟩ := spec
  induction entries with
  | nil => exact .refl _
  | cons entry entries ih =>
    cases entry with
    | composite columns => exact ih.cons columns
    | simple column => exact List.perm_middle.trans (ih.cons [column])

/-- Every entry makes one group. -/
theorem length_groups (spec : ConstraintSpec) : spec.groups.length = spec.entries.length := by
  rw [spec.groups_perm.length_eq, List.length_map]

/-- The constraints are counted by their entries. -/
theorem total_eq (spec : ConstraintSpec) : spec.total = spec.entries.length := by
  rw [← length_groups, groups, List.length_append, List.length_map, total]

end ConstraintSpec

namespace Strategy

/-- The targets of the `ON CONFLICT` clauses of a statement, those of a merge among them. -/
def conflictTargets : Strategy → List (List String)
  | merge groups => groups.head?.toList
  | strategy => strategy.targets

/-- **What a strategy names.**  It resolves the conflicts of records with these columns. -/
structure Declared (spec : ConstraintSpec) (columns : List String) (strategy : Strategy) :
    Prop where
  /-- A statement without a clause is written when nothing is declared. -/
  plain : strategy = .plain → spec.entries = []
  /-- Every target is a declared constraint. -/
  target : ∀ target ∈ strategy.conflictTargets,
    target ∈ spec.entries.map Constraint.columns ∧ target ≠ []
  /-- Several clauses name every declared constraint once, the composite ones first. -/
  chained : ∀ groups, strategy = .chained groups →
    groups = spec.composites ++ spec.simples.map ([·]) ∧
      groups.Perm (spec.entries.map Constraint.columns)
  /-- A merge compares the constraints that the columns cover, in the same order. -/
  merge : ∀ groups, strategy = .merge groups → groups ≠ [] ∧
    groups = (spec.composites ++ spec.simples.map ([·])).filter fun group =>
      group.all columns.contains
  /-- A single clause names the first composite constraint, or else the first column. -/
  onConflict : ∀ target, strategy = .onConflict target →
    spec.composites.head?.or (spec.simples.head?.map ([·])) = some target

variable {d : Dialect} {spec : ConstraintSpec} {columns : List String}

/-- Without a first target there are no constraints. -/
theorem entries_eq_nil_of_firstTarget (h : spec.firstTarget? = none) : spec.entries = [] := by
  have hlength := spec.length_groups
  rw [List.head?_eq_none_iff.1 h] at hlength
  exact List.length_eq_zero_iff.1 hlength.symm

/-- **Every strategy names declared constraints.** -/
theorem declared_choose (hgroups : ∀ group ∈ spec.groups, group ≠ []) (rows : Nat) :
    (choose d spec rows columns).Declared spec columns := by
  have hmem : ∀ target ∈ spec.groups,
      target ∈ spec.entries.map Constraint.columns ∧ target ≠ [] :=
    fun target htarget => ⟨spec.groups_perm.mem_iff.1 htarget, hgroups target htarget⟩
  rw [choose]
  cases hfirst : spec.firstTarget? with
  | none =>
    refine ⟨fun _ => entries_eq_nil_of_firstTarget hfirst, ?_, ?_, ?_, ?_⟩
    · exact fun _ htarget => absurd htarget List.not_mem_nil
    all_goals rintro _ ⟨⟩
  | some first =>
    -- A single target is the first one, and two branches of the choice end there.
    have hsingle : (onConflict first).Declared spec columns := by
      refine ⟨by rintro ⟨⟩, ?_, by rintro _ ⟨⟩, by rintro _ ⟨⟩, ?_⟩
      · exact List.forall_mem_singleton.2 (hmem first (List.mem_of_head? hfirst))
      · rintro _ ⟨⟩
        rw [← List.head?_map, ← List.head?_append]
        exact hfirst
    simp only
    split
    · exact hsingle
    · split
      · refine ⟨by rintro ⟨⟩, hmem, ?_, by rintro _ ⟨⟩, by rintro _ ⟨⟩⟩
        rintro _ ⟨⟩
        exact ⟨rfl, spec.groups_perm⟩
      · split
        · rename_i hmerge
          refine ⟨by rintro ⟨⟩, ?_, by rintro _ ⟨⟩, ?_, by rintro _ ⟨⟩⟩
          · intro target htarget
            have hcovered := List.mem_of_head? (Option.mem_toList.1 htarget)
            exact hmem target (List.mem_filter.1 hcovered).1
          · rintro _ ⟨⟩
            exact ⟨hmerge.2.2, rfl⟩
        · exact hsingle

/-- A single record is merged, where several records have one clause. -/
structure MergesAlone (d : Dialect) (spec : ConstraintSpec) (columns : List String) : Prop where
  writableCte : d.writableCte = true
  notChained : d.chainedConflicts = false
  several : 2 ≤ spec.entries.length
  covered : covered spec columns ≠ []

/-- Where a single record is merged, several are written against the first target alone. -/
theorem choose_of_mergesAlone (h : MergesAlone d spec columns) :
    ∃ first, spec.firstTarget? = some first ∧ ∀ rows, choose d spec rows columns =
      if rows = 1 then .merge (covered spec columns) else .onConflict first := by
  cases hfirst : spec.firstTarget? with
  | none =>
    have hseveral := h.several
    rw [entries_eq_nil_of_firstTarget hfirst] at hseveral
    cases hseveral
  | some first =>
    refine ⟨first, rfl, fun rows => ?_⟩
    have htotal : spec.total ≠ 1 := by
      have := h.several
      rw [spec.total_eq]
      omega
    simp only [choose, hfirst, if_neg htotal, h.notChained, h.writableCte]
    by_cases hrows : rows = 1
    · simp [hrows, h.covered]
    · simp [hrows]

/-- Otherwise it does not matter how many records there are. -/
theorem choose_of_not_mergesAlone (h : ¬MergesAlone d spec columns) (rows rows' : Nat) :
    choose d spec rows columns = choose d spec rows' columns := by
  rw [choose, choose]
  cases hfirst : spec.firstTarget? with
  | none => rfl
  | some first =>
    simp only
    by_cases htotal : spec.total = 1
    · rw [if_pos htotal, if_pos htotal]
    · by_cases hchained : d.chainedConflicts
      · simp [htotal, hchained]
      · -- What is left is a choice that only a merge could make by the number of records, and here
        -- no merge is possible.
        have hnone : ¬(d.writableCte = true ∧ covered spec columns ≠ []) := by
          rintro ⟨hwritable, hcovered⟩
          refine h ⟨hwritable, by simpa using hchained, ?_, hcovered⟩
          have hpos : spec.groups ≠ [] := by
            rintro hnil
            rw [ConstraintSpec.firstTarget?, hnil] at hfirst
            cases hfirst
          have := List.length_pos_iff.2 hpos
          rw [spec.length_groups] at this
          rw [spec.total_eq] at htotal
          omega
        have hmerge (n : Nat) :
            ¬(n = 1 ∧ d.writableCte = true ∧ covered spec columns ≠ []) :=
          fun hn => hnone hn.2
        rw [if_neg htotal, if_neg hchained, if_neg (hmerge rows), if_neg htotal,
          if_neg hchained, if_neg (hmerge rows')]

end Strategy

/-- Records that were read are not empty. -/
theorem RowSet.rows_ne_nil {input : Json} {rows : RowSet} (h : ofJson input = .ok rows) :
    rows.rows ≠ [] := by
  obtain ⟨records, hinput⟩ := exists_recordsOf h
  rw [ofJson_eq hinput] at h
  obtain ⟨hne, -, -, hrows⟩ := ofRecords_eq h
  rw [hrows]
  exact fun hnil => hne (List.map_eq_nil_iff.1 hnil)

namespace Compiler

open Strategy (MergesAlone)
open Sql.Reader (setClauses?)

variable {c : Compiler} {rows : RowSet} {spec : ConstraintSpec}

/-- Two chunks are resolved in different ways. -/
def Differs (c : Compiler) (rows : RowSet) (spec : ConstraintSpec) : Prop :=
  ∃ chunk ∈ c.chunked rows, ∃ chunk' ∈ c.chunked rows,
    c.strategyOf rows spec chunk ≠ c.strategyOf rows spec chunk'

/-- A single record is left over behind full chunks of several records. -/
def LeavesOne (c : Compiler) (rows : RowSet) : Prop :=
  2 ≤ c.chunkSize rows.columns.length ∧ c.chunkSize rows.columns.length < rows.rows.length ∧
    rows.rows.length % c.chunkSize rows.columns.length = 1

/-- The last chunk is a single record, and the chunks before it hold more than one. -/
theorem exists_chunked_of_leavesOne (hne : rows.rows ≠ []) (h : c.LeavesOne rows) :
    ∃ init last, c.chunked rows = init ++ [last] ∧ init ≠ [] ∧ last.length = 1 ∧
      ∀ chunk ∈ init, chunk.length ≠ 1 := by
  obtain ⟨hsize, hlt, hmod⟩ := h
  obtain ⟨init, last, hchunks, hinit, -, hle, hlength⟩ :=
    exists_chunks (c.chunkSize_pos rows.columns.length) hne
  have hlast : last.length = 1 := by
    rw [hlength] at hmod
    exact (mod_eq_one_iff hsize hle).1 hmod
  refine ⟨init, last, hchunks, ?_, hlast, fun chunk hchunk => ?_⟩
  · rintro rfl
    rw [List.length_nil, Nat.zero_mul] at hlength
    omega
  · have := hinit chunk hchunk
    omega

/-- A single record beside a chunk of another length is left over. -/
theorem leavesOne_of_mem (hne : rows.rows ≠ []) {chunk chunk' : List (List Json)}
    (hchunk : chunk ∈ c.chunked rows) (hone : chunk.length = 1)
    (hchunk' : chunk' ∈ c.chunked rows) (hother : chunk'.length ≠ 1) : c.LeavesOne rows := by
  have hsize := c.chunkSize_pos rows.columns.length
  obtain ⟨init, last, hchunks, hinit, hpos, hle, hlength⟩ := exists_chunks hsize hne
  rw [chunked, hchunks, List.mem_append, List.mem_singleton] at hchunk hchunk'
  have htwo : 2 ≤ c.chunkSize rows.columns.length := by
    rcases hchunk' with hchunk' | rfl
    · have := hinit chunk' hchunk'
      omega
    · omega
  -- All chunks but the last have the full size, which is at least two.
  obtain rfl : chunk = last := by
    refine hchunk.resolve_left fun hmem => ?_
    have := hinit chunk hmem
    omega
  have hmem : chunk' ∈ init := hchunk'.resolve_right fun h => hother (h ▸ hone)
  have hcount := Nat.mul_le_mul_right (c.chunkSize rows.columns.length)
    (List.length_pos_of_mem hmem)
  refine ⟨htwo, by omega, ?_⟩
  rw [hlength]
  exact (mod_eq_one_iff htwo hle).2 hone

/-- **When the chunks of an upsert differ:** a single record is left over, and it is merged. -/
theorem differs_iff (hne : rows.rows ≠ []) :
    c.Differs rows spec ↔ MergesAlone c.dialect spec rows.columns ∧ c.LeavesOne rows := by
  constructor
  · rintro ⟨chunk, hchunk, chunk', hchunk', hdiffers⟩
    have hmerges : MergesAlone c.dialect spec rows.columns := by
      by_contra hnot
      exact hdiffers (Strategy.choose_of_not_mergesAlone hnot _ _)
    obtain ⟨first, -, hchoose⟩ := Strategy.choose_of_mergesAlone hmerges
    rw [strategyOf, strategyOf, hchoose, hchoose] at hdiffers
    refine ⟨hmerges, ?_⟩
    -- The choice sees only whether a chunk is a single record, so one of the two is and the other
    -- is not.
    by_cases hone : chunk.length = 1
    · refine leavesOne_of_mem hne hchunk hone hchunk' fun hone' => hdiffers ?_
      rw [if_pos hone, if_pos hone']
    · refine leavesOne_of_mem hne hchunk' ?_ hchunk hone
      by_contra hone'
      exact hdiffers (by rw [if_neg hone, if_neg hone'])
  · rintro ⟨hmerges, hleaves⟩
    obtain ⟨init, last, hchunks, hinit, hlast, hothers⟩ := exists_chunked_of_leavesOne hne hleaves
    obtain ⟨first, -, hchoose⟩ := Strategy.choose_of_mergesAlone hmerges
    obtain ⟨chunk, hchunk⟩ := List.exists_mem_of_ne_nil init hinit
    refine ⟨last, by simp [hchunks], chunk, by simp [hchunks, hchunk], ?_⟩
    rw [strategyOf, strategyOf, hchoose, hchoose, if_pos hlast, if_neg (hothers chunk hchunk)]
    exact nofun

/-- **The strategies of an upsert, chunk by chunk.**  The statement of a chunk is written for its
strategy, and its text reads back: a clause for each target, and for a merge the groups of its
condition before.  What a strategy names is declared.  Two chunks differ exactly when the dialect
writes inside a `WITH` and has no several clauses, two constraints are declared and one of them is
covered, and a single record is left over behind full chunks of several: this record is merged, and
the chunks before it have one clause, for the first constraint. -/
theorem strategies_of_upsert {input : Json} (hrows : RowSet.ofJson input = .ok rows)
    {declared : Json} (hspec : ConstraintSpec.ofJson declared = .ok spec) {table : String}
    {plan : WritePlan} (hplan : c.upsert table rows spec = .ok plan) :
    (∃ t, TableName.resolve table c.options.schema = .ok t ∧
      List.Forall₂ (fun chunk s =>
          s = c.writeStatement (c.upsertPieces t.pieces rows.columns chunk
            (updateColumns rows.columns spec) (c.strategyOf rows spec chunk)) ∧
          (c.dialect.Bundled → c.CastsQuiet → setClauses? s.sql =
            some ((c.strategyOf rows spec chunk).setClauses (updateColumns rows.columns spec))) ∧
          (c.strategyOf rows spec chunk).Declared spec rows.columns)
        (c.chunked rows) plan.statements) ∧
    (c.Differs rows spec ↔ MergesAlone c.dialect spec rows.columns ∧ c.LeavesOne rows) ∧
    (c.Differs rows spec → ∃ init last first, c.chunked rows = init ++ [last] ∧
      last.length = 1 ∧
      c.strategyOf rows spec last = .merge (Strategy.covered spec rows.columns) ∧
      spec.firstTarget? = some first ∧
      ∀ chunk ∈ init, c.strategyOf rows spec chunk = .onConflict first) := by
  have hcolumns := RowSet.columns_ne_nil hrows
  have hgroups := ConstraintSpec.group_ne_nil hspec
  have hne := RowSet.rows_ne_nil hrows
  refine ⟨?_, differs_iff hne, fun hdiffers => ?_⟩
  · obtain ⟨t, ht⟩ := exists_resolve_of_upsert hplan
    obtain ⟨-, rfl⟩ := (upsert_yields ht rows spec).eq_of_ok hplan
    refine ⟨t, ht, List.forall₂_map_right_iff.2 (List.forall₂_same.2 fun chunk _ => ?_)⟩
    refine ⟨rfl, fun hd hcasts => ?_, Strategy.declared_choose hgroups _⟩
    exact setClauses?_upsertPieces hd hcasts t rows.columns chunk
      (updateColumns_ne_nil hcolumns spec) (Strategy.choose_ne_merge_nil _ _ _ _)
      fun group hgroup => hgroups group (strategyGroups_choose_subset _ _ _ _ hgroup)
  · obtain ⟨hmerges, hleaves⟩ := (differs_iff hne).1 hdiffers
    obtain ⟨init, last, hchunks, -, hlast, hothers⟩ := exists_chunked_of_leavesOne hne hleaves
    obtain ⟨first, hfirst, hchoose⟩ := Strategy.choose_of_mergesAlone hmerges
    refine ⟨init, last, first, hchunks, hlast, ?_, hfirst, fun chunk hchunk => ?_⟩
    · rw [strategyOf, hchoose, if_pos hlast]
    · rw [strategyOf, hchoose, if_neg (hothers chunk hchunk)]

/-- Three records in chunks of two: the last one is merged, the others have one clause. -/
theorem strategies_of_upsert_left_over :
    ∃ rows spec plan,
      RowSet.ofJson (.arr [.obj [("id", .int 1), ("email", .str "a")],
        .obj [("id", .int 2), ("email", .str "b")],
        .obj [("id", .int 3), ("email", .str "c")]]) = .ok rows ∧
      ConstraintSpec.ofJson (.arr [.str "id", .str "email"]) = .ok spec ∧
      (ofDialect .postgres { batchSize := 2 }).upsert "user" rows spec = .ok plan ∧
      (ofDialect .postgres { batchSize := 2 }).Differs rows spec ∧
      ((ofDialect .postgres { batchSize := 2 }).chunked rows).map
          ((ofDialect .postgres { batchSize := 2 }).strategyOf rows spec) =
        [.onConflict ["id"], .merge [["id"], ["email"]]] := by
  have hrows : RowSet.ofJson (.arr [.obj [("id", .int 1), ("email", .str "a")],
      .obj [("id", .int 2), ("email", .str "b")], .obj [("id", .int 3), ("email", .str "c")]]) =
      .ok ⟨["id", "email"], [[.int 1, .str "a"], [.int 2, .str "b"], [.int 3, .str "c"]]⟩ := rfl
  have hspec : ConstraintSpec.ofJson (.arr [.str "id", .str "email"]) =
      .ok ⟨[.simple "id", .simple "email"]⟩ := rfl
  have ht : TableName.resolve "user" (ofDialect .postgres { batchSize := 2 }).options.schema =
      .ok ⟨none, "user"⟩ := rfl
  have hchunked : (ofDialect .postgres { batchSize := 2 }).chunked
      ⟨["id", "email"], [[.int 1, .str "a"], [.int 2, .str "b"], [.int 3, .str "c"]]⟩ =
        [[[.int 1, .str "a"], [.int 2, .str "b"]], [[.int 3, .str "c"]]] := by
    have hsize : (ofDialect .postgres { batchSize := 2 }).chunkSize ["id", "email"].length = 2 := by
      decide
    rw [chunked, hsize]
    simp [chunks]
  have hplan := (upsert_yields ht
    ⟨["id", "email"], [[.int 1, .str "a"], [.int 2, .str "b"], [.int 3, .str "c"]]⟩
    ⟨[.simple "id", .simple "email"]⟩ _).2 ⟨by rw [hchunked]; decide, rfl⟩
  obtain ⟨-, hdiffers, -⟩ := strategies_of_upsert hrows hspec hplan
  refine ⟨_, _, _, hrows, hspec, hplan, hdiffers.2 ⟨⟨rfl, rfl, ?_, ?_⟩, ?_⟩, ?_⟩
  · decide
  · decide
  · exact ⟨by decide, by decide, by decide⟩
  · rw [hchunked]
    decide

end Compiler
end Querysmith
