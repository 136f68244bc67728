/-
# What an upsert overwrites

The columns that an upsert sets in a row that is there already, read from the text of its
statements (`Sql.Reader.setClauses?`).  They are chosen once, as the columns that no constraint
names, and stand in every clause, so a constrained column is set in one case only: when there is no
other column, and then it is the first one.  A row that was found by another constraint loses the
value of that column (`setClauses_of_upsert`).
-/

import Querysmith.Proofs.Compiler.Closed
import Querysmith.Proofs.Compiler.Rows
import Querysmith.Proofs.Sql.Lexing
import Querysmith.Proofs.Sql.SetClause

namespace Querysmith

open Fragment (render tokens)
open Sql Sql.Reader

/-- The tokens of a piece begin no clause. -/
def Piece.IsQuiet (d : Dialect) : Piece → Prop
  | .text s => ∀ t ∈ Token.ofPlain s.toList, isQuiet t = true
  | .name _ => True
  | .hole _ cast => ∀ t ∈ Token.ofPlain (d.castText cast), isQuiet t = true

variable {d : Dialect}

/-- A text is quiet when its tokens are. -/
theorem Piece.isQuiet_text {s : String} (h : (Token.ofPlain s.toList).all isQuiet = true) :
    (Piece.text s).IsQuiet d :=
  List.all_eq_true.1 h

namespace Fragment

/-- The tokens of quiet pieces are quiet. -/
theorem isQuiet_tokens {f : Fragment} (h : ∀ p ∈ f, p.IsQuiet d) (bound : Nat) :
    ∀ t ∈ tokens d bound f, isQuiet t = true := by
  induction f generalizing bound with
  | nil => simp [render]
  | cons p f ih =>
    rw [List.forall_mem_cons] at h
    cases p with
    | text s => exact List.forall_mem_append.2 ⟨h.1, ih h.2 bound⟩
    | name s => exact List.forall_mem_cons.2 ⟨rfl, ih h.2 bound⟩
    | hole v cast =>
      exact List.forall_mem_append.2 ⟨List.forall_mem_cons.2 ⟨rfl, h.1⟩, ih h.2 (bound + 1)⟩

/-- Joined fragments are quiet when they and the separator are. -/
theorem isQuiet_joined {sep : String} (hsep : (Piece.text sep).IsQuiet d) {fs : List Fragment}
    (h : ∀ f ∈ fs, ∀ p ∈ f, p.IsQuiet d) : ∀ p ∈ joined sep fs, p.IsQuiet d := by
  intro p hp
  obtain rfl | ⟨f, hf, hp⟩ := mem_joined hp
  · exact hsep
  · exact h f hf p hp

end Fragment

/-- Names with commas between them are quiet. -/
theorem isQuiet_listPieces (names : List String) :
    ∀ p ∈ Identifier.listPieces names, p.IsQuiet d := by
  refine Fragment.isQuiet_joined (Piece.isQuiet_text rfl) ?_
  rw [List.forall_mem_map]
  intro name _ p hp
  obtain rfl := List.mem_singleton.1 hp
  trivial

/-- A table is quiet. -/
theorem TableName.isQuiet_pieces (t : TableName) : ∀ p ∈ t.pieces, p.IsQuiet d := by
  obtain ⟨schema, name⟩ := t
  cases schema with
  | none => simp [pieces, Piece.IsQuiet]
  | some schema =>
    have hdot : (Piece.text ".").IsQuiet d := Piece.isQuiet_text rfl
    simpa [pieces, Piece.IsQuiet] using hdot

/-! ### The tokens of the clauses -/

/-- A list of names is read as names with commas between them. -/
theorem tokens_listPieces (names : List String) (bound : Nat) :
    tokens d bound (Identifier.listPieces names) = nameTokens names := by
  have hname : ∀ (name : String) (n : Nat),
      render (Token.rendering d) n [.name name] = [.name name] := fun _ _ => rfl
  rw [Identifier.listPieces, tokens, Fragment.render_joined, Fragment.renderList_map_const hname]
  rfl

/-- Assignments are read as such, one for each column. -/
theorem tokens_assignmentPieces {source : String} (hsource : IsNew source) (columns : List String)
    (bound : Nat) :
    tokens d bound (assignmentPieces source columns) = setTokens source columns := by
  have hown : ∀ (column : String) (n : Nat), render (Token.rendering d) n
      [.name column, .text (" = " ++ source ++ "."), .name column] = ownTokens source column := by
    intro column n
    rcases hsource with rfl | rfl <;> rfl
  rw [assignmentPieces, tokens, Fragment.render_joined, Fragment.renderList_map_const hown]
  rfl

/-- The condition of a merge is read as groups with `OR` between them. -/
theorem tokens_matchPieces (groups : List (List String)) (bound : Nat) :
    tokens d bound (matchPieces groups) = [.word "OR"].intercalate (groups.map groupTokens) := by
  -- The count does not matter, since the condition binds nothing.
  have hcolumn : ∀ (column : String) (n : Nat), render (Token.rendering d) n
      [.text "target.", .name column, .text " = source_data.", .name column] =
        .word "target" :: .sign "." :: ownTokens "source_data" column := fun _ _ => rfl
  have hgroup : ∀ (group : List String) (n : Nat), render (Token.rendering d) n
      (.text "(" :: Fragment.joined " AND " (group.map fun column =>
        [.text "target.", .name column, .text " = source_data.", .name column]) ++ [.text ")"]) =
          groupTokens group := by
    intro group n
    rw [List.cons_append, render, Fragment.render_append, Fragment.render_joined,
      Fragment.renderList_map_const hcolumn]
    rfl
  rw [matchPieces, tokens, Fragment.render_joined, Fragment.renderList_map_const hgroup]
  rfl

/-- Conflict clauses are read one after another. -/
theorem tokens_conflictPieces (targets : List (List String)) (updates : List String)
    (bound : Nat) :
    tokens d bound (conflictPieces targets updates) =
      targets.flatMap (conflictTokens updates) := by
  induction targets generalizing bound with
  | nil => rfl
  | cons target targets ih =>
    have hcons : conflictPieces (target :: targets) updates =
        (.text " ON CONFLICT (" :: Identifier.listPieces target ++
          .text ") DO UPDATE SET " :: assignmentPieces "EXCLUDED" updates) ++
            conflictPieces targets updates := rfl
    rw [hcons, Fragment.tokens_append, ih, List.cons_append, Fragment.tokens_text,
      Fragment.tokens_append, Fragment.tokens_text, tokens_listPieces,
      tokens_assignmentPieces (.inl rfl)]
    rfl

/-- The clauses of a chunk, all of which set the same columns. -/
def Strategy.setClauses (updates : List String) : Strategy → List SetClause
  | .merge groups => [⟨groups, updates⟩, ⟨[groups.headD []], updates⟩]
  | strategy => strategy.targets.map fun target => ⟨[target], updates⟩

namespace Compiler

/-- The targets of the casts are plain and begin no clause. -/
def CastsQuiet (c : Compiler) : Prop :=
  ∀ target ∈ c.castTargets, isPlain target = true ∧
    ∀ t ∈ Token.ofPlain target.toList, isQuiet t = true

variable {c : Compiler}

/-- A placeholder with a cast of the compiler is quiet. -/
theorem isQuiet_hole (hcasts : c.CastsQuiet) (v : SqlValue) {cast : Option String}
    (h : ∀ target ∈ cast, target ∈ c.castTargets) : (Piece.hole v cast).IsQuiet c.dialect := by
  have hempty : ∀ t ∈ Token.ofPlain [], isQuiet t = true := by decide
  rw [Piece.IsQuiet]
  cases cast with
  | none => exact hempty
  | some target =>
    obtain ⟨hplain, hquiet⟩ := hcasts target (h target rfl)
    rw [Dialect.castText]
    split
    · rw [Token.ofPlain_cast (List.all_eq_true.1 hplain), List.forall_mem_cons]
      exact ⟨rfl, hquiet⟩
    · exact hempty

/-- A cell is quiet: it is `NULL` or a placeholder. -/
theorem isQuiet_cell (hcasts : c.CastsQuiet) (column : String) (v : Json) :
    ∀ p ∈ c.cell column v, p.IsQuiet c.dialect := by
  rw [cell]
  split
  · rw [List.forall_mem_singleton]
    exact Piece.isQuiet_text rfl
  · rw [List.forall_mem_singleton]
    exact isQuiet_hole hcasts _ (c.castFor_mem column _)

/-- Tuples are quiet. -/
theorem isQuiet_tuples (hcasts : c.CastsQuiet) (columns : List String)
    (chunk : List (List Json)) : ∀ p ∈ c.tuples columns chunk, p.IsQuiet c.dialect := by
  refine Fragment.isQuiet_joined (Piece.isQuiet_text rfl) ?_
  rw [List.forall_mem_map]
  intro row _
  rw [tuple, List.forall_mem_append, List.forall_mem_cons, List.forall_mem_singleton]
  refine ⟨⟨Piece.isQuiet_text rfl, Fragment.isQuiet_joined (Piece.isQuiet_text rfl) ?_⟩,
    Piece.isQuiet_text rfl⟩
  intro f hf
  rw [← List.map_uncurry_zip_eq_zipWith, List.mem_map] at hf
  obtain ⟨⟨column, v⟩, -, rfl⟩ := hf
  exact isQuiet_cell hcasts column v

/-- At the end of an insert stands what it returns, or nothing. -/
theorem tokens_returning (c : Compiler) (bound : Nat) :
    tokens c.dialect bound c.returning = [] ∨
      tokens c.dialect bound c.returning = [.word "RETURNING", .sign "*"] := by
  rw [returning]
  split
  · exact .inr rfl
  · exact .inl rfl

/-- **The clauses of an insert read back,** one for each target. -/
theorem setClausesFrom_insertFragment (hcasts : c.CastsQuiet) (t : TableName)
    (columns : List String) (chunk : List (List Json)) {targets : List (List String)}
    {updates : List String} (htargets : ∀ target ∈ targets, target ≠ []) (hupdates : updates ≠ [])
    {fuel : Nat} (hfuel : (tokens c.dialect 0 (c.insertFragment t.pieces
      (Identifier.listPieces columns) columns chunk (conflictPieces targets updates))).length ≤
        fuel) :
    setClausesFrom fuel none (tokens c.dialect 0 (c.insertFragment t.pieces
      (Identifier.listPieces columns) columns chunk (conflictPieces targets updates))) =
        some (targets.map fun target => ⟨[target], updates⟩) := by
  have hbefore : ∀ p ∈ .text "INSERT INTO " :: t.pieces ++
      .text " (" :: Identifier.listPieces columns ++
        .text ") VALUES " :: c.tuples columns chunk, p.IsQuiet c.dialect := by
    simp only [List.forall_mem_append, List.forall_mem_cons]
    exact ⟨⟨⟨Piece.isQuiet_text rfl, t.isQuiet_pieces⟩, Piece.isQuiet_text rfl,
      isQuiet_listPieces columns⟩, Piece.isQuiet_text rfl, isQuiet_tuples hcasts columns chunk⟩
  rw [insertFragment, Fragment.tokens_append, Fragment.tokens_append,
    tokens_conflictPieces] at hfuel ⊢
  simp only [List.length_append] at hfuel
  rw [List.append_assoc, setClausesFrom_quiet (Fragment.isQuiet_tokens hbefore 0)]
  refine setClausesFrom_conflicts htargets hupdates (by omega) ?_ ?_ ?_ none
  all_goals
    rcases c.tokens_returning _ with h | h <;> rw [h] <;> decide

/-- A merge up to its update. -/
def mergeHead (c : Compiler) (table : Fragment) (columns : List String) (row : List Json) :
    Fragment :=
  .text "WITH source_data AS (SELECT " :: Identifier.listPieces columns ++
    .text " FROM json_populate_record(NULL::" :: table ++
    .text ", " :: .hole (.text (c.sourceRecord columns row).text) (some "json") ::
    .text ")), updated AS (UPDATE " :: table

/-- What the update of a merge sets, and where. -/
def mergeUpdate (groups : List (List String)) (updates : List String) : Fragment :=
  .text " AS target SET " :: assignmentPieces "source_data" updates ++
    .text " FROM source_data WHERE " :: matchPieces groups

/-- The insert of a merge up to its conflict clause. -/
def mergeInsert (table : Fragment) (columns : List String) : Fragment :=
  .text " RETURNING target.*), inserted AS (INSERT INTO " :: table ++
    .text " (" :: Identifier.listPieces columns ++
    .text ") SELECT " :: Identifier.listPieces columns ++
    [.text " FROM source_data WHERE NOT EXISTS (SELECT 1 FROM updated)"]

/-- The end of a merge. -/
def mergeTail : Fragment :=
  [.text " RETURNING *) SELECT * FROM updated UNION ALL SELECT * FROM inserted"]

/-- **A merge has five parts:** its head, the update, the insert, the conflict clause of that
insert, and the end. -/
theorem mergePieces_eq (c : Compiler) (table : Fragment) (columns : List String)
    (row : List Json) (groups : List (List String)) (updates : List String) :
    c.mergePieces table columns row groups updates =
      c.mergeHead table columns row ++ (mergeUpdate groups updates ++
        (mergeInsert table columns ++ (conflictPieces [groups.headD []] updates ++
          mergeTail))) := by
  simp [mergePieces, mergeHead, mergeUpdate, mergeInsert, mergeTail]

/-- The head of a merge is quiet. -/
theorem isQuiet_mergeHead (hcasts : c.CastsQuiet) (t : TableName) (columns : List String)
    (row : List Json) : ∀ p ∈ c.mergeHead t.pieces columns row, p.IsQuiet c.dialect := by
  have hcast : ∀ target ∈ some "json", target ∈ c.castTargets := by
    simp [castTargets]
  simp only [mergeHead, List.forall_mem_append, List.forall_mem_cons]
  exact ⟨⟨⟨Piece.isQuiet_text rfl, isQuiet_listPieces columns⟩, Piece.isQuiet_text rfl,
    t.isQuiet_pieces⟩, Piece.isQuiet_text rfl, isQuiet_hole hcasts _ hcast,
      Piece.isQuiet_text rfl, t.isQuiet_pieces⟩

/-- The insert of a merge is quiet. -/
theorem isQuiet_mergeInsert (t : TableName) (columns : List String) :
    ∀ p ∈ mergeInsert t.pieces columns, p.IsQuiet d := by
  simp only [mergeInsert, List.forall_mem_append, List.forall_mem_cons]
  exact ⟨⟨⟨⟨Piece.isQuiet_text rfl, t.isQuiet_pieces⟩, Piece.isQuiet_text rfl,
    isQuiet_listPieces columns⟩, Piece.isQuiet_text rfl, isQuiet_listPieces columns⟩,
      Piece.isQuiet_text rfl, by simp⟩

/-- The update of a merge is read as the condition and the assignments behind it. -/
theorem tokens_mergeUpdate (groups : List (List String)) (updates : List String) (bound : Nat) :
    tokens d bound (mergeUpdate groups updates) =
      .word "AS" :: .word "target" :: mergeTokens groups updates := by
  rw [mergeUpdate, List.cons_append, Fragment.tokens_text, Fragment.tokens_append,
    Fragment.tokens_text, tokens_assignmentPieces (.inr rfl), tokens_matchPieces]
  rfl

/-- The tokens of a merge: the clause of its update and that of its insert, and no other. -/
theorem exists_tokens_mergePieces (hcasts : c.CastsQuiet) (t : TableName)
    (columns : List String) (row : List Json) (groups : List (List String))
    (updates : List String) :
    ∃ before between after, (∀ t ∈ before, isQuiet t = true) ∧
      (∀ t ∈ Token.word "RETURNING" :: between, isQuiet t = true) ∧
      (∀ t ∈ Token.word "RETURNING" :: after, isQuiet t = true) ∧
      tokens c.dialect 0 (c.mergePieces t.pieces columns row groups updates) =
        before ++ (mergeTokens groups updates ++ (.word "RETURNING" :: between ++
          ([groups.headD []].flatMap (conflictTokens updates) ++
            .word "RETURNING" :: after))) := by
  have hupdate : ∀ t ∈ [Token.word "AS", .word "target"], isQuiet t = true := by decide
  have htail : ∀ p ∈ mergeTail, p.IsQuiet c.dialect :=
    List.forall_mem_singleton.2 (Piece.isQuiet_text rfl)
  -- The pieces of a merge stand behind each other, each with its own numbers to count from; only
  -- the clauses between them matter.
  obtain ⟨n, m, hsplit⟩ : ∃ n m, tokens c.dialect 0
      (c.mergePieces t.pieces columns row groups updates) =
        tokens c.dialect 0 (c.mergeHead t.pieces columns row) ++
          (.word "AS" :: .word "target" :: mergeTokens groups updates ++
            (tokens c.dialect n (mergeInsert t.pieces columns) ++
              ([groups.headD []].flatMap (conflictTokens updates) ++
                tokens c.dialect m mergeTail))) := by
    rw [mergePieces_eq, Fragment.tokens_append, Fragment.tokens_append, Fragment.tokens_append,
      Fragment.tokens_append, tokens_mergeUpdate, tokens_conflictPieces]
    exact ⟨_, _, rfl⟩
  obtain ⟨between, hbetween⟩ : ∃ between,
      tokens c.dialect n (mergeInsert t.pieces columns) = .word "RETURNING" :: between := ⟨_, rfl⟩
  obtain ⟨after, hafter⟩ : ∃ after,
      tokens c.dialect m mergeTail = .word "RETURNING" :: after := ⟨_, rfl⟩
  refine ⟨tokens c.dialect 0 (c.mergeHead t.pieces columns row) ++ [.word "AS", .word "target"],
    between, after, ?_, ?_, ?_, ?_⟩
  · exact List.forall_mem_append.2
      ⟨Fragment.isQuiet_tokens (isQuiet_mergeHead hcasts t columns row) 0, hupdate⟩
  · rw [← hbetween]
    exact Fragment.isQuiet_tokens (isQuiet_mergeInsert t columns) n
  · rw [← hafter]
    exact Fragment.isQuiet_tokens htail m
  · rw [hsplit, hbetween, hafter]
    simp

/-- **The clauses of a merge read back,** that of its update and that of its insert. -/
theorem setClausesFrom_mergePieces (hcasts : c.CastsQuiet) (t : TableName)
    (columns : List String) (row : List Json) {groups : List (List String)}
    {updates : List String} (hne : groups ≠ []) (hgroups : ∀ group ∈ groups, group ≠ [])
    (hupdates : updates ≠ []) {fuel : Nat}
    (hfuel : (tokens c.dialect 0 (c.mergePieces t.pieces columns row groups updates)).length ≤
      fuel) :
    setClausesFrom fuel none
      (tokens c.dialect 0 (c.mergePieces t.pieces columns row groups updates)) =
        some (Strategy.setClauses updates (.merge groups)) := by
  have hfirst : ∀ target ∈ [groups.headD []], target ≠ [] := by
    rw [List.forall_mem_singleton]
    cases groups with
    | nil => exact absurd rfl hne
    | cons group groups => exact hgroups group List.mem_cons_self
  obtain ⟨before, between, after, hbefore, hbetween, hafter, htokens⟩ :=
    exists_tokens_mergePieces hcasts t columns row groups updates
  rw [htokens] at hfuel ⊢
  simp only [List.length_append] at hfuel
  rw [setClausesFrom_quiet hbefore, setClausesFrom_merge hne hgroups hupdates (by omega) rfl,
    setClausesFrom_quiet hbetween,
    setClausesFrom_conflicts hfirst hupdates (by omega) hafter rfl rfl]
  rfl

/-- **The clauses of a chunk read back** from the text of its statement. -/
theorem setClauses?_upsertPieces (hd : c.dialect.Bundled) (hcasts : c.CastsQuiet) (t : TableName)
    (columns : List String) (chunk : List (List Json)) {updates : List String}
    (hupdates : updates ≠ []) {strategy : Strategy} (hmerge : strategy ≠ .merge [])
    (hgroups : ∀ group ∈ strategyGroups strategy, group ≠ []) :
    setClauses? ((c.upsertPieces t.pieces columns chunk updates strategy).sql c.dialect 0) =
      some (strategy.setClauses updates) := by
  have htokens := Fragment.tokens_sql hd
    (c.upsertPieces_legible t columns chunk updates strategy)
    (fun target htarget => (hcasts target htarget).1) 0
  rw [setClauses?, htokens, Option.bind_eq_bind, Option.bind_some]
  cases strategy with
  | merge groups =>
    have hne : groups ≠ [] := fun hnil => hmerge (congrArg Strategy.merge hnil)
    exact setClausesFrom_mergePieces hcasts t columns _ hne hgroups hupdates (Nat.le_refl _)
  | plain =>
    exact setClausesFrom_insertFragment hcasts t columns chunk hgroups hupdates (Nat.le_refl _)
  | onConflict target =>
    exact setClausesFrom_insertFragment hcasts t columns chunk hgroups hupdates (Nat.le_refl _)
  | chained groups =>
    exact setClausesFrom_insertFragment hcasts t columns chunk hgroups hupdates (Nat.le_refl _)

end Compiler

/-! ### What is overwritten -/

/-- A constraint that was read has a column. -/
theorem Constraint.columns_ne_nil {v : Json} {constraint : Constraint}
    (h : ofJson v = .ok constraint) : constraint.columns ≠ [] := by
  have hchecked : ∀ read, checked read = .ok constraint → constraint.columns ≠ [] := by
    intro read hread
    rw [checked] at hread
    split at hread
    · cases hread
    · split at hread
      · cases hread
      · rename_i hempty
        obtain rfl := Except.ok.inj hread
        simpa using hempty
  cases v with
  | str column => exact hchecked _ h
  | obj fields => exact hchecked _ h
  | arr columns =>
    obtain ⟨read, -, h⟩ := exists_of_bind_eq_ok h
    exact hchecked _ h
  | null | bool _ | int _ | float _ => cases h

/-- No group of a spec that was read is empty. -/
theorem ConstraintSpec.group_ne_nil {declared : Json} {spec : ConstraintSpec}
    (h : ofJson declared = .ok spec) : ∀ group ∈ spec.groups, group ≠ [] := by
  -- Every way to declare constraints goes through reading one, which refuses an empty list.
  have hentries : ∀ entry ∈ spec.entries, entry.columns ≠ [] := by
    cases declared with
    | null =>
      obtain rfl := Except.ok.inj h
      exact fun _ hentry => absurd hentry List.not_mem_nil
    | str column =>
      obtain ⟨entry, hentry, h⟩ := exists_of_bind_eq_ok h
      obtain rfl := Except.ok.inj h
      exact List.forall_mem_singleton.2 (Constraint.columns_ne_nil hentry)
    | arr entries =>
      obtain ⟨read, hread, h⟩ := exists_of_bind_eq_ok h
      obtain rfl := Except.ok.inj h
      intro entry hentry
      obtain ⟨v, -, hv⟩ := exists_of_mem_mapM hread hentry
      exact Constraint.columns_ne_nil hv
    | bool _ | int _ | float _ | obj _ => cases h
  intro group hgroup
  rcases List.mem_append.1 hgroup with hgroup | hgroup
  · -- The composite constraints come first, then the simple ones.
    obtain ⟨entry, hentry, hview⟩ := List.mem_filterMap.1 hgroup
    cases entry with
    | simple column => cases hview
    | composite columns =>
      obtain rfl := Option.some.inj hview
      exact hentries _ hentry
  · obtain ⟨column, -, rfl⟩ := List.mem_map.1 hgroup
    exact List.cons_ne_nil _ _

/-- Records that were read have a column. -/
theorem RowSet.columns_ne_nil {input : Json} {rows : RowSet} (h : ofJson input = .ok rows) :
    rows.columns ≠ [] := by
  obtain ⟨records, hinput⟩ := exists_recordsOf h
  rw [ofJson_eq hinput] at h
  exact (ofRecords_eq h).2.2.1

/-- A merge has groups. -/
theorem Strategy.choose_ne_merge_nil (d : Dialect) (spec : ConstraintSpec) (rows : Nat)
    (columns : List String) : choose d spec rows columns ≠ .merge [] := by
  rw [choose]
  cases spec.firstTarget? with
  | none => simp
  | some first =>
    simp only
    split
    · simp
    · split
      · simp
      · split
        · rename_i hmerge
          exact fun h => hmerge.2.2 (Strategy.merge.inj h)
        · simp

/-- The columns that no constraint names are overwritten, or else the first one. -/
theorem updateColumns_cases (columns : List String) (spec : ConstraintSpec) :
    ((∃ column ∈ columns, column ∉ spec.columns) ∧
      updateColumns columns spec = columns.filter (!spec.columns.contains ·)) ∨
    ((∀ column ∈ columns, column ∈ spec.columns) ∧
      updateColumns columns spec = columns.take 1) := by
  rw [updateColumns]
  cases h : columns.filter (!spec.columns.contains ·) with
  | nil =>
    refine .inr ⟨fun column hcolumn => ?_, rfl⟩
    have hconstrained := List.filter_eq_nil_iff.1 h column hcolumn
    simpa using hconstrained
  | cons column remaining =>
    have hmem : column ∈ columns.filter (!spec.columns.contains ·) := h ▸ List.mem_cons_self
    obtain ⟨hcolumn, hfree⟩ := List.mem_filter.1 hmem
    exact .inl ⟨⟨column, hcolumn, by simpa using hfree⟩, rfl⟩

/-- **There is always a column to set:** where constraints take all of them the first one stays. -/
theorem updateColumns_ne_nil {columns : List String} (hne : columns ≠ []) (spec : ConstraintSpec) :
    updateColumns columns spec ≠ [] := by
  obtain ⟨⟨column, hcolumn, hfree⟩, h⟩ | ⟨-, h⟩ := updateColumns_cases columns spec
  · rw [h]
    exact List.ne_nil_of_mem (List.mem_filter.2 ⟨hcolumn, by simpa using hfree⟩)
  · rw [h]
    simpa using hne

/-- Every column is constrained or overwritten. -/
theorem mem_columns_or_mem_updateColumns {columns : List String} {column : String}
    (hcolumn : column ∈ columns) (spec : ConstraintSpec) :
    column ∈ spec.columns ∨ column ∈ updateColumns columns spec := by
  refine or_iff_not_imp_left.2 fun hfree => ?_
  obtain ⟨-, h⟩ | ⟨hall, -⟩ := updateColumns_cases columns spec
  · rw [h]
    exact List.mem_filter.2 ⟨hcolumn, by simpa using hfree⟩
  · exact absurd (hall column hcolumn) hfree

/-- A constrained column is overwritten when it is the first column and no column is without a
constraint. -/
theorem constrained_of_mem_updateColumns {columns : List String} {spec : ConstraintSpec}
    {column : String} (h : column ∈ updateColumns columns spec) (hspec : column ∈ spec.columns) :
    columns.head? = some column ∧ ∀ other ∈ columns, other ∈ spec.columns := by
  obtain ⟨-, heq⟩ | ⟨hall, heq⟩ := updateColumns_cases columns spec
  · rw [heq] at h
    have hfree := (List.mem_filter.1 h).2
    simp [hspec] at hfree
  · refine ⟨?_, hall⟩
    rw [heq] at h
    cases columns with
    | nil => cases h
    | cons first columns =>
      obtain rfl : column = first := by simpa using h
      rfl

namespace Strategy

/-- Every clause of a strategy sets the same columns. -/
theorem columns_of_mem_setClauses {updates : List String} {strategy : Strategy}
    {clause : SetClause} (h : clause ∈ strategy.setClauses updates) : clause.columns = updates := by
  cases strategy with
  | merge groups =>
    rcases List.mem_cons.1 h with rfl | h
    · rfl
    · obtain rfl := List.mem_singleton.1 h
      rfl
  | plain => cases h
  | onConflict target =>
    obtain rfl := List.mem_singleton.1 h
    rfl
  | chained groups =>
    obtain ⟨target, -, rfl⟩ := List.mem_map.1 h
    rfl

/-- The rows are found by the groups of the strategy. -/
theorem exists_mem_setClauses {updates group : List String} {strategy : Strategy}
    (hmerge : strategy ≠ .merge []) :
    (∃ clause ∈ strategy.setClauses updates, group ∈ clause.groups) ↔
      group ∈ Compiler.strategyGroups strategy := by
  have hchain : ∀ targets : List (List String),
      (∃ clause ∈ targets.map fun target => (⟨[target], updates⟩ : SetClause),
        group ∈ clause.groups) ↔ group ∈ targets := by
    intro targets
    simp
  cases strategy with
  | merge groups =>
    cases groups with
    | nil => exact absurd rfl hmerge
    | cons first groups =>
      simpa [setClauses, Compiler.strategyGroups] using fun h => .inl h
  | plain => exact hchain []
  | onConflict target => exact hchain [target]
  | chained groups => exact hchain groups

/-- The clauses keep the constrained columns when these are in every group if they are set. -/
theorem keeps_setClauses {constrained updates : List String} {strategy : Strategy}
    (hmerge : strategy ≠ .merge []) :
    (∀ clause ∈ strategy.setClauses updates, clause.Keeps constrained) ↔
      ∀ column ∈ updates, column ∈ constrained →
        ∀ group ∈ Compiler.strategyGroups strategy, column ∈ group := by
  constructor
  · intro hkeeps column hcolumn hconstrained group hgroup
    obtain ⟨clause, hclause, hmem⟩ :
        ∃ clause ∈ strategy.setClauses updates, group ∈ clause.groups :=
      (exists_mem_setClauses hmerge).2 hgroup
    rw [← columns_of_mem_setClauses hclause] at hcolumn
    rcases hkeeps clause hclause column hcolumn with hfree | hall
    · exact absurd hconstrained hfree
    · exact hall group hmem
  · intro hgroups clause hclause column hcolumn
    rw [columns_of_mem_setClauses hclause] at hcolumn
    refine or_iff_not_imp_left.2 fun hconstrained group hmem => ?_
    exact hgroups column hcolumn (not_not.1 hconstrained) group
      ((exists_mem_setClauses hmerge).1 ⟨clause, hclause, hmem⟩)

end Strategy

namespace Compiler

/-- **An upsert overwrites a constrained column only for want of another one.**  The `SET` clauses
of every statement read back, and they find rows by the groups of its strategy.  A constrained
column is set when it is the first column of records whose columns all are constrained, and then it
stands in the clause behind every group, so it keeps its value in the row that was found exactly
when every group holds it. -/
theorem setClauses_of_upsert {c : Compiler} (hd : c.dialect.Bundled)
    (hcasts : ∀ rule ∈ c.casts.rules, isPlain rule.target = true ∧
      ∀ t ∈ Token.ofPlain rule.target.toList, isQuiet t = true)
    {input : Json} {rows : RowSet} (hrows : RowSet.ofJson input = .ok rows)
    {declared : Json} {spec : ConstraintSpec} (hspec : ConstraintSpec.ofJson declared = .ok spec)
    {table : String} {plan : WritePlan} (hplan : c.upsert table rows spec = .ok plan) :
    List.Forall₂ (fun chunk s => ∃ clauses, setClauses? s.sql = some clauses ∧
        (∀ group, (∃ clause ∈ clauses, group ∈ clause.groups) ↔
          group ∈ strategyGroups (c.strategyOf rows spec chunk)) ∧
        (∀ clause ∈ clauses, ∀ column ∈ clause.columns, column ∈ spec.columns →
          rows.columns.head? = some column ∧ ∀ other ∈ rows.columns, other ∈ spec.columns) ∧
        ((∀ clause ∈ clauses, clause.Keeps spec.columns) ↔
          (∃ column ∈ rows.columns, column ∉ spec.columns) ∨
            ∀ group ∈ strategyGroups (c.strategyOf rows spec chunk),
              ∀ first ∈ rows.columns.head?, first ∈ group))
      (c.chunked rows) plan.statements := by
  have hquiet : c.CastsQuiet := by
    rw [CastsQuiet, castTargets, List.forall_mem_cons, List.forall_mem_map]
    exact ⟨by decide, hcasts⟩
  have hcolumns := RowSet.columns_ne_nil hrows
  have hgroups := ConstraintSpec.group_ne_nil hspec
  obtain ⟨t, ht⟩ := exists_resolve_of_upsert hplan
  obtain ⟨-, rfl⟩ := (upsert_yields ht rows spec).eq_of_ok hplan
  refine List.forall₂_map_right_iff.2 (List.forall₂_same.2 fun chunk _ => ?_)
  have hmerge : c.strategyOf rows spec chunk ≠ .merge [] := Strategy.choose_ne_merge_nil _ _ _ _
  have hread := setClauses?_upsertPieces hd hquiet t rows.columns chunk
    (updateColumns_ne_nil hcolumns spec) hmerge
    fun group hgroup => hgroups group (strategyGroups_choose_subset _ _ _ _ hgroup)
  refine ⟨_, hread, fun group => Strategy.exists_mem_setClauses hmerge, ?_, ?_⟩
  · intro clause hclause column hcolumn hconstrained
    rw [Strategy.columns_of_mem_setClauses hclause] at hcolumn
    exact constrained_of_mem_updateColumns hcolumn hconstrained
  · rw [Strategy.keeps_setClauses hmerge]
    -- Either some column is free to be set, and no constrained one is; or the first column is set
    -- for want of another one.
    obtain ⟨hfree, heq⟩ | ⟨hall, heq⟩ := updateColumns_cases rows.columns spec
    · refine iff_of_true ?_ (.inl hfree)
      intro column hcolumn hconstrained
      obtain ⟨other, hother, hnot⟩ := hfree
      exact absurd ((constrained_of_mem_updateColumns hcolumn hconstrained).2 other hother) hnot
    · -- Here every clause sets the first column alone, and it is constrained.
      have hnone : ¬∃ column ∈ rows.columns, column ∉ spec.columns := by
        rintro ⟨column, hmem, hnot⟩
        exact hnot (hall column hmem)
      rw [or_iff_right hnone, heq]
      cases hfirst : rows.columns with
      | nil => exact absurd hfirst hcolumns
      | cons first others =>
        have hconstrained : first ∈ spec.columns := hall first (hfirst ▸ List.mem_cons_self)
        simp [hconstrained]

/-- One record and a constraint on each of its columns: the row with that username is found by the
second clause, which sets its email. -/
theorem setClauses_of_upsert_constrained :
    ∃ rows spec plan s clauses,
      RowSet.ofJson (.obj [("email", .str "new@x.io"), ("username", .str "ann")]) = .ok rows ∧
      ConstraintSpec.ofJson (.arr [.str "email", .str "username"]) = .ok spec ∧
      (ofDialect .sqlite).upsert "user" rows spec = .ok plan ∧ plan.statements = [s] ∧
      s.sql = "INSERT INTO \"user\" (\"email\", \"username\") VALUES (?1, ?2)" ++
        " ON CONFLICT (\"email\") DO UPDATE SET \"email\" = EXCLUDED.\"email\"" ++
        " ON CONFLICT (\"username\") DO UPDATE SET \"email\" = EXCLUDED.\"email\" RETURNING *" ∧
      setClauses? s.sql = some clauses ∧
      clauses = [⟨[["email"]], ["email"]⟩, ⟨[["username"]], ["email"]⟩] ∧
      ¬∀ clause ∈ clauses, clause.Keeps spec.columns := by
  have hrows : RowSet.ofJson (.obj [("email", .str "new@x.io"), ("username", .str "ann")]) =
      .ok ⟨["email", "username"], [[.str "new@x.io", .str "ann"]]⟩ := rfl
  have hspec : ConstraintSpec.ofJson (.arr [.str "email", .str "username"]) =
      .ok ⟨[.simple "email", .simple "username"]⟩ := rfl
  have hchunked : (ofDialect .sqlite).chunked
      ⟨["email", "username"], [[.str "new@x.io", .str "ann"]]⟩ =
        [[[.str "new@x.io", .str "ann"]]] :=
    chunks_of_length_le (List.cons_ne_nil _ _) (by decide)
  have ht : TableName.resolve "user" (ofDialect .sqlite).options.schema = .ok ⟨none, "user"⟩ := by
    rfl
  have hplan := (upsert_yields ht ⟨["email", "username"], [[.str "new@x.io", .str "ann"]]⟩
    ⟨[.simple "email", .simple "username"]⟩ _).2 ⟨by rw [hchunked]; decide, rfl⟩
  have hclauses := setClauses_of_upsert .sqlite (by decide) hrows hspec hplan
  rw [hchunked] at hplan hclauses
  obtain ⟨clauses, hread, -, -, hkeeps⟩ := (List.forall₂_cons.1 hclauses).1
  refine ⟨_, _, _, _, clauses, hrows, hspec, hplan, rfl, by decide +kernel, hread, ?_, ?_⟩
  · exact Option.some.inj (hread.symm.trans (by decide +kernel))
  · rw [hkeeps]
    decide

end Compiler
end Querysmith
