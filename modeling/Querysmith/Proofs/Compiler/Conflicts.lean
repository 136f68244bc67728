/-
# Upserts beside inserts

An upsert writes the records of an insert and says besides what a conflict does.  Where nothing is
declared there is nothing to say, and the two operations are one, down to the error of a bad name:
an insert quotes its columns once and an upsert for every chunk, but a row set always has a chunk
(`upsert_eq_insert`).  Where something is declared, a statement that is no merge is the one of the
insert with the conflict clauses between its tuples and ` RETURNING *` (`Adds`).
-/

import Querysmith.Proofs.Compiler.Batches
import Querysmith.Proofs.Compiler.Selection

namespace Querysmith

/-! ### Texts of joined fragments -/

/-- Joining texts is the library's own. -/
theorem Text.joinWith_eq_intercalate (sep : String) (ss : List String) :
    joinWith sep ss = sep.intercalate ss := by
  cases ss with
  | nil => rfl
  | cons s rest =>
    rw [joinWith, String.intercalate]
    induction rest generalizing s with
    | nil => rfl
    | cons t rest ih => exact ih _

namespace Fragment

/-- **Joined fragments that bind nothing are written as joined texts.** -/
theorem sql_joined {fs : List Fragment} (h : ∀ f ∈ fs, values f = []) (d : Dialect)
    (sep : String) (bound : Nat) :
    sql d bound (joined sep fs) = Text.joinWith sep (fs.map (sql d bound)) := by
  rw [Text.joinWith_eq_intercalate]
  induction fs with
  | nil => rfl
  | cons f fs ih =>
    rw [List.forall_mem_cons] at h
    cases fs with
    | nil => simp [joined]
    | cons g fs =>
      rw [joined_cons_cons, sql_append, h.1, List.length_nil, Nat.add_zero, sql_text_cons,
        ih h.2, List.map_cons, List.map_cons, List.map_cons, String.intercalate_cons_cons,
        String.append_assoc]

end Fragment

/-- A list of names is written as quoted names with commas between them. -/
theorem Identifier.sql_listPieces (d : Dialect) (bound : Nat) (names : List String) :
    Fragment.sql d bound (listPieces names) =
      Text.joinWith ", " (names.map d.quoteIdentifier) := by
  have hname : ∀ name, Fragment.sql d bound [.name name] = d.quoteIdentifier name := fun name => by
    rw [Fragment.sql_name_cons, Fragment.sql_nil, String.append_empty]
  rw [listPieces, Fragment.sql_joined (by simp), List.map_map]
  exact congrArg _ (List.map_congr_left fun name _ => hname name)

/-- The list of what a conflict sets: every column to the value of the record. -/
def setText (d : Dialect) (updates : List String) : String :=
  Text.joinWith ", " (updates.map fun column =>
    d.quoteIdentifier column ++ " = EXCLUDED." ++ d.quoteIdentifier column)

/-- One clause for each target, and in each of them the same list. -/
def conflictText (d : Dialect) (targets : List (List String)) (updates : List String) : String :=
  String.join (targets.map fun target =>
    " ON CONFLICT (" ++ Text.joinWith ", " (target.map d.quoteIdentifier) ++ ") DO UPDATE SET " ++
      setText d updates)

/-- Assignments are written as the `SET` list of a conflict clause. -/
theorem sql_assignmentPieces (d : Dialect) (bound : Nat) (updates : List String) :
    Fragment.sql d bound (assignmentPieces "EXCLUDED" updates) = setText d updates := by
  have hcolumn : ∀ column, Fragment.sql d bound
      [.name column, .text (" = " ++ "EXCLUDED" ++ "."), .name column] =
        d.quoteIdentifier column ++ " = EXCLUDED." ++ d.quoteIdentifier column := fun column => by
    have hset : " = " ++ "EXCLUDED" ++ "." = " = EXCLUDED." := by decide
    rw [Fragment.sql_name_cons, Fragment.sql_text_cons, Fragment.sql_name_cons, Fragment.sql_nil,
      String.append_empty, hset, String.append_assoc]
  rw [assignmentPieces, Fragment.sql_joined (by simp), List.map_map]
  exact congrArg _ (List.map_congr_left fun column _ => hcolumn column)

/-- The clauses are written alike wherever they stand. -/
theorem sql_conflictPieces (d : Dialect) (bound : Nat) (targets : List (List String))
    (updates : List String) :
    Fragment.sql d bound (conflictPieces targets updates) = conflictText d targets updates := by
  induction targets with
  | nil => rfl
  | cons target targets ih =>
    have hclause : conflictPieces (target :: targets) updates =
        .text " ON CONFLICT (" :: (Identifier.listPieces target ++ .text ") DO UPDATE SET " ::
          (assignmentPieces "EXCLUDED" updates ++ conflictPieces targets updates)) := by
      simp [conflictPieces]
    rw [hclause, Fragment.sql_text_cons, Fragment.sql_append, Compiler.values_listPieces,
      List.length_nil, Nat.add_zero, Fragment.sql_text_cons, Fragment.sql_append,
      values_assignmentPieces, List.length_nil, Nat.add_zero, Identifier.sql_listPieces,
      sql_assignmentPieces, ih, conflictText, conflictText, List.map_cons, String.join_cons]
    simp only [String.append_assoc]

/-! ### Nothing is declared -/

namespace Compiler

variable {c : Compiler} {table : String} {rows : RowSet} {spec : ConstraintSpec}

/-- Records fill at least one chunk. -/
theorem chunked_ne_nil (c : Compiler) (hne : rows.rows ≠ []) : c.chunked rows ≠ [] := fun hnil =>
  hne (by rw [← c.flatten_chunked rows, hnil, List.flatten_nil])

/-- **An upsert on nothing is an insert,** with the same plan or the same error. -/
theorem upsert_eq_insert (c : Compiler) (table : String) (hne : rows.rows ≠ [])
    (hspec : spec.entries = []) : c.upsert table rows spec = c.insert table rows := by
  have hplain : ∀ n, Strategy.choose c.dialect spec n rows.columns = .plain := by
    obtain ⟨entries⟩ := spec
    obtain rfl : entries = [] := hspec
    exact fun n => rfl
  rw [upsert, upsertChunks, insert, bind_assoc]
  cases c.table table with
  | error e => rfl
  | ok t =>
    -- The columns are quoted for every chunk, and with the same outcome each time.
    have hchunks := mapM_bind_pure (Identifier.listFragment rows.columns)
      (fun columnList chunk => c.writeStatement
        (c.insertFragment t columnList rows.columns chunk [])) (c.chunked_ne_nil hne)
    have hchunk : ∀ chunk, (c.upsertFragment t rows.columns chunk
        (updateColumns rows.columns spec) .plain).map c.writeStatement =
          (do return c.writeStatement (c.insertFragment t
            (← Identifier.listFragment rows.columns) rows.columns chunk [])) := by
      intro chunk
      simp only [upsertFragment]
      cases Identifier.listFragment rows.columns <;> rfl
    simp only [ok_bind, pure_bind, hplain, List.mapM_map, Function.comp_def, hchunk, hchunks]
    simp only [bind_assoc, pure_bind]

/-! ### Something is declared -/

/-- What a statement says to get the written rows. -/
def returningText (d : Dialect) : String := if d.returning then " RETURNING *" else ""

/-- The statement of an insert up to its last tuple. -/
def valuesText (c : Compiler) (source : Fragment) (columns : List String)
    (chunk : List (List Json)) : String :=
  "INSERT INTO " ++ source.sql c.dialect 0 ++ " (" ++
    Text.joinWith ", " (columns.map c.dialect.quoteIdentifier) ++ ") VALUES " ++
      (c.tuples columns chunk).sql c.dialect 0

/-- **The statement of an insert with the conflict clauses on some targets.**  They stand between
the tuples and what is returned, and nothing else differs. -/
structure Adds (c : Compiler) (table : String) (columns : List String) (chunk : List (List Json))
    (targets : List (List String)) (updates : List String) (inserted upserted : Statement) :
    Prop where
  params : upserted.params = inserted.params
  returnsRows : upserted.returnsRows = inserted.returnsRows
  sql : ∃ source, c.table table = .ok source ∧
    inserted.sql = c.valuesText source columns chunk ++ returningText c.dialect ∧
    upserted.sql = c.valuesText source columns chunk ++
      conflictText c.dialect targets updates ++ returningText c.dialect

/-- **The text of an insert is its tuples, its conflict clauses and what it returns,** in this
order. -/
theorem sql_insertFragment (c : Compiler) (t : TableName) (columns : List String)
    (chunk : List (List Json)) (targets : List (List String)) (updates : List String) :
    (c.insertFragment t.pieces (Identifier.listPieces columns) columns chunk
      (conflictPieces targets updates)).sql c.dialect 0 =
        c.valuesText t.pieces columns chunk ++ conflictText c.dialect targets updates ++
          returningText c.dialect := by
  have hreturning : ∀ bound, c.returning.sql c.dialect bound = returningText c.dialect := by
    intro bound
    rw [returning, returningText]
    split <;> rfl
  have hpieces : c.insertFragment t.pieces (Identifier.listPieces columns) columns chunk
      (conflictPieces targets updates) =
        .text "INSERT INTO " :: (t.pieces ++ .text " (" :: (Identifier.listPieces columns ++
          .text ") VALUES " :: (c.tuples columns chunk ++
            (conflictPieces targets updates ++ c.returning)))) := by
    simp [insertFragment]
  rw [hpieces, Fragment.sql_text_cons, Fragment.sql_append, Fragment.sql_text_cons,
    Fragment.sql_append, Fragment.sql_text_cons, Fragment.sql_append, Fragment.sql_append,
    hreturning, sql_conflictPieces, Identifier.sql_listPieces, values_pieces, values_listPieces]
  unfold valuesText
  simp only [List.length_nil, Nat.add_zero, String.append_assoc]

/-- What a conflict sets are columns of the records, in their order. -/
theorem updateColumns_sublist (columns : List String) (spec : ConstraintSpec) :
    (updateColumns columns spec).Sublist columns := by
  obtain ⟨-, h⟩ | ⟨-, h⟩ := updateColumns_cases columns spec <;> rw [h]
  · exact List.filter_sublist
  · exact List.take_sublist 1 columns

/-- A strategy that is no merge adds its clauses. -/
theorem adds_upsertPieces {t : TableName} (htable : c.table table = .ok t.pieces)
    (columns : List String) (chunk : List (List Json)) (updates : List String)
    {strategy : Strategy} (hmerge : ∀ groups, strategy ≠ .merge groups) :
    c.Adds table columns chunk strategy.targets updates
      (c.writeStatement
        (c.insertFragment t.pieces (Identifier.listPieces columns) columns chunk []))
      (c.writeStatement (c.upsertPieces t.pieces columns chunk updates strategy)) := by
  have hupsert : c.upsertPieces t.pieces columns chunk updates strategy =
      c.insertFragment t.pieces (Identifier.listPieces columns) columns chunk
        (conflictPieces strategy.targets updates) := by
    cases strategy with
    | merge groups => exact absurd rfl (hmerge groups)
    | plain | onConflict _ | chained _ => rfl
  have hplain : c.insertFragment t.pieces (Identifier.listPieces columns) columns chunk [] =
      c.insertFragment t.pieces (Identifier.listPieces columns) columns chunk
        (conflictPieces [] updates) := rfl
  rw [hupsert, hplain]
  refine ⟨?_, rfl, _, htable, ?_, ?_⟩ <;> simp only [writeStatement, Statement.ofFragment]
  · rw [values_insertFragment, values_insertFragment]
  · rw [sql_insertFragment]
    exact congrArg (· ++ _) (String.append_empty)
  · exact c.sql_insertFragment t columns chunk strategy.targets updates

/-- **An upsert is an insert that resolves conflicts.**  Where nothing is declared the two are one.
Otherwise they have the same records and a statement for each chunk, and one that is no merge binds
the values of the insert and adds a clause for each target of its strategy; all clauses set the same
columns of the records, at least one of them, in their order. -/
theorem upsert_refines_insert {input : Json} (hrows : RowSet.ofJson input = .ok rows)
    (c : Compiler) (table : String) :
    (∀ spec : ConstraintSpec, spec.entries = [] →
      c.upsert table rows spec = c.insert table rows) ∧
    ∀ (spec : ConstraintSpec) (inserted upserted : WritePlan),
      c.insert table rows = .ok inserted → c.upsert table rows spec = .ok upserted →
      upserted.rows = inserted.rows ∧
      upserted.statements.length = inserted.statements.length ∧
      ∃ updates : List String, updates ≠ [] ∧ updates.Sublist rows.columns ∧
        (rows.columns.Nodup → updates.Nodup) ∧
        List.Forall₂ (fun chunk pair =>
            (∀ groups, c.strategyOf rows spec chunk ≠ .merge groups) →
            c.Adds table rows.columns chunk (c.strategyOf rows spec chunk).targets updates
              pair.1 pair.2)
          (c.chunked rows) (inserted.statements.zip upserted.statements) := by
  refine ⟨fun spec => c.upsert_eq_insert table (RowSet.rows_ne_nil hrows), ?_⟩
  intro spec inserted upserted hinsert hupsert
  obtain ⟨t, ht⟩ := exists_resolve_of_ok hinsert
  obtain ⟨husable, rfl⟩ := (insert_yields ht rows).eq_of_ok hinsert
  obtain ⟨-, rfl⟩ := (upsert_yields ht rows spec).eq_of_ok hupsert
  have htable : c.table table = .ok t.pieces :=
    (table_yields ht _).2 ⟨((allUsable_append _ _).1 husable).1, rfl⟩
  have hsublist := updateColumns_sublist rows.columns spec
  refine ⟨rfl, by rw [List.length_map, List.length_map], updateColumns rows.columns spec,
    updateColumns_ne_nil (RowSet.columns_ne_nil hrows) spec, hsublist, hsublist.nodup, ?_⟩
  rw [List.zip_map', List.forall₂_map_right_iff, List.forall₂_same]
  exact fun chunk _ => adds_upsertPieces htable rows.columns chunk _

/-- One record and a constraint on each of its columns: two clauses, which set the first column. -/
theorem upsert_refines_insert_chained :
    ∃ rows inserted upserted s u,
      RowSet.ofJson (.obj [("email", .str "new@x.io"), ("username", .null)]) = .ok rows ∧
      (ofDialect .sqlite).insert "user" rows = .ok inserted ∧ inserted.statements = [s] ∧
      (ofDialect .sqlite).upsert "user" rows ⟨[.simple "email", .simple "username"]⟩ =
        .ok upserted ∧ upserted.statements = [u] ∧
      s.sql = "INSERT INTO \"user\" (\"email\", \"username\") VALUES (?1, NULL) RETURNING *" ∧
      u.sql = "INSERT INTO \"user\" (\"email\", \"username\") VALUES (?1, NULL)" ++
        " ON CONFLICT (\"email\") DO UPDATE SET \"email\" = EXCLUDED.\"email\"" ++
        " ON CONFLICT (\"username\") DO UPDATE SET \"email\" = EXCLUDED.\"email\" RETURNING *" ∧
      u.params = s.params ∧
      (ofDialect .sqlite).upsert "user" rows ⟨[]⟩ = .ok inserted := by
  have hrows : RowSet.ofJson (.obj [("email", .str "new@x.io"), ("username", .null)]) =
      .ok ⟨["email", "username"], [[.str "new@x.io", .null]]⟩ := rfl
  have hchunked : (ofDialect .sqlite).chunked
      ⟨["email", "username"], [[.str "new@x.io", .null]]⟩ = [[[.str "new@x.io", .null]]] :=
    chunks_of_length_le (List.cons_ne_nil _ _) (by decide)
  have ht : TableName.resolve "user" (ofDialect .sqlite).options.schema = .ok ⟨none, "user"⟩ := by
    rfl
  have hinsert := (insert_yields ht ⟨["email", "username"], [[.str "new@x.io", .null]]⟩ _).2
    ⟨by decide, rfl⟩
  have hupsert := (upsert_yields ht ⟨["email", "username"], [[.str "new@x.io", .null]]⟩
    ⟨[.simple "email", .simple "username"]⟩ _).2 ⟨by rw [hchunked]; decide, rfl⟩
  obtain ⟨hsame, hrefines⟩ := upsert_refines_insert hrows (ofDialect .sqlite) "user"
  obtain ⟨-, -, updates, -, -, -, hadds⟩ := hrefines _ _ _ hinsert hupsert
  rw [hchunked] at hinsert hupsert hadds
  have hparams := ((List.forall₂_cons.1 hadds).1 nofun).params
  exact ⟨_, _, _, _, _, hrows, hinsert, rfl, hupsert, rfl, by decide +kernel, by decide +kernel,
    hparams, (hsame ⟨[]⟩ rfl).trans hinsert⟩

end Compiler
end Querysmith
