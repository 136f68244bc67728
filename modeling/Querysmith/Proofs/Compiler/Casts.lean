/-
# Casts agree with the values that they stand at

The cast of a placeholder is chosen by the kind of the value before it is bound, and by its column;
what is bound comes from the same value by another conversion.  For the casts of PostgreSQL the two
agree (`castFits_castFor`): a boolean is cast to `boolean`, a text that is bound for a document to
`jsonb`, and an integer of a column of ids to `bigint`, while an integer beyond 64 bits is bound as
its digits and has that cast too, so that the database converts it.  The placeholders of a write are
read from its text, each with the value of its number (`Statement.writes?`), and the agreement holds
for every one of them (`casts_fit`).
-/

import Querysmith.Proofs.Compiler.Binding
import Querysmith.Proofs.Pattern

namespace Querysmith

open Sql
open Sql.Symbol (chars)

open Fragment (symbols renderList)

/-! ### Reading what is written -/

/-- What an insert writes by its text and the values that are bound to it, whatever conflict clauses
follow its tuples. -/
def Statement.writes? (s : Statement) : Option Insertion := do
  let ss ← Symbol.read? s.sql.toList
  match ← Insertion.groups? ss with
  | [] => none
  | (columns, after) :: parts =>
    guard ((chars "INSERT INTO ".toList).isPrefixOf ss)
    guard (after = chars " VALUES ".toList)
    return ⟨← (Insertion.items columns).mapM Insertion.name?,
      ← ((parts.take (Insertion.run parts)).map (·.1)).mapM (Insertion.tuple? s.params)⟩

/-- The parts that follow each other like tuples are those in front of the clauses. -/
theorem Sql.Insertion.take_run_spaced {after : List Symbol} (hafter : after ≠ chars ", ".toList)
    {parts : List (List Symbol)} (hne : parts ≠ []) (clauses : List (List Symbol × List Symbol)) :
    (spaced after parts ++ clauses).take (run (spaced after parts ++ clauses)) =
      spaced after parts := by
  have hlength : (spaced after parts).length = parts.length := by
    rw [← List.length_map (·.1), map_fst_spaced]
  rw [run_spaced hafter hne, ← hlength, List.take_left]

/-- An insert reads back from its parts, whatever follows the tuples. -/
theorem Statement.writes?_eq {sql : String} {params : List SqlValue} {returnsRows : Bool}
    {ss columnList after : List Symbol} {parts : List (List Symbol)}
    {clauses : List (List Symbol × List Symbol)} {columns : List String}
    {tuples : List (List Written)} (hread : Symbol.read? sql.toList = some ss)
    (hhead : (chars "INSERT INTO ".toList).isPrefixOf ss = true)
    (hgroups : Insertion.groups? ss = some ((columnList, chars " VALUES ".toList) ::
      (Insertion.spaced after parts ++ clauses)))
    (hafter : after ≠ chars ", ".toList) (hne : parts ≠ [])
    (hnames : (Insertion.items columnList).mapM Insertion.name? = some columns)
    (htuples : parts.mapM (Insertion.tuple? params) = some tuples) :
    writes? ⟨sql, params, returnsRows⟩ = some ⟨columns, tuples⟩ := by
  rw [writes?, hread]
  simp only [Option.bind_eq_bind, Option.bind_some, hgroups, guard, if_pos hhead, if_true,
    Insertion.take_run_spaced hafter hne, Insertion.map_fst_spaced, hnames, htuples]
  rfl

/-- Every row has a value for every column. -/
theorem RowSet.length_of_mem_rows {input : Json} {rows : RowSet} (h : ofJson input = .ok rows)
    {row : List Json} (hrow : row ∈ rows.rows) : row.length = rows.columns.length := by
  obtain ⟨records, hrecords⟩ := exists_recordsOf h
  rw [ofJson_eq hrecords] at h
  obtain ⟨-, -, -, hrows⟩ := ofRecords_eq h
  rw [hrows] at hrow
  obtain ⟨record, -, rfl⟩ := List.mem_map.1 hrow
  rw [Record.cells]
  split
  · rename_i heq
    rw [← eq_of_beq heq, List.length_map, List.length_map]
  · rw [List.length_map]

namespace Compiler

variable {c : Compiler}

/-- **An insert writes the cells of its records,** whatever its conflict clauses. -/
theorem writes?_insertFragment (hd : c.dialect.Bundled)
    (hcasts : ∀ ch ∈ ['"', '(', ')', ','], c.CastsAvoid ch) (t : TableName) {columns : List String}
    (hcolumns : columns ≠ []) {chunk : List (List Json)} (hchunk : chunk ≠ [])
    (hrows : ∀ row ∈ chunk, row.length = columns.length) (targets : List (List String))
    (updates : List String) :
    (c.writeStatement (c.insertFragment t.pieces (Identifier.listPieces columns) columns chunk
      (conflictPieces targets updates))).writes? =
        some ⟨columns, chunk.map (List.zipWith c.cellWritten columns)⟩ := by
  have hread := Fragment.symbols_sql hd
    (c.insertFragment_legible t columns chunk targets updates) (hcasts '"' (by decide)) 0
  have hparentheses : ∀ ch ∈ ['(', ')'], c.CastsAvoid ch :=
    List.forall_mem_cons.2 ⟨hcasts '(' (by decide),
      List.forall_mem_singleton.2 (hcasts ')' (by decide))⟩
  obtain ⟨after, clauses, hafter, hgroups⟩ :=
    exists_groups?_insertFragment hd hparentheses t columns hchunk targets updates
  have hne : renderList (Symbol.rendering c.dialect) 0 (chunk.map (c.cells columns)) ≠ [] :=
    Fragment.renderList_ne_nil (by simpa using hchunk) 0
  refine Statement.writes?_eq hread (c.isPrefixOf_symbols t columns hchunk _) hgroups hafter hne
    (mapM_name?_listPieces hcolumns) ?_
  rw [values_insertFragment, values_tuples]
  exact mapM_tuple?_cells hd (hcasts ',' (by decide)) hcolumns hrows

end Compiler

/-! ### Casts and values -/

/-- **A cast agrees with the value that it stands at,** in a column. -/
inductive CastFits (column : String) : SqlValue → Option String → Prop
  | bigint (i : Int) : CastFits column (.int i) (some "bigint")
  /-- An integer that 64 bits do not hold is bound as its digits. -/
  | digits {i : Int} (h : i < SqlValue.minInt ∨ SqlValue.maxInt < i) :
      CastFits column (.text (Text.ofInt i)) (some "bigint")
  | boolean (b : Bool) : CastFits column (.bool b) (some "boolean")
  | jsonb (s : String) : CastFits column (.text s) (some "jsonb")
  | bare {v : SqlValue} (hbool : ∀ b, v ≠ .bool b)
      (hint : isIdColumn column = true → ∀ i, v ≠ .int i) : CastFits column v none

/-- A cell is `NULL`, or a value with a cast that fits; a dialect without casts has none there. -/
def Sql.Written.Fits (d : Dialect) (column : String) : Written → Prop
  | .null => True
  | .value v cast => if d.typeCasts then CastFits column v cast else cast = none

/-- The value that is bound for a cell. -/
def Sql.Written.bound? : Written → Option SqlValue
  | .null => none
  | .value v _ => some v

namespace CastRegistry

/-- **The casts of PostgreSQL:** documents first, then integers of columns of ids, then booleans. -/
theorem castFor_postgres (column : String) (v : Json) :
    postgres.castFor column v =
      if v.isDocument then some "jsonb"
      else if v.kind = .integer ∧ isIdColumn column = true then some "bigint"
      else if v.kind = .boolean then some "boolean"
      else none := by
  have hjsonb : CastRule.applies { target := "jsonb", detector := some Json.isDocument } column v =
      v.isDocument := by
    cases v <;> simp [CastRule.applies, Json.kind, Json.isDocument]
  have hbigint : CastRule.applies
      { target := "bigint", patterns := idPatterns, kinds := [.integer] } column v =
        decide (v.kind = .integer ∧ isIdColumn column = true) := by
    have hpatterns : idPatterns ≠ [] := List.cons_ne_nil _ _
    cases v <;> simp [CastRule.applies, Json.kind, hpatterns, any_idPatterns]
  have hboolean : CastRule.applies { target := "boolean", kinds := [.boolean] } column v =
      decide (v.kind = .boolean) := by
    cases v <;> simp [CastRule.applies, Json.kind]
  rw [castFor, postgres, List.find?_cons, hjsonb, List.find?_cons, hbigint, List.find?_cons,
    hboolean]
  grind

end CastRegistry

/-- An integer of a column of ids is a `bigint`, whatever is bound for it. -/
theorem castFits_int (column : String) (i : Int) :
    CastFits column (.ofJson (.int i))
      (if isIdColumn column = true then some "bigint" else none) := by
  rw [SqlValue.ofJson]
  split
  · split
    · exact .bigint i
    · exact .bare (by simp) fun hid => absurd hid ‹_›
  · split
    · exact .digits (by omega)
    · exact .bare (by simp) (by simp)

/-- **The cast of a value fits what is bound for it.** -/
theorem castFits_castFor (column : String) {v : Json} (hv : v ≠ .null) :
    CastFits column (.ofJson v) (CastRegistry.postgres.castFor column v) := by
  rw [CastRegistry.castFor_postgres]
  cases v with
  | null => exact absurd rfl hv
  | bool b => exact .boolean b
  | int i => simpa [Json.isDocument, Json.kind] using castFits_int column i
  | float x => exact .bare (by simp [SqlValue.ofJson]) (by simp [SqlValue.ofJson])
  | str s =>
    have hkind : ¬((Json.str s).kind = .integer ∧ isIdColumn column = true) := by
      simp [Json.kind]
    rw [SqlValue.ofJson, if_neg hkind]
    split
    · exact .jsonb s
    · exact .bare (by simp) (by simp)
  | arr _ | obj _ => exact .jsonb _

namespace Compiler

variable {c : Compiler}

/-- The casts of PostgreSQL are words. -/
theorem castsAvoid_of_postgres (hcasts : c.casts = .postgres) :
    ∀ ch ∈ ['"', '(', ')', ','], c.CastsAvoid ch := by
  have htargets : c.castTargets = ["json", "jsonb", "bigint", "boolean"] := by
    rw [castTargets, hcasts]
    rfl
  have hwords : ∀ ch ∈ ['"', '(', ')', ','],
      ∀ target ∈ ["json", "jsonb", "bigint", "boolean"], ch ∉ target.toList :=
    forall_mem_of_all (by decide)
  intro ch hch
  rw [CastsAvoid, htargets]
  exact hwords ch hch

/-- **The cast of a written cell fits its value.** -/
theorem cellWritten_fits (hcasts : c.casts = .postgres) (column : String) (v : Json) :
    (c.cellWritten column v).Fits c.dialect column := by
  rw [cellWritten]
  split
  · trivial
  · rename_i hnormal
    rw [Written.Fits, hcasts]
    split
    · exact castFits_castFor column hnormal
    · rfl

/-- Every cell of a tuple fits its column. -/
theorem cellsWritten_fit (hcasts : c.casts = .postgres) {columns : List String} {row : List Json}
    (hlength : row.length = columns.length) :
    List.Forall₂ (Written.Fits c.dialect) columns (List.zipWith c.cellWritten columns row) := by
  induction columns generalizing row with
  | nil => exact .nil
  | cons column columns ih =>
    cases row with
    | nil => cases hlength
    | cons v row => exact .cons (cellWritten_fits hcasts column v) (ih (Nat.succ.inj hlength))

/-- What a written cell binds is what the compiler binds for it. -/
theorem bound?_cellWritten (c : Compiler) (column : String) (v : Json) :
    (c.cellWritten column v).bound? = c.boundValue? column v := by
  rw [cellWritten, boundValue?]
  generalize c.normalizer.normalize column v = normal
  cases normal <;> rfl

/-- The bound values of tuples are those that their records bind. -/
theorem filterMap_cellWritten (c : Compiler) (columns : List String)
    (records : List (List Json)) :
    (records.map (List.zipWith c.cellWritten columns)).flatten.filterMap Written.bound? =
      (cellsOf columns records).filterMap fun cell => c.boundValue? cell.1 cell.2 := by
  have hrow : ∀ row, (List.zipWith c.cellWritten columns row).filterMap Written.bound? =
      (columns.zip row).filterMap fun cell => c.boundValue? cell.1 cell.2 := by
    intro row
    rw [← List.map_uncurry_zip_eq_zipWith, List.filterMap_map]
    exact congrArg (List.filterMap · _) (funext fun cell => c.bound?_cellWritten cell.1 cell.2)
  rw [← List.flatMap_def, List.filterMap_flatMap, cellsOf, List.filterMap_flatMap]
  exact congrArg (List.flatMap · records) (funext hrow)

/-- **The casts of a statement for records fit.** -/
inductive CastsFit (c : Compiler) (spec : Option ConstraintSpec) (columns : List String)
    (records : List (List Json)) (s : Statement) : Prop
  /-- An insert, perhaps with conflict clauses, has a tuple for each record.  Every bound value
  stands in a cell, and every cell has a cast that fits. -/
  | cells {insertion : Insertion} (hread : s.writes? = some insertion)
      (hcolumns : insertion.columns = columns)
      (hlength : insertion.tuples.length = records.length)
      (hparams : s.params = insertion.tuples.flatten.filterMap Written.bound?)
      (hfits : ∀ tuple ∈ insertion.tuples,
        List.Forall₂ (Written.Fits c.dialect) columns tuple)
  /-- A merge of a single record. -/
  | merge (hspec : spec ≠ none) (hlength : records.length = 1)
      (htext : Text.startsWith s.sql "WITH source_data AS " = true)

/-- The casts of an insert are read from its text, and each fits the value of its cell. -/
theorem castsFit_insertFragment (hd : c.dialect.Bundled) (hcasts : c.casts = .postgres)
    (t : TableName) (spec : Option ConstraintSpec) {columns : List String}
    (hcolumns : columns ≠ []) {records : List (List Json)} (hrecords : records ≠ [])
    (hrows : ∀ row ∈ records, row.length = columns.length) (targets : List (List String))
    (updates : List String) :
    c.CastsFit spec columns records (c.writeStatement (c.insertFragment t.pieces
      (Identifier.listPieces columns) columns records (conflictPieces targets updates))) := by
  refine .cells (writes?_insertFragment hd (castsAvoid_of_postgres hcasts) t hcolumns hrecords
    hrows targets updates) rfl (List.length_map _) ?_ ?_
  · rw [filterMap_cellWritten, ← values_tuples_eq, writeStatement, Statement.ofFragment,
      values_insertFragment]
  · rw [List.forall_mem_map]
    exact fun row hrow => cellsWritten_fit hcasts (hrows row hrow)

/-- The casts of a batch fit, whether it is an insert or a merge. -/
theorem castsFit_batchStatement (hd : c.dialect.Bundled) (hcasts : c.casts = .postgres)
    (t : TableName) (spec : Option ConstraintSpec) {columns : List String}
    (hcolumns : columns ≠ []) {records : List (List Json)} (hrecords : records ≠ [])
    (hrows : ∀ row ∈ records, row.length = columns.length) :
    c.CastsFit spec columns records (c.batchStatement t spec columns records) := by
  cases spec with
  | none => exact castsFit_insertFragment hd hcasts t none hcolumns hrecords hrows [] []
  | some spec =>
    rcases c.batchStatement_cases t (some spec) columns records with
      ⟨targets, updates, h⟩ | ⟨hone, groups, updates, h⟩
    · rw [h]
      exact castsFit_insertFragment hd hcasts t (some spec) hcolumns hrecords hrows targets updates
    · rw [h]
      exact .merge (Option.some_ne_none spec) hone
        (c.startsWith_writeStatement "WITH source_data AS " "(SELECT " _)

/-- **Every cast of a write agrees with the value that it stands at.** -/
theorem casts_fit (hd : c.dialect.Bundled) (hcasts : c.casts = .postgres) {input : Json}
    {rows : RowSet} (hrows : RowSet.ofJson input = .ok rows) {table : String}
    {spec : Option ConstraintSpec} {plan : WritePlan}
    (hplan : c.writing table spec rows = .ok plan) :
    List.Forall₂ (c.CastsFit spec rows.columns) (c.chunked rows) plan.statements := by
  obtain ⟨t, hstatements, -⟩ := exists_batchStatements hplan
  rw [hstatements, List.forall₂_map_right_iff, List.forall₂_same]
  intro records hrecords
  refine castsFit_batchStatement hd hcasts t spec (RowSet.columns_ne_nil hrows)
    (List.length_pos_iff.1 (length_of_mem_chunks hrecords).1) fun row hrow =>
      RowSet.length_of_mem_rows hrows ?_
  rw [← c.flatten_chunked rows]
  exact List.mem_flatten_of_mem hrecords hrow

/-- A record with a value for each cast, and with one that has none. -/
theorem casts_fit_each :
    ∃ rows plan,
      RowSet.ofJson (.obj [("id", .str "42"), ("on", .str "true"), ("a", .arr [.int 1]),
        ("n", .int 7)]) = .ok rows ∧
      (ofDialect .postgres).insert "t" rows = .ok plan ∧
      List.Forall₂ ((ofDialect .postgres).CastsFit none rows.columns)
        ((ofDialect .postgres).chunked rows) plan.statements ∧
      plan.statements.map Statement.writes? = [some ⟨["id", "on", "a", "n"],
        [[.value (.int 42) (some "bigint"), .value (.bool true) (some "boolean"),
          .value (.text "[1]") (some "jsonb"), .value (.int 7) none]]⟩] := by
  have ht : TableName.resolve "t" (ofDialect .postgres).options.schema = .ok ⟨none, "t"⟩ := rfl
  have hrows : RowSet.ofJson (.obj [("id", .str "42"), ("on", .str "true"), ("a", .arr [.int 1]),
      ("n", .int 7)]) = .ok ⟨["id", "on", "a", "n"],
        [[.str "42", .str "true", .arr [.int 1], .int 7]]⟩ := rfl
  have hplan := (insert_yields ht ⟨["id", "on", "a", "n"],
    [[.str "42", .str "true", .arr [.int 1], .int 7]]⟩ _).2 ⟨by decide, rfl⟩
  exact ⟨_, _, hrows, hplan, casts_fit .postgres rfl hrows hplan, by decide +kernel⟩

/-- A `bigint` may stand at a text, and a dialect without casts has booleans without one. -/
theorem bigint_at_text_and_bare_bool :
    (∃ rows plan, RowSet.ofJson (.obj [("id", .int 18446744073709551615)]) = .ok rows ∧
      (ofDialect .postgres).insert "t" rows = .ok plan ∧
      plan.statements.map Statement.writes? =
        [some ⟨["id"], [[.value (.text "18446744073709551615") (some "bigint")]]⟩]) ∧
    ∃ rows plan, RowSet.ofJson (.obj [("on", .bool true)]) = .ok rows ∧
      (⟨.sqlite, .postgres, {}, {}⟩ : Compiler).insert "t" rows = .ok plan ∧
      plan.statements.map Statement.writes? =
        [some ⟨["on"], [[.value (.bool true) none]]⟩] := by
  have ht : TableName.resolve "t" none = .ok ⟨none, "t"⟩ := rfl
  refine ⟨⟨⟨["id"], [[.int 18446744073709551615]]⟩, _, rfl,
    (insert_yields (c := ofDialect .postgres) ht _ _).2 ⟨by decide, rfl⟩, ?_⟩,
    ⟨["on"], [[.bool true]]⟩, _, rfl,
    (insert_yields (c := ⟨.sqlite, .postgres, {}, {}⟩) ht _ _).2 ⟨by decide, rfl⟩, ?_⟩
  all_goals decide +kernel

end Compiler
end Querysmith
