/-
# What inserts write

The tuples of a plan of inserts, read from the statements with the values that each one binds, are
the records of the input: none is lost, none comes twice, and every value stands in the column of
its key.  A cell is read where it stands (`ReadsAs`): the values bound before it belong to the cells
before it, so its placeholder finds its own value, and what follows does not matter.  Lists of cells
and lists of tuples are read item by item from that.
-/

import Querysmith.Proofs.Compiler.Legibility
import Querysmith.Proofs.Lists
import Querysmith.Proofs.Sql.Insertion

namespace Querysmith

open Sql
open Sql.Symbol (chars)

open Fragment (ReadsAs symbols render renderList)

/-- Normalizing makes no value null. -/
theorem Normalizer.normalize_eq_null (n : Normalizer) (column : String) (v : Json) :
    n.normalize column v = .null ↔ v = .null := by
  have htext : ∀ s, n.normalizeText column s ≠ .null := fun s => by
    rw [normalizeText]
    grind
  have hint : ∀ i, n.normalizeInt column i ≠ .null := fun i => by
    rw [normalizeInt]
    grind
  have hfloat : ∀ x, n.normalizeFloat column x ≠ .null := fun x => by
    rw [normalizeFloat]
    grind
  cases v with
  | null => simp [normalize]
  | bool b => rw [normalize]; grind
  | int i => simp [normalize, hint]
  | float x => simp [normalize, hfloat]
  | str s => simp [normalize, htext]
  | arr items => simp [normalize]
  | obj fields => simp [normalize]

namespace Compiler

/-- What a cell writes. -/
def cellWritten (c : Compiler) (column : String) (v : Json) : Written :=
  match c.normalizer.normalize column v with
  | .null => .null
  | v => .value (.ofJson v) (if c.dialect.typeCasts then c.casts.castFor column v else none)

/-- **A cell reads back** as what was written for it. -/
theorem cell_readsAs {c : Compiler} (hd : c.dialect.Bundled) (column : String) (v : Json) :
    ReadsAs (Symbol.rendering c.dialect) Insertion.cell? (c.cell column v)
      (c.cellWritten column v) := by
  intro before after
  rw [cell, cellWritten]
  generalize c.normalizer.normalize column v = normal
  have h := Insertion.cell?_castPlaceholder hd before after
  cases normal with
  | null => rfl
  | bool _ | int _ | float _ | str _ | arr _ | obj _ => simpa [render] using h _ _

/-- No cast holds the character. -/
def CastsAvoid (c : Compiler) (ch : Char) : Prop := ∀ target ∈ c.castTargets, ch ∉ target.toList

/-- A character that is in no cast and not in `NULL` is in no cell. -/
theorem cell_avoids {c : Compiler} {ch : Char} (hcasts : c.CastsAvoid ch)
    (hnull : ch ∉ "NULL".toList) (column : String) (v : Json) :
    ∀ p ∈ c.cell column v, p.Avoids ch := by
  have hcast := fun v => fun target ht => hcasts target (c.castFor_mem column v target ht)
  rw [cell]
  split
  · simpa [Piece.Avoids] using hnull
  · rw [List.forall_mem_singleton]
    exact hcast _

/-- The cells of a tuple. -/
def cells (c : Compiler) (columns : List String) (row : List Json) : Fragment :=
  Fragment.joined ", " (List.zipWith c.cell columns row)

/-- A character that is in no cell and not between them is in no list of cells. -/
theorem cells_avoid {c : Compiler} {ch : Char} (hcasts : c.CastsAvoid ch)
    (hnull : ch ∉ "NULL".toList) (hcomma : ch ∉ ", ".toList) (columns : List String)
    (row : List Json) : ∀ p ∈ c.cells columns row, p.Avoids ch := by
  intro p hp
  obtain rfl | ⟨f, hf, hp⟩ := Fragment.mem_joined hp
  · exact hcomma
  · rw [← List.map_uncurry_zip_eq_zipWith, List.mem_map] at hf
    obtain ⟨⟨column, v⟩, -, rfl⟩ := hf
    exact cell_avoids hcasts hnull column v p hp

/-- No cell begins with a blank. -/
theorem head?_cell {c : Compiler} (hd : c.dialect.Bundled) (column : String) (v : Json)
    (bound : Nat) : (symbols c.dialect bound (c.cell column v)).head? ≠ some (.char ' ') := by
  rw [cell]
  split
  · simp [render, chars]
  · obtain ⟨sign, hsign, heq⟩ := Dialect.castPlaceholder_of_bundled hd (bound + 1)
      (c.casts.castFor column (c.normalizer.normalize column v))
    rcases hsign with rfl | rfl <;> simp [render, heq, chars]

/-- **The cells of a tuple read back.** -/
theorem cells_readsAs {c : Compiler} (hd : c.dialect.Bundled) (hcasts : c.CastsAvoid ',')
    {columns : List String} {row : List Json} (hne : columns.zip row ≠ []) :
    ReadsAs (Symbol.rendering c.dialect) Insertion.tuple? (c.cells columns row)
      (List.zipWith c.cellWritten columns row) := by
  intro before after
  have hcells : ∀ x ∈ columns.zip row, ReadsAs (Symbol.rendering c.dialect) Insertion.cell?
      (Function.uncurry c.cell x) (Function.uncurry c.cellWritten x) :=
    fun x _ => cell_readsAs hd x.1 x.2
  -- The items of a tuple are its cells: none of them writes a comma or begins with a blank.
  rw [cells, ← List.map_uncurry_zip_eq_zipWith, ← List.map_uncurry_zip_eq_zipWith,
    Fragment.render_joined, Fragment.values_joined, List.flatMap_map, Insertion.tuple?,
    Symbol.rendering_text, Insertion.items_intercalate]
  · exact ReadsAs.mapM hcells before after
  · intro part hpart
    obtain ⟨f, hf, k, rfl⟩ := Fragment.exists_of_mem_renderList hpart
    obtain ⟨x, -, rfl⟩ := List.mem_map.1 hf
    exact Fragment.not_mem_symbols hd rfl (cell_avoids hcasts (by decide) x.1 x.2) k
  · intro part hpart
    obtain ⟨f, hf, k, rfl⟩ := Fragment.exists_of_mem_renderList hpart
    obtain ⟨x, -, rfl⟩ := List.mem_map.1 hf
    exact head?_cell hd x.1 x.2 k
  · exact Fragment.renderList_ne_nil (by simpa using hne) _

/-- The parentheses of a tuple bind nothing. -/
theorem values_tuple (c : Compiler) (columns : List String) (row : List Json) :
    (c.tuple columns row).values = (c.cells columns row).values := by
  simp [tuple, cells]

/-- A tuple is its cells between parentheses. -/
theorem renderList_tuple (c : Compiler) (columns : List String) (chunk : List (List Json))
    (bound : Nat) :
    renderList (Symbol.rendering c.dialect) bound (chunk.map (c.tuple columns)) =
      (renderList (Symbol.rendering c.dialect) bound (chunk.map (c.cells columns))).map
        fun part => .char '(' :: part ++ [.char ')'] := by
  induction chunk generalizing bound with
  | nil => rfl
  | cons row chunk ih =>
    have htuple : render (Symbol.rendering c.dialect) bound (c.tuple columns row) =
        .char '(' :: symbols c.dialect bound (c.cells columns row) ++ [.char ')'] := by
      simp [tuple, cells, render, Fragment.render_append, chars]
    rw [List.map_cons, renderList, ih, htuple, values_tuple]
    rfl

/-- The tuples of a chunk, from the first parenthesis to the last. -/
theorem symbols_tuples (c : Compiler) (columns : List String) {chunk : List (List Json)}
    (hne : chunk ≠ []) (bound : Nat) :
    symbols c.dialect bound (c.tuples columns chunk) =
      .char '(' :: ((chars "), (".toList).intercalate
        (renderList (Symbol.rendering c.dialect) bound (chunk.map (c.cells columns))) ++
          [.char ')']) := by
  rw [tuples, symbols, Fragment.render_joined, renderList_tuple, Symbol.rendering_text]
  have hparts : renderList (Symbol.rendering c.dialect) bound (chunk.map (c.cells columns)) ≠ [] :=
    Fragment.renderList_ne_nil (by simpa using hne) bound
  exact intercalate_wrapped [.char '('] [.char ')'] (chars ", ".toList) hparts

/-- Tuples bind the values of their cells, record by record. -/
theorem values_tuples (c : Compiler) (columns : List String) (chunk : List (List Json)) :
    (c.tuples columns chunk).values = chunk.flatMap fun row => (c.cells columns row).values := by
  rw [tuples, Fragment.values_joined, List.flatMap_map]
  simp only [values_tuple]

/-- The columns of an insert read back. -/
theorem mapM_name?_listPieces {d : Dialect} {columns : List String} (hne : columns ≠ []) :
    (Insertion.items (symbols d 0 (Identifier.listPieces columns))).mapM Insertion.name? =
      some columns := by
  -- Names bind nothing, so the count that fragments are rendered with does not matter.
  have hparts : ∀ bound, renderList (Symbol.rendering d) bound
      (columns.map fun column => [.name column]) = columns.map fun column => [.name column] := by
    induction columns with
    | nil => exact fun _ => rfl
    | cons column rest ih =>
      intro bound
      cases rest with
      | nil => rfl
      | cons q rest => exact congrArg ([.name column] :: ·) (ih (List.cons_ne_nil q rest) _)
  have hnames : ∀ ns : List String,
      (ns.map fun n => [Symbol.name n]).mapM Insertion.name? = some ns := by
    intro ns
    rw [List.mapM_map]
    exact (mapM_eq_some fun n _ => rfl).trans (congrArg some (List.map_id ns))
  rw [Identifier.listPieces, symbols, Fragment.render_joined, hparts, Symbol.rendering_text,
    Insertion.items_intercalate, hnames]
  · simp
  · simp
  · simpa using hne

/-- A character that is no point is written for a table by its names alone. -/
theorem pieces_avoid (t : TableName) {ch : Char} (hdot : ch ∉ ".".toList) :
    ∀ p ∈ t.pieces, p.Avoids ch := by
  obtain ⟨schema, name⟩ := t
  cases schema with
  | none => simp [TableName.pieces, Piece.Avoids]
  | some schema => simpa [TableName.pieces, Piece.Avoids] using hdot

/-- A character that is not between names is written for a list by its names alone. -/
theorem listPieces_avoid (columns : List String) {ch : Char} (hcomma : ch ∉ ", ".toList) :
    ∀ p ∈ Identifier.listPieces columns, p.Avoids ch := by
  intro p hp
  obtain rfl | ⟨f, hf, hp⟩ := Fragment.mem_joined hp
  · exact hcomma
  · obtain ⟨column, -, rfl⟩ := List.mem_map.1 hf
    obtain rfl := List.mem_singleton.1 hp
    trivial

/-- Names bind nothing. -/
theorem values_listPieces (columns : List String) :
    Fragment.values (Identifier.listPieces columns) = [] := by
  simp [Identifier.listPieces, Fragment.values_joined]

/-- What an insert returns binds nothing. -/
theorem values_returning (c : Compiler) : Fragment.values c.returning = [] := by
  rw [returning]
  split <;> rfl

/-- At the end of an insert stands ` RETURNING *`, or nothing. -/
theorem symbols_returning (c : Compiler) (bound : Nat) :
    symbols c.dialect bound c.returning = [] ∨
      symbols c.dialect bound c.returning = chars " RETURNING *".toList := by
  rw [returning]
  split
  · exact .inr (List.append_nil _)
  · exact .inl rfl

/-- There is no parenthesis in what an insert returns. -/
theorem not_mem_returning (c : Compiler) (bound : Nat) :
    Symbol.char '(' ∉ symbols c.dialect bound c.returning := by
  rcases c.symbols_returning bound with h | h <;> rw [h]
  · exact List.not_mem_nil
  · decide

/-- The symbols of the statement of a chunk: its columns and its tuples between parentheses, and
what follows them. -/
theorem symbols_insertFragment (c : Compiler) (t : TableName) (columns : List String)
    {chunk : List (List Json)} (hchunk : chunk ≠ []) (conflict : Fragment) :
    symbols c.dialect 0 (c.insertFragment t.pieces (Identifier.listPieces columns) columns chunk
        conflict) =
      (chars "INSERT INTO ".toList ++ symbols c.dialect 0 t.pieces ++ chars " ".toList) ++
        .char '(' :: (symbols c.dialect 0 (Identifier.listPieces columns) ++
          .char ')' :: (chars " VALUES ".toList ++ .char '(' ::
            ((chars "), (".toList).intercalate
              (renderList (Symbol.rendering c.dialect) 0 (chunk.map (c.cells columns))) ++
              .char ')' :: symbols c.dialect (c.tuples columns chunk).values.length
                (conflict ++ c.returning)))) := by
  simp [insertFragment, render, Fragment.render_append, symbols_tuples c columns hchunk,
    values_pieces, values_listPieces, chars]

/-- A character that the casts avoid stands in no cell. -/
theorem not_mem_cells {c : Compiler} (hd : c.dialect.Bundled) {ch : Char}
    (hcasts : c.CastsAvoid ch) (hbare : Symbol.isBare ch = true) (hnull : ch ∉ "NULL".toList)
    (hcomma : ch ∉ ", ".toList) (columns : List String) (chunk : List (List Json)) :
    ∀ part ∈ renderList (Symbol.rendering c.dialect) 0 (chunk.map (c.cells columns)),
      Symbol.char ch ∉ part := by
  intro part hpart
  obtain ⟨f, hf, k, rfl⟩ := Fragment.exists_of_mem_renderList hpart
  obtain ⟨row, -, rfl⟩ := List.mem_map.1 hf
  exact Fragment.not_mem_symbols hd hbare (cells_avoid hcasts hnull hcomma columns row) k

/-- The first parenthesized part of the statement of a chunk: its columns. -/
theorem groups?_symbols {c : Compiler} (hd : c.dialect.Bundled) (t : TableName)
    (columns : List String) {chunk : List (List Json)} (hchunk : chunk ≠ [])
    (conflict : Fragment) :
    Insertion.groups? (symbols c.dialect 0
        (c.insertFragment t.pieces (Identifier.listPieces columns) columns chunk conflict)) =
      (Insertion.groups? (chars " VALUES ".toList ++ .char '(' ::
        ((chars "), (".toList).intercalate
          (renderList (Symbol.rendering c.dialect) 0 (chunk.map (c.cells columns))) ++
          .char ')' :: symbols c.dialect (c.tuples columns chunk).values.length
            (conflict ++ c.returning)))).map
        ((symbols c.dialect 0 (Identifier.listPieces columns), chars " VALUES ".toList) :: ·) := by
  have htable := Fragment.not_mem_symbols hd (c := '(') rfl (pieces_avoid t (by decide)) 0
  have hbefore : Symbol.char '(' ∉ chars "INSERT INTO ".toList ++ symbols c.dialect 0 t.pieces ++
      chars " ".toList := by
    simp [htable, chars]
  have hopen := Fragment.not_mem_symbols hd (c := '(') rfl
    (listPieces_avoid columns (by decide)) 0
  have hclose := Fragment.not_mem_symbols hd (c := ')') rfl
    (listPieces_avoid columns (by decide)) 0
  have hvalues : Symbol.char '(' ∉ chars " VALUES ".toList := by decide
  rw [symbols_insertFragment c t columns hchunk,
    Insertion.groups?_cons hbefore hopen hclose hvalues]

/-- The parenthesized parts of the statement of a chunk: its columns and its tuples. -/
theorem groups?_insertFragment {c : Compiler} (hd : c.dialect.Bundled)
    (hcasts : ∀ ch ∈ ['(', ')'], c.CastsAvoid ch) (t : TableName) (columns : List String)
    {chunk : List (List Json)} (hchunk : chunk ≠ []) :
    Insertion.groups? (symbols c.dialect 0
        (c.insertFragment t.pieces (Identifier.listPieces columns) columns chunk [])) =
      some ((symbols c.dialect 0 (Identifier.listPieces columns), chars " VALUES ".toList) ::
        Insertion.spaced (symbols c.dialect (c.tuples columns chunk).values.length c.returning)
          (renderList (Symbol.rendering c.dialect) 0 (chunk.map (c.cells columns)))) := by
  have hvalues : Symbol.char '(' ∉ chars " VALUES ".toList := by decide
  have hne : renderList (Symbol.rendering c.dialect) 0 (chunk.map (c.cells columns)) ≠ [] :=
    Fragment.renderList_ne_nil (by simpa using hchunk) 0
  rw [groups?_symbols hd t columns hchunk, List.nil_append,
    Insertion.groups?_intercalate
      (not_mem_cells hd (hcasts '(' (by decide)) rfl (by decide) (by decide) columns chunk)
      (not_mem_cells hd (hcasts ')' (by decide)) rfl (by decide) (by decide) columns chunk)
      (c.not_mem_returning _) hvalues hne]
  rfl

/-- The tuples of a chunk read back, when every row has a value for every column. -/
theorem mapM_tuple?_cells {c : Compiler} (hd : c.dialect.Bundled) (hcasts : c.CastsAvoid ',')
    {columns : List String} {chunk : List (List Json)} (hcolumns : columns ≠ [])
    (hrows : ∀ row ∈ chunk, row.length = columns.length) :
    (renderList (Symbol.rendering c.dialect) 0 (chunk.map (c.cells columns))).mapM
        (Insertion.tuple? (chunk.flatMap fun row => (c.cells columns row).values)) =
      some (chunk.map (List.zipWith c.cellWritten columns)) := by
  have hcells : ∀ row ∈ chunk, ReadsAs (Symbol.rendering c.dialect) Insertion.tuple?
      (c.cells columns row) (List.zipWith c.cellWritten columns row) := fun row hrow => by
    refine cells_readsAs hd hcasts ?_
    intro hzip
    rcases List.zip_eq_nil_iff.1 hzip with h | h
    · exact hcolumns h
    · exact hcolumns (List.length_eq_zero_iff.1 (by rw [← hrows row hrow, h]; rfl))
  simpa using ReadsAs.mapM hcells [] []

/-- An insert is recognized by how it begins. -/
theorem isPrefixOf_symbols (c : Compiler) (t : TableName) (columns : List String)
    {chunk : List (List Json)} (hchunk : chunk ≠ []) (conflict : Fragment) :
    (chars "INSERT INTO ".toList).isPrefixOf (symbols c.dialect 0
      (c.insertFragment t.pieces (Identifier.listPieces columns) columns chunk conflict)) =
        true := by
  rw [symbols_insertFragment c t columns hchunk, List.isPrefixOf_iff_prefix]
  simp only [List.append_assoc]
  exact List.prefix_append _ _

/-- **The statement of a chunk reads back,** when every row has a value for every column. -/
theorem read?_insertFragment {c : Compiler} (hd : c.dialect.Bundled)
    (hcasts : ∀ ch ∈ ['"', '(', ')', ','], c.CastsAvoid ch) (t : TableName)
    {columns : List String} {chunk : List (List Json)} (hcolumns : columns ≠ [])
    (hchunk : chunk ≠ []) (hrows : ∀ row ∈ chunk, row.length = columns.length) :
    Insertion.read?
      (c.insertFragment t.pieces (Identifier.listPieces columns) columns chunk []).values
      ((c.insertFragment t.pieces (Identifier.listPieces columns) columns chunk []).sql
        c.dialect 0) =
      some ⟨columns, chunk.map (List.zipWith c.cellWritten columns)⟩ := by
  have hne : renderList (Symbol.rendering c.dialect) 0 (chunk.map (c.cells columns)) ≠ [] :=
    Fragment.renderList_ne_nil (by simpa using hchunk) 0
  have hvalues : (c.insertFragment t.pieces (Identifier.listPieces columns) columns chunk
      []).values = chunk.flatMap fun row => (c.cells columns row).values := by
    simp [insertFragment, values_pieces, values_listPieces, values_returning, values_tuples]
  refine Insertion.read?_eq (Fragment.symbols_sql hd
    (c.insertFragment_legible t columns chunk [] []) (hcasts '"' (by decide)) 0)
    (c.isPrefixOf_symbols t columns hchunk [])
    (groups?_insertFragment hd (fun ch hch => hcasts ch ?_) t columns hchunk)
    (c.symbols_returning _) hne (mapM_name?_listPieces hcolumns) ?_
  · rcases List.mem_cons.1 hch with rfl | hch
    · decide
    · obtain rfl := List.mem_singleton.1 hch
      decide
  · rw [hvalues]
    exact mapM_tuple?_cells hd (hcasts ',' (by decide)) hcolumns hrows

end Compiler

/-- The records of an input: one object, or an array of objects. -/
inductive RecordsOf : Json → List Record → Prop
  | one (record : Record) : RecordsOf (.obj record) [record]
  | many (records : List Record) : RecordsOf (.arr (records.map .obj)) records

namespace RowSet

/-- The fields of an object. -/
def fields : Json → Record
  | .obj record => record
  | _ => []

/-- A record is read when it is an object, with the fields of it. -/
theorem readRecord_yields (v : Json) :
    Yields (readRecord v) (v = .obj (fields v)) (fields v) := by
  intro r
  cases v with
  | obj record => exact ⟨fun h => ⟨rfl, (Except.ok.inj h).symm⟩, fun h => h.2 ▸ rfl⟩
  | null | bool _ | int _ | float _ | str _ | arr _ =>
    constructor
    · intro h
      cases h
    · rintro ⟨h, -⟩
      cases h

/-- Nothing but records is read as a row set. -/
theorem exists_recordsOf {input : Json} {rows : RowSet} (h : ofJson input = .ok rows) :
    ∃ records, RecordsOf input records := by
  cases input with
  | obj record => exact ⟨[record], .one record⟩
  | arr items =>
    obtain ⟨records, hitems, -⟩ := exists_of_bind_eq_ok h
    obtain ⟨hobj, rfl⟩ := (Yields.mapM readRecord_yields items).eq_of_ok hitems
    have hmap : (items.map fields).map Json.obj = items := by
      rw [List.map_map]
      exact (List.map_congr_left fun v hv => (hobj v hv).symm).trans (List.map_id items)
    have hmany := RecordsOf.many (items.map fields)
    rw [hmap] at hmany
    exact ⟨_, hmany⟩
  | null => cases h
  | bool b => cases h
  | int i => cases h
  | float x => cases h
  | str s => cases h

/-- One record is read like a list of it alone. -/
theorem ofJson_eq {input : Json} {records : List Record} (h : RecordsOf input records) :
    ofJson input = ofRecords records := by
  cases h with
  | one record => rfl
  | many =>
    have hread : (records.map Json.obj).mapM readRecord = .ok records := by
      induction records with
      | nil => rfl
      | cons record records ih =>
        rw [List.map_cons, List.mapM_cons, ih]
        rfl
    rw [ofJson, hread]
    rfl

/-- A field of a record is its cell, when no key comes twice. -/
theorem cell_of_mem {record : Record} (hkeys : (record.map (·.1)).Nodup) {key : String} {v : Json}
    (h : (key, v) ∈ record) : record.cell key = v := by
  induction record with
  | nil => cases h
  | cons field rest ih =>
    rw [List.map_cons, List.nodup_cons] at hkeys
    rcases List.mem_cons.1 h with rfl | h
    · simp [Record.cell]
    · have hne : (key == field.1) = false := beq_false_of_ne (by
        rintro rfl
        exact hkeys.1 (List.mem_map.2 ⟨_, h, rfl⟩))
      have hrest := ih hkeys.2 h
      rw [Record.cell] at hrest ⊢
      rwa [List.lookup_cons, hne]

/-- **The cells of a record are its values under the columns,** when no column comes twice. -/
theorem cells_eq (record : Record) {columns : List String} (h : columns.Nodup) :
    record.cells columns = columns.map record.cell := by
  rw [Record.cells]
  split
  · rename_i heq
    obtain rfl : record.map (·.1) = columns := eq_of_beq heq
    rw [List.map_map]
    exact List.map_congr_left fun field hfield => (cell_of_mem h hfield).symm
  · rfl

/-- **Records that were read have the columns of the first one,** and every one has a cell for each
of them. -/
theorem ofRecords_eq {records : List Record} {rows : RowSet} (h : ofRecords records = .ok rows) :
    records ≠ [] ∧ rows.columns = (records.headD []).map (·.1) ∧ rows.columns ≠ [] ∧
      rows.rows = records.map (·.cells rows.columns) := by
  match records with
  | [] => cases h
  | [] :: _ => cases h
  | (field :: fields) :: rest =>
    obtain rfl := (Except.ok.inj h).symm
    exact ⟨List.cons_ne_nil _ _, rfl, List.cons_ne_nil _ _, rfl⟩

end RowSet

/-- What the text of a statement writes with the values that are bound to it. -/
def Statement.insertion? (s : Statement) : Option Insertion :=
  Insertion.read? s.params s.sql

namespace Compiler

/-- What a record is to write in a column: `NULL` where it has no value, else its normalized value,
with the cast that is chosen for that where the dialect has casts. -/
def written (c : Compiler) (record : Record) (column : String) : Written :=
  match record.lookup column with
  | none | some .null => .null
  | some v =>
    let normal := c.normalizer.normalize column v
    .value (.ofJson normal) (if c.dialect.typeCasts then c.casts.castFor column normal else none)

/-- What is written for a record in a column is what is written for its cell. -/
theorem cellWritten_cell (c : Compiler) (record : Record) (column : String) :
    c.cellWritten column (record.cell column) = c.written record column := by
  -- Only null is written as `NULL` or a default, and no other value is normalized to it.
  have hvalue : ∀ v ≠ Json.null, c.cellWritten column v =
      .value (.ofJson (c.normalizer.normalize column v)) (if c.dialect.typeCasts then
        c.casts.castFor column (c.normalizer.normalize column v) else none) := by
    intro v hv
    have hnormal := (c.normalizer.normalize_eq_null column v).not.2 hv
    rw [cellWritten]
    split
    · contradiction
    · rfl
  rw [Record.cell, written]
  cases record.lookup column with
  | none => rfl
  | some v =>
    cases v with
    | null => rfl
    | bool _ | int _ | float _ | str _ | arr _ | obj _ => exact hvalue _ (by simp)

/-- The columns of a record, each with its cell, write what the record is to write. -/
theorem zipWith_cellWritten (c : Compiler) (record : Record) (columns : List String) :
    List.zipWith c.cellWritten columns (columns.map record.cell) =
      columns.map (c.written record) := by
  rw [List.zipWith_map_right, List.zipWith_self]
  exact List.map_congr_left fun column _ => c.cellWritten_cell record column

/-- The chunks are the records, in order. -/
theorem flatten_chunked (c : Compiler) (rows : RowSet) : (c.chunked rows).flatten = rows.rows :=
  flatten_chunks (c.chunkSize_pos rows.columns.length) rows.rows

/-- **A plan of inserts loses, doubles and reorders nothing.**  Its statements read back with the
columns of the first record, and their tuples, one after another, are the records.  The fields of a
JSON object have different keys. -/
theorem insertions_of_insert {c : Compiler} (hd : c.dialect.Bundled)
    (hcasts : ∀ rule ∈ c.casts.rules, ∀ ch ∈ rule.target.toList,
      ch ≠ '"' ∧ ch ≠ '(' ∧ ch ≠ ')' ∧ ch ≠ ',')
    {input : Json} {records : List Record} (hinput : RecordsOf input records)
    (hkeys : ((records.headD []).map (·.1)).Nodup) {rows : RowSet}
    (hrows : RowSet.ofJson input = .ok rows) {table : String} {plan : WritePlan}
    (hplan : c.insert table rows = .ok plan) :
    ∃ insertions, plan.statements.mapM Statement.insertion? = some insertions ∧
      (∀ i ∈ insertions, i.columns = (records.headD []).map (·.1) ∧ i.tuples ≠ []) ∧
      insertions.flatMap (·.tuples) =
        records.map (fun record => ((records.headD []).map (·.1)).map (c.written record)) ∧
      plan.rows = records.length := by
  have havoid : ∀ ch ∈ ['"', '(', ')', ','], c.CastsAvoid ch := by
    intro ch hch
    rw [CastsAvoid, castTargets, List.forall_mem_cons, List.forall_mem_map]
    have hjson : ∀ ch ∈ ['"', '(', ')', ','], ch ∉ "json".toList :=
      forall_mem_of_all (by decide)
    refine ⟨hjson ch hch, fun rule hrule hmem => ?_⟩
    have := hcasts rule hrule ch hmem
    simp_all
  rw [RowSet.ofJson_eq hinput] at hrows
  obtain ⟨hne, hcolumns, hcolumns_ne, hcells⟩ := RowSet.ofRecords_eq hrows
  obtain ⟨t, ht⟩ := exists_resolve_of_ok hplan
  obtain ⟨-, rfl⟩ := (insert_yields ht rows).eq_of_ok hplan
  rw [← hcolumns] at hkeys ⊢
  -- With different keys a record is looked up where its cells stand.
  have hrecords : rows.rows = records.map fun record => rows.columns.map record.cell := by
    rw [hcells]
    exact List.map_congr_left fun record _ => RowSet.cells_eq record hkeys
  have hlength : ∀ row ∈ rows.rows, row.length = rows.columns.length := by
    rw [hrecords, List.forall_mem_map]
    intro record _
    exact List.length_map _
  -- Every chunk reads back alone; put together in order the chunks are the rows again.
  have hread : ∀ chunk ∈ c.chunked rows, Statement.insertion? (c.writeStatement
      (c.insertFragment t.pieces (Identifier.listPieces rows.columns) rows.columns chunk [])) =
      some ⟨rows.columns, chunk.map (List.zipWith c.cellWritten rows.columns)⟩ := by
    intro chunk hchunk
    refine read?_insertFragment hd havoid t hcolumns_ne ?_ fun row hrow => hlength row ?_
    · exact List.length_pos_iff.1 (length_of_mem_chunks hchunk).1
    · rw [← c.flatten_chunked rows]
      exact List.mem_flatten_of_mem hchunk hrow
  refine ⟨(c.chunked rows).map fun chunk =>
    ⟨rows.columns, chunk.map (List.zipWith c.cellWritten rows.columns)⟩, ?_, ?_, ?_, ?_⟩
  · rw [List.mapM_map]
    exact mapM_eq_some hread
  · rw [List.forall_mem_map]
    intro chunk hchunk
    have hpos := (length_of_mem_chunks hchunk).1
    refine ⟨rfl, fun hnil => ?_⟩
    rw [List.map_eq_nil_iff.1 hnil] at hpos
    exact Nat.lt_irrefl 0 hpos
  · have hflatten : (c.chunked rows).flatMap
        (fun chunk => chunk.map (List.zipWith c.cellWritten rows.columns)) =
        rows.rows.map (List.zipWith c.cellWritten rows.columns) := by
      rw [← c.flatten_chunked rows, List.map_flatten, List.flatMap_def]
    rw [List.flatMap_map, hflatten, hrecords, List.map_map]
    exact List.map_congr_left fun record _ => c.zipWith_cellWritten record rows.columns
  · rw [hcells, List.length_map]

/-- Two records of which the second has its keys in another order and misses one, in chunks of one
record. -/
theorem insertions_of_insert_misaligned :
    ∃ rows plan insertions,
      RowSet.ofJson (.arr [.obj [("a", .int 1), ("b", .str "x")], .obj [("b", .null)]]) =
        .ok rows ∧
      (ofDialect .postgres { batchSize := 1 }).insert "t" rows = .ok plan ∧
      plan.statements.mapM Statement.insertion? = some insertions ∧
      insertions.flatMap (·.tuples) =
        [[.value (.int 1) none, .value (.text "x") none], [.null, .null]] := by
  have ht : TableName.resolve "t" none = .ok ⟨none, "t"⟩ := by
    rfl
  have hinput := RecordsOf.many [[("a", .int 1), ("b", .str "x")], [("b", .null)]]
  have hrules : ∀ rule ∈ (ofDialect .postgres { batchSize := 1 }).casts.rules,
      rule.target.toList.all (fun ch => decide (ch ≠ '"' ∧ ch ≠ '(' ∧ ch ≠ ')' ∧ ch ≠ ',')) =
        true :=
    forall_mem_of_all (by decide)
  obtain ⟨insertions, hread, -, htuples, -⟩ := insertions_of_insert .postgres
    (fun rule hrule => forall_mem_of_all (hrules rule hrule)) hinput (by decide) rfl
    ((insert_yields ht _ _).2 ⟨by decide, rfl⟩)
  refine ⟨_, _, insertions, rfl, (insert_yields ht _ _).2 ⟨by decide, rfl⟩, hread, ?_⟩
  rw [htuples]
  rfl

end Compiler
end Querysmith
