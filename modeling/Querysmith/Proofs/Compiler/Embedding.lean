/-
# Documents inside a merged record

A merge binds its record as one document, and a cell whose text is a JSON document of its own goes
into it as that document.  The text is read for that into a value and written again, and a value
has integers of 64 bits and floating numbers only.  So the document that is embedded is the one of
the text exactly when every number that counts is worth as much as the number that the reader takes
it for (`embedded_iff`).  An insert binds the text itself and loses nothing.

What a record holds is written as JSON when its floating numbers are those of the format, and the
normalizer makes no others (`Normalizer.isKept_normalize`).
-/

import Querysmith.Proofs.Compiler.Binding
import Querysmith.Proofs.Engine.Document
import Querysmith.Proofs.Json.Rereading
import Querysmith.Proofs.Normalizer.Stability

namespace Querysmith

/-! ### Normalized numbers -/

namespace Normalizer

variable (n : Normalizer)

/-- What a text is normalized to has no floating number that the format does not have. -/
theorem isKept_normalizeText (column s : String) : (n.normalizeText column s).IsKept := by
  have houtcome := n.textOutcome_normalizeText column s
  generalize n.normalizeText column s = normal at houtcome
  cases houtcome with
  | word _ => exact .bool _
  | kept _ => exact .str s
  | integer _ _ _ => exact .int _
  | floating _ hread hfinite _ => exact .float (Binary64.isKept_of_ofText? hread hfinite)

/-- **The normalizer makes no floating numbers but those of the format.** -/
theorem isKept_normalize (column : String) {v : Json} (h : v.IsKept) :
    (n.normalize column v).IsKept := by
  induction h generalizing column with
  | null => exact .null
  | bool b =>
    rw [normalize]
    split
    · exact .str _
    · exact .bool b
  | int i =>
    rw [normalize, normalizeInt]
    split_ifs
    · exact .int i
    · exact .str _
    · exact .int i
  | float hx =>
    rw [normalize, normalizeFloat]
    split_ifs
    · -- A number that floors to an integer of 64 bits becomes it, and any other one stays.
      split
      · exact .int _
      · exact .float hx
    · exact .str _
    · exact .float hx
  | str s => exact n.isKept_normalizeText column s
  | arr h ih =>
    -- By induction on the value: a structure is normalized part by part.
    rw [normalize, normalizeItems_eq]
    exact .arr (List.forall_mem_map.2 fun v hv => ih v hv column)
  | obj h ih =>
    rw [normalize, normalizeFields_eq]
    exact .obj (List.forall_mem_map.2 fun field hfield => ih field hfield field.1)

end Normalizer

/-! ### Embedded documents -/

namespace Json

/-- The value of a cell that holds a text writes the tree of the text, with the numerals of the
numbers that they are read for, or it is the text. -/
theorem tree_getD_parse? (s : String) : ((parse? s).getD (.str s)).tree =
    match Tree.ofText? s with
    | some t => if t.Fits maxDepth then t.settle Numeral.reprint else .scalar (.str s)
    | none => .scalar (.str s) := by
  rw [Tree.parse?_eq_bind]
  cases Tree.ofText? s with
  | none => rfl
  | some t =>
    simp only [Option.bind_some]
    split
    · exact Tree.tree_toJson ‹t.Fits maxDepth›.2
    · rfl

/-- What is read is kept. -/
theorem isKept_of_parse? {s : String} {v : Json} (h : parse? s = some v) : v.IsKept := by
  rw [Tree.parse?_eq_bind] at h
  obtain ⟨t, -, ht⟩ := Option.bind_eq_some_iff.1 h
  split at ht
  · exact Option.some.inj ht ▸ t.isKept_toJson
  · cases ht

end Json

namespace Compiler

variable {c : Compiler}

/-- What a merge embeds for a cell is kept. -/
theorem isKept_sourceCell (c : Compiler) (column : String) {v : Json} (h : v.IsKept) :
    (c.sourceCell column v).IsKept := by
  have hnormal := c.normalizer.isKept_normalize column h
  rw [sourceCell]
  generalize c.normalizer.normalize column v = normal at hnormal
  split
  · rename_i s
    split
    · cases hparse : Json.parse? s with
      | none => exact .str s
      | some w => exact Json.isKept_of_parse? hparse
    · exact .str s
  · exact hnormal

/-- The record of a merge has no floating number that the format does not have, if its cells have
none. -/
theorem isKept_sourceRecord (c : Compiler) (columns : List String) {row : List Json}
    (h : ∀ v ∈ row, v.IsKept) : (c.sourceRecord columns row).IsKept := by
  refine .obj fun field hfield => ?_
  rw [← List.map_uncurry_zip_eq_zipWith, List.mem_map] at hfield
  obtain ⟨cell, hcell, rfl⟩ := hfield
  exact c.isKept_sourceCell cell.1 (h cell.2 (List.of_mem_zip hcell).2)

/-- **What is embedded for a document is that document exactly when** the text is taken for one,
reads as a value, and no number that counts is taken for another one. -/
theorem document_sourceCell_iff (c : Compiler) {column : String} {v : Json} {s : String}
    {doc : Json.Tree Json.Numeral} (hs : c.normalizer.normalize column v = .str s)
    (hdoc : Json.Tree.ofText? s = some doc) (hstructured : doc.isStructured = true) :
    (c.sourceCell column v).tree.document = doc.document ↔
      Json.isDocumentText s = true ∧ doc.Fits Json.maxDepth ∧
        ∀ n ∈ doc.settledNumbers, n.reprint.value = n.value := by
  -- The text itself is a scalar and no document.
  have htext : (Json.Tree.scalar (.str s)).document ≠ doc.document := fun heq => by
    have hsame := congrArg Json.Tree.isStructured heq
    rw [Json.Tree.document, Json.Tree.document, Json.Tree.isStructured_settle,
      Json.Tree.isStructured_settle, hstructured] at hsame
    cases hsame
  rw [sourceCell, hs]
  simp only
  by_cases hlooks : Json.isDocumentText s = true
  · rw [if_pos hlooks, Json.tree_getD_parse?, hdoc, and_iff_right hlooks]
    simp only
    by_cases hfits : doc.Fits Json.maxDepth
    · rw [if_pos hfits, and_iff_right hfits, Json.Tree.document, Json.Tree.settle_settle,
        Json.Tree.document, Json.Tree.settle_eq_settle_iff]
      rfl
    · rw [if_neg hfits]
      exact iff_of_false htext fun h => hfits h.1
  · rw [if_neg hlooks]
    exact iff_of_false htext fun h => hlooks h.1

/-- The tree of a merged record has that of a cell where the cell stands. -/
theorem exists_tree_sourceRecord (c : Compiler) (columns : List String) (row : List Json) :
    ∃ fields, (c.sourceRecord columns row).tree = .obj fields ∧
      ∀ (j : Nat) (column : String) (v : Json), columns[j]? = some column → row[j]? = some v →
        fields[j]? = some (column, (c.sourceCell column v).tree) := by
  refine ⟨_, Json.tree_obj _, fun j column v hcolumn hcell => ?_⟩
  simp [List.getElem?_zipWith, hcolumn, hcell]

/-- No statement begins both like a merge and like an insert. -/
theorem not_startsWith_insert {sql : String}
    (h : Text.startsWith sql "WITH source_data AS " = true) :
    ¬Text.startsWith sql "INSERT INTO " = true := by
  intro hinsert
  rw [Text.startsWith, List.isPrefixOf_iff_prefix] at h hinsert
  obtain ⟨rest, hrest⟩ := h
  obtain ⟨rest', hrest'⟩ := hinsert
  exact absurd (List.cons.inj (hrest.trans hrest'.symm)).1 (by decide)

/-- **What a merge makes of the documents in its record.**  An insert binds the text of such a cell
as it is.  A merge embeds the same document exactly when the text is taken for one, is neither too
deep nor out of range, and every number that counts keeps its value. -/
theorem embedded_iff {table : String} {rows : RowSet} {spec : ConstraintSpec} {plan : WritePlan}
    (hkept : ∀ row ∈ rows.rows, ∀ v ∈ row, v.IsKept) (h : c.upsert table rows spec = .ok plan) :
    List.Forall₂ (fun records statement =>
      Text.startsWith statement.sql "WITH source_data AS " = true →
        ∃ record source fields, records = [record] ∧ statement.params = [.text source] ∧
          Json.Tree.ofText? source = some (.obj fields) ∧
          ∀ (j : Nat) (column : String) (v : Json) (s : String) (doc : Json.Tree Json.Numeral),
            rows.columns[j]? = some column → record[j]? = some v →
            c.normalizer.normalize column v = .str s → Json.Tree.ofText? s = some doc →
            doc.isStructured = true →
              c.boundValue? column v = some (.text s) ∧
              ∃ embedded, fields[j]? = some (column, embedded) ∧
                (embedded.document = doc.document ↔
                  Json.isDocumentText s = true ∧ doc.Fits Json.maxDepth ∧
                    ∀ n ∈ doc.settledNumbers, n.reprint.value = n.value))
      (c.chunked rows) plan.statements := by
  have hwriting : c.writing table (some spec) rows = .ok plan := h
  obtain ⟨t, hstatements, -⟩ := exists_batchStatements hwriting
  rw [hstatements, List.forall₂_map_right_iff, List.forall₂_same]
  intro records hrecords hmerge
  cases c.binds_batchStatement t (some spec) rows.columns records with
  -- The text of a plain insert does not begin like that of a merge.
  | cells htext _ => exact absurd htext (not_startsWith_insert hmerge)
  | document _ _ hsingle hparams =>
    -- A merge has a single record, and its only parameter is the document of that record.
    rename_i record
    have hrecord : record ∈ rows.rows := by
      rw [← c.flatten_chunked rows]
      exact List.mem_flatten_of_mem hrecords (hsingle ▸ List.mem_singleton_self record)
    obtain ⟨fields, htree, hfields⟩ := c.exists_tree_sourceRecord rows.columns record
    -- The document reads back as its tree, so its fields can be looked up.
    have hread := Json.ofText?_text (c.isKept_sourceRecord rows.columns (hkept record hrecord))
    refine ⟨record, _, fields, hsingle, hparams, hread.trans (congrArg some htree), ?_⟩
    intro j column v s doc hcolumn hcell hs hdoc hstructured
    refine ⟨?_, _, hfields j column v hcolumn hcell,
      c.document_sourceCell_iff hs hdoc hstructured⟩
    rw [boundValue?, hs]
    rfl

/-- The first integer beyond 64 bits is embedded as the shortest decimal of its floating number. -/
theorem embedded_beyond_word :
    ∃ rows plan statement source fields embedded doc,
      RowSet.ofJson (.obj [("slug", .str "a"), ("email", .str "e"),
        ("meta", .str "[18446744073709551616]")]) = .ok rows ∧
      (ofDialect .postgres).upsert "t" rows ⟨[.simple "slug", .simple "email"]⟩ = .ok plan ∧
      plan.statements = [statement] ∧ statement.params = [.text source] ∧
      Json.Tree.ofText? source = some (.obj fields) ∧ fields[2]? = some ("meta", embedded) ∧
      Json.Tree.ofText? "[18446744073709551616]" = some doc ∧
      embedded.document ≠ doc.document := by
  have ht : TableName.resolve "t" (ofDialect .postgres).options.schema = .ok ⟨none, "t"⟩ := rfl
  have htext : "[18446744073709551616]" = (Json.arr [.int 18446744073709551616]).text := by
    decide +kernel
  have hdoc : Json.Tree.ofText? "[18446744073709551616]" =
      some (.arr [.scalar (.number (.ofInt 18446744073709551616))]) := by
    rw [htext, Json.ofText?_text (.arr (List.forall_mem_singleton.2 (.int _)))]
    rfl
  have hreprint : (Json.Numeral.ofInt 18446744073709551616).reprint =
      .ofFloat (.finite false 4503599627370496 12) := by decide +kernel
  have hshortest : Json.Numeral.shortestOf 4503599627370496 12 = (18446744073709552, 3) := by
    decide +kernel
  have hchunked : (ofDialect .postgres).chunked ⟨["slug", "email", "meta"],
      [[.str "a", .str "e", .str "[18446744073709551616]"]]⟩ =
        [[[.str "a", .str "e", .str "[18446744073709551616]"]]] :=
    chunks_of_length_le (by simp) (by decide)
  have hplan := (upsert_yields ht ⟨["slug", "email", "meta"],
    [[.str "a", .str "e", .str "[18446744073709551616]"]]⟩
      ⟨[.simple "slug", .simple "email"]⟩ _).2 ⟨by rw [hchunked]; decide, rfl⟩
  rw [hchunked] at hplan
  have hall := embedded_iff (by simp [Json.IsKept.str]) hplan
  rw [hchunked, List.map_singleton, List.forall₂_cons] at hall
  obtain ⟨record, source, fields, hrecord, hparams, hsource, hcells⟩ :=
    hall.1 ((ofDialect .postgres).startsWith_writeStatement "WITH source_data AS " "(SELECT " _)
  obtain rfl := List.singleton_inj.1 hrecord
  obtain ⟨-, embedded, hembedded, hiff⟩ := hcells 2 "meta" (.str "[18446744073709551616]")
    "[18446744073709551616]" _ rfl rfl
      (Normalizer.normalize_of_isDocumentText _ _ (by decide +kernel)) hdoc rfl
  refine ⟨_, _, _, source, fields, embedded, _, rfl, hplan, rfl, hparams, hsource, hembedded, hdoc,
    fun hsame => ?_⟩
  have hvalue := (hiff.1 hsame).2.2 (.ofInt 18446744073709551616)
    (by rw [Json.Tree.settledNumbers_arr]; exact List.mem_singleton_self _)
  rw [hreprint, Json.Numeral.value_ofFloat, hshortest, Json.Numeral.value_ofInt] at hvalue
  norm_num at hvalue

end Compiler

end Querysmith
