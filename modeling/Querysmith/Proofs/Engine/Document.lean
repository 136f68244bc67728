/-
# Texts that look like documents

A text that looks like a JSON document is used in three places: an insert binds it under the cast
`jsonb`, a merge embeds it as a document in the record that it binds, and a read decodes it in a
result row.  All three take the text with the blanks around it.  It is the document that its
trimmed text writes when it is spaced; with any other blank around it the bound text is no JSON,
and the merge and the read leave it a text (`readers_of_isDocumentText`).
-/

import Querysmith.Compiler.Upsert
import Querysmith.Engine.Result
import Querysmith.Proofs.Normalizer.Forms

namespace Querysmith

variable {s : String} {doc : Json}

/-- A text that looks like a document stays as it is in every column. -/
theorem Normalizer.normalize_of_isDocumentText (n : Normalizer) (column : String)
    (h : Json.isDocumentText s = true) : n.normalize column (.str s) = .str s := by
  rw [normalize, normalizeText, booleanText?_of_isDocumentText h, if_pos h]

/-- A reader that falls back on the text has the document of a spaced text. -/
theorem Json.getD_parse?_of_eq_ite
    (hdoc : Json.parse? s = if Json.IsSpaced s then some doc else none) :
    (Json.parse? s).getD (.str s) = if Json.IsSpaced s then doc else .str s := by
  rw [hdoc]
  split <;> rfl

/-- A text that looks like a document is bound as it is, as a document. -/
theorem Compiler.cell_of_isDocumentText {c : Compiler} (hc : c.casts = .postgres) (column : String)
    (h : Json.isDocumentText s = true) :
    c.cell column (.str s) = [.hole (.text s) (some "jsonb")] := by
  have hcast : CastRegistry.postgres.castFor column (.str s) = some "jsonb" := by
    simp [CastRegistry.castFor, CastRegistry.postgres, CastRule.applies, Json.kind,
      Json.isDocument, h]
  simp [cell, c.normalizer.normalize_of_isDocumentText column h, hc, hcast, SqlValue.ofJson]

/-- The text of a document goes into a merge as what it reads as, or as it is. -/
theorem Compiler.sourceCell_of_isDocumentText (c : Compiler) (column : String)
    (h : Json.isDocumentText s = true) :
    c.sourceCell column (.str s) = (Json.parse? s).getD (.str s) := by
  simp [sourceCell, c.normalizer.normalize_of_isDocumentText column h, h]

/-- The text of a document comes out of a row as what it reads as, or as it is. -/
theorem decodeCell_of_isDocumentText (h : Json.isDocumentText s = true) :
    decodeCell (.str s) = (Json.parse? s).getD (.str s) := by
  simp [decodeCell, h]

/-- A cell of decoded rows is decoded by itself. -/
theorem getElem?_decodeJsonText (rows : List Record) (i j : Nat) :
    ((decodeJsonText rows)[i]?.bind (·[j]?)) =
      (rows[i]?.bind (·[j]?)).map fun field => (field.1, decodeCell field.2) := by
  rw [decodeJsonText, List.getElem?_map]
  cases rows[i]? with
  | none => rfl
  | some row => simp

/-- A field of the record that a merge binds stands where its column and its cell do. -/
theorem Compiler.getElem?_sourceRecord (c : Compiler) {columns : List String} {row : List Json}
    {j : Nat} {column : String} {v : Json} (hcolumn : columns[j]? = some column)
    (hcell : row[j]? = some v) :
    (c.sourceRecord columns row).fields?.bind (·[j]?) = some (column, c.sourceCell column v) := by
  simp [sourceRecord, Json.fields?, List.getElem?_zipWith, hcolumn, hcell]

/-- **The readers of a text that looks like a document** read the document of its trimmed text when
no blanks but those of JSON stand around it, and read no document at all otherwise. -/
theorem readers_of_isDocumentText (h : Json.isDocumentText s = true) :
    ∃ doc, doc.isStructured = true ∧ Json.parse? (Text.trim s) = some doc ∧
      (Json.parse? s = if Json.IsSpaced s then some doc else none) ∧
      (∀ (rows : List Record) (i j : Nat) (key : String),
        rows[i]?.bind (·[j]?) = some (key, .str s) →
          (decodeJsonText rows)[i]?.bind (·[j]?) =
            some (key, if Json.IsSpaced s then doc else .str s)) ∧
      ∀ c : Compiler,
        (c.casts = .postgres → ∀ column,
          c.cell column (.str s) = [.hole (.text s) (some "jsonb")]) ∧
        ∀ (columns : List String) (row : List Json) (j : Nat) (column : String),
          columns[j]? = some column → row[j]? = some (.str s) →
            (c.sourceRecord columns row).fields?.bind (·[j]?) =
              some (column, if Json.IsSpaced s then doc else .str s) := by
  obtain ⟨doc, hstructured, htrim, hread⟩ := Json.parse?_of_isDocumentText h
  have hvalue := Json.getD_parse?_of_eq_ite hread
  refine ⟨doc, hstructured, htrim, hread, fun rows i j key hcell => ?_, fun c => ⟨?_, ?_⟩⟩
  · rw [getElem?_decodeJsonText, hcell, Option.map_some, decodeCell_of_isDocumentText h, hvalue]
  · exact fun hc column => c.cell_of_isDocumentText hc column h
  · intro columns row j column hcolumn hcell
    rw [c.getElem?_sourceRecord hcolumn hcell, c.sourceCell_of_isDocumentText column h, hvalue]

/-- A document behind a no-break space is bound as one, and is none to the reader of the row. -/
theorem readers_of_noBreakSpace :
    Json.isDocumentText "\u00a0[1]" = true ∧ Json.parse? "\u00a0[1]" = none ∧
      (Compiler.ofDialect .postgres).cell "tags" (.str "\u00a0[1]") =
        [.hole (.text "\u00a0[1]") (some "jsonb")] := by
  have h : Json.isDocumentText "\u00a0[1]" = true := by decide
  have hspaced : ¬Json.IsSpaced "\u00a0[1]" := by decide
  obtain ⟨doc, -, -, hread, -, huse⟩ := readers_of_isDocumentText h
  rw [if_neg hspaced] at hread
  exact ⟨h, hread, (huse (.ofDialect .postgres)).1 rfl "tags"⟩

end Querysmith
