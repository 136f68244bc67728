/-
# Structures that are stored as texts

An array or object is bound as its text, and a text in a result row that holds a document becomes
that document.  A structure with integers only is written into a text that is taken for a document
and reads back as the same structure, so such a cell comes back from the database as it was bound
(`stored_structure_comes_back`), whatever stands in the other cells.
-/

import Querysmith.Proofs.Engine.Document
import Querysmith.Proofs.Engine.Reading
import Querysmith.Proofs.Json.RoundTrip

namespace Querysmith

variable {v : Json}

/-- An array or object is bound as its text. -/
theorem SqlValue.ofJson_of_isStructured (h : v.isStructured = true) :
    SqlValue.ofJson v = .text v.text := by
  cases v with
  | arr _ | obj _ => rfl
  | null | bool _ | int _ | float _ | str _ => cases h

/-- A cell that is normalized to an array or object binds the text of that. -/
theorem Compiler.cell_of_isStructured (c : Compiler) {column : String} {raw : Json}
    (hraw : c.normalizer.normalize column raw = v) (h : v.isStructured = true) :
    c.cell column raw = [.hole (.text v.text) (c.casts.castFor column v)] := by
  unfold cell
  rw [hraw]
  cases v with
  | arr _ | obj _ => rfl
  | null | bool _ | int _ | float _ | str _ => cases h

/-- The text of an array or object with integers is decoded as that. -/
theorem decodeCell_text (hstructured : v.isStructured = true) (hintegers : v.IsIntegral)
    (hdepth : v.depth ≤ Json.maxDepth) : decodeCell (.str v.text) = v := by
  rw [decodeCell_of_isDocumentText (Json.isDocumentText_text hstructured hintegers hdepth),
    Json.parse?_text hintegers hdepth]
  rfl

/-- What is no text that looks like a document is not decoded. -/
theorem decodeCell_of_not_isDocumentText {w : Json}
    (h : ∀ s, w = .str s → Json.isDocumentText s = false) : decodeCell w = w := by
  cases w with
  | str s => simp [decodeCell, h s rfl]
  | null | bool _ | int _ | float _ | arr _ | obj _ => rfl

/-- The rows hold the value under the key at a place. -/
def HoldsAt (rows : List Record) (i j : Nat) (key : String) (w : Json) : Prop :=
  rows[i]?.bind (·[j]?) = some (key, w)

/-- Reading documents works cell by cell and moves none. -/
theorem HoldsAt.decodeJsonText {rows : List Record} {i j : Nat} {key : String} {w : Json}
    (h : HoldsAt rows i j key w) : HoldsAt (decodeJsonText rows) i j key (decodeCell w) := by
  rw [HoldsAt, getElem?_decodeJsonText, h]
  rfl

/-- **A structure comes back as it was bound.**  Its numbers are integers and it nests as deep as
the reader goes at most.  A cell that holds its text is decoded as the structure, and a cell that
holds no text of a document stays as it is.  So what a compiler binds for a cell that it normalizes
to the structure is a text, and where a read of documents finds this text in a row, by whatever
call, it answers the structure. -/
theorem stored_structure_comes_back (hstructured : v.isStructured = true)
    (hintegers : v.IsIntegral) (hdepth : v.depth ≤ 127) :
    (∀ rows i j key, HoldsAt rows i j key (.str v.text) →
      HoldsAt (decodeJsonText rows) i j key v) ∧
    (∀ rows i j key w, HoldsAt rows i j key w →
      (∀ s, w = .str s → Json.isDocumentText s = false) →
        HoldsAt (decodeJsonText rows) i j key w) ∧
    SqlValue.ofJson v = .text v.text ∧
    ∀ {σ : Type} (e : Engine σ), e.config.parseJsonText = true →
      ∀ column raw, e.compiler.normalizer.normalize column raw = v →
        (∃ cast, e.compiler.cell column raw = [.hole (.text v.text) cast]) ∧
          ∀ (s : Session σ) (q : Statement) (rows : List Record) (i j : Nat) (key : String),
            e.reply s.database q = .ok rows → HoldsAt rows i j key (.str v.text) →
            (∃ data s', (e.read q).Ends s (.ok data) s' ∧ HoldsAt data i j key v) ∧
            ∀ table f order softDelete page,
              e.compiler.select table f order softDelete page = .ok q →
              ∃ result s', (e.reading table f order softDelete page).Ends s (.ok result) s' ∧
                HoldsAt result.data i j key v := by
  have hcell := decodeCell_text hstructured hintegers hdepth
  refine ⟨?_, ?_, SqlValue.ofJson_of_isStructured hstructured, ?_⟩
  · intro rows i j key h
    exact hcell ▸ h.decodeJsonText
  · intro rows i j key w h hw
    exact decodeCell_of_not_isDocumentText hw ▸ h.decodeJsonText
  · intro σ e hparse column raw hraw
    refine ⟨⟨_, e.compiler.cell_of_isStructured hraw hstructured⟩, ?_⟩
    intro s q rows i j key hreply h
    -- The rows that are answered are the rows that were read, decoded.
    have hrows : HoldsAt (e.resultRows rows) i j key v := by
      rw [Engine.resultRows, if_pos hparse]
      exact hcell ▸ h.decodeJsonText
    constructor
    · obtain ⟨s', hends, -⟩ := Engine.read_ends_ok hreply
      exact ⟨_, s', hends, hrows⟩
    · intro table f order softDelete page hselect
      obtain ⟨n, hcount, -⟩ := Compiler.exists_count_of_select hselect
      obtain ⟨_, s', -, hends, -⟩ := Engine.select_ends_of_answered hselect hcount hreply
      have hreading : e.reading table f order softDelete page =
          e.select table f order softDelete page := by
        cases page <;> rfl
      rw [hreading]
      exact ⟨_, s', hends, hrows⟩

/-- A document with a number beyond 63 bits and a string with an escape, bound and read again. -/
theorem stored_structure_comes_back_nested :
    ∃ (v : Json) (cast : Option String) (result : ReadResult)
      (s' : Session (List ScriptedReply)),
      v = .obj [("n", .int (-42)), ("a", .arr [.int 18446744073709551615, .str "\"\u0001"])] ∧
      v.text = "\x7b\"n\":-42,\"a\":[18446744073709551615,\"\\\"\\u0001\"]\x7d" ∧
      (Compiler.ofDialect .postgres).cell "meta"
          (.obj [("n", .str "-42"), ("a", .arr [.int 18446744073709551615, .str "\"\u0001"])]) =
        [.hole (.text v.text) cast] ∧
      ((Engine.ofDialect .scripted .postgres {}).reading "t" .all .unordered none none).Ends
        { database := [{ rows := [[("id", .int 7), ("meta", .str v.text)]] }] } (.ok result) s' ∧
      HoldsAt result.data 0 1 "meta" v := by
  have hintegers : Json.IsIntegral
      (.obj [("n", .int (-42)), ("a", .arr [.int 18446744073709551615, .str "\"\u0001"])]) := by
    have hn : Json.IsIntegral (.int (-42)) := .int (by decide) (by decide)
    have hlarge : Json.IsIntegral (.int 18446744073709551615) := .int (by decide) (by decide)
    refine .obj (by decide) ?_
    simp only [List.mem_cons, List.not_mem_nil, or_false, forall_eq_or_imp, forall_eq]
    exact ⟨hn, .arr (by simp [hlarge, Json.IsIntegral.str])⟩
  have ht : TableName.resolve "t" (Compiler.ofDialect .postgres).options.schema =
      .ok ⟨none, "t"⟩ := by
    rfl
  have hselect := (Compiler.select_yields ht .all .unordered none none _).2 ⟨by decide, rfl⟩
  obtain ⟨-, -, -, hengine⟩ := stored_structure_comes_back rfl hintegers (by decide)
  obtain ⟨⟨cast, hcell⟩, hread⟩ := hengine (.ofDialect .scripted .postgres {}) rfl "meta"
    (.obj [("n", .str "-42"), ("a", .arr [.int 18446744073709551615, .str "\"\u0001"])]) rfl
  obtain ⟨-, hreading⟩ := hread
    { database := [{ rows := [[("id", .int 7), ("meta", .str (Json.text _))]] }] } _ _ 0 1 "meta"
    rfl rfl
  obtain ⟨result, s', hends, hholds⟩ := hreading _ _ _ _ _ hselect
  exact ⟨_, cast, result, s', rfl, by decide +kernel, hcell, hends, hholds⟩

end Querysmith
