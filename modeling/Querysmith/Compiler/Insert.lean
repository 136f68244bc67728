/-
# Inserts

Records are written in chunks, one statement a chunk.  A cell is normalized under its column; null
is written into the text, so that the column decides its type, and every other value is bound with
the cast that its column and value ask for.
-/

import Querysmith.Compiler
import Querysmith.RowSet

namespace Querysmith

/-- The list in pieces of `size` elements, the last one perhaps shorter. -/
def chunks {α : Type} (size : Nat) (xs : List α) : List (List α) :=
  if xs.isEmpty ∨ size = 0 then [] else xs.take size :: chunks size (xs.drop size)
termination_by xs.length
decreasing_by
  rename_i h
  rw [not_or, List.isEmpty_iff] at h
  have := List.length_pos_iff.2 h.1
  rw [List.length_drop]
  omega

/-- **Chunks lose nothing and keep the order.** -/
theorem flatten_chunks {α : Type} {size : Nat} (h : 0 < size) (xs : List α) :
    (chunks size xs).flatten = xs := by
  induction xs using chunks.induct size with
  | case1 xs hx =>
    rw [chunks, if_pos hx]
    rcases hx with hx | hx
    · simp [List.isEmpty_iff.1 hx]
    · omega
  | case2 xs hx ih =>
    rw [chunks, if_neg hx, List.flatten_cons, ih, List.take_append_drop]

/-- A chunk is never empty and never larger than the size. -/
theorem length_of_mem_chunks {α : Type} {size : Nat} {xs c : List α} (h : c ∈ chunks size xs) :
    0 < c.length ∧ c.length ≤ size := by
  induction xs using chunks.induct size with
  | case1 xs hx => rw [chunks, if_pos hx] at h; exact absurd h List.not_mem_nil
  | case2 xs hx ih =>
    rw [chunks, if_neg hx, List.mem_cons] at h
    rcases h with rfl | h
    · rw [not_or, List.isEmpty_iff] at hx
      have := List.length_pos_iff.2 hx.1
      rw [List.length_take]
      omega
    · exact ih h

/-- What fits is one chunk. -/
theorem chunks_of_length_le {α : Type} {size : Nat} {xs : List α} (hne : xs ≠ [])
    (h : xs.length ≤ size) : chunks size xs = [xs] := by
  have hpos := List.length_pos_iff.2 hne
  have hfirst : ¬(xs.isEmpty = true ∨ size = 0) := by
    rw [not_or, List.isEmpty_iff]
    exact ⟨hne, by omega⟩
  have hrest : (xs.drop size).isEmpty = true ∨ size = 0 :=
    .inl (List.isEmpty_iff.2 (List.drop_eq_nil_of_le h))
  rw [chunks, if_neg hfirst, List.take_of_length_le h, chunks, if_pos hrest]

namespace Compiler

/-- A cell as a fragment. -/
def cell (c : Compiler) (column : String) (v : Json) : Fragment :=
  match c.normalizer.normalize column v with
  | .null => [.text "NULL"]
  | v => [.hole (.ofJson v) (c.casts.castFor column v)]

/-- A row of cells between parentheses. -/
def tuple (c : Compiler) (columns : List String) (row : List Json) : Fragment :=
  .text "(" :: Fragment.joined ", " (List.zipWith c.cell columns row) ++ [.text ")"]

/-- The rows of a chunk. -/
def tuples (c : Compiler) (columns : List String) (chunk : List (List Json)) : Fragment :=
  Fragment.joined ", " (chunk.map (c.tuple columns))

/-- The clause that asks for the written rows, where the dialect has it. -/
def returning (c : Compiler) : Fragment :=
  if c.dialect.returning then [.text " RETURNING *"] else []

/-- The statement of one chunk with a conflict clause. -/
def insertFragment (c : Compiler) (table columnList : Fragment) (columns : List String)
    (chunk : List (List Json)) (conflict : Fragment) : Fragment :=
  .text "INSERT INTO " :: table ++ .text " (" :: columnList ++ .text ") VALUES " ::
    c.tuples columns chunk ++ conflict ++ c.returning

/-- A writing statement; it yields rows where the dialect returns them. -/
def writeStatement (c : Compiler) (f : Fragment) : Statement :=
  .ofFragment c.dialect f c.dialect.returning

/-- The row set in chunks of the size that the columns allow. -/
def chunked (c : Compiler) (rows : RowSet) : List (List (List Json)) :=
  chunks (c.chunkSize rows.columns.length) rows.rows

/-- Plain inserts, without a conflict clause. -/
def insert (c : Compiler) (table : String) (rows : RowSet) : Except Error WritePlan := do
  let table ← c.table table
  let columnList ← Identifier.listFragment rows.columns
  return ⟨(c.chunked rows).map fun chunk =>
      c.writeStatement (c.insertFragment table columnList rows.columns chunk []),
    rows.rows.length⟩

end Compiler
end Querysmith
