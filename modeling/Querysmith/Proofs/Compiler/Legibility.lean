/-
# Every statement is legible

The fragments of `Proofs.Compiler.Pieces` and `Proofs.Compiler.Outcome` are legible, whatever names
and values go into them: the texts between names and placeholders are fixed, and they were chosen so
that nothing runs together.  The casts of a statement are the targets of its registry, and `json` in
a merge.
-/

import Querysmith.Proofs.Compiler.Outcome
import Querysmith.Proofs.Fragment.Legible

namespace Querysmith

open Fragment (Legible)

variable {targets : List String}

/-- Names with commas between them are legible. -/
theorem Identifier.listPieces_legible (names : List String) :
    Legible targets (Identifier.listPieces names) := by
  refine Legible.joined rfl rfl rfl (List.forall_mem_map.2 fun name _ => ?_)
  exact Legible.name name

/-- A table is legible, behind its schema or without one: the point keeps the two names apart. -/
theorem TableName.pieces_legible (t : TableName) : Legible targets t.pieces := by
  obtain ⟨schema, name⟩ := t
  cases schema with
  | none => exact Legible.name name
  | some schema =>
    -- The point is no separator, but it is no quote either, so the name of the schema ends there.
    refine (Legible.name schema).append (Legible.text_name rfl (Legible.name name)) ?_
    intro p hp q hq
    obtain rfl : Piece.name schema = p := by simpa using hp
    obtain rfl : Piece.text "." = q := by simpa using hq
    intro h
    exact by simp at h

/-- A text can stand before a table. -/
theorem TableName.text_pieces_legible (t : TableName) {s : String} (hs : isPlain s = true) :
    Legible targets (.text s :: t.pieces) := by
  obtain ⟨schema, name⟩ := t
  have h : Legible targets (TableName.pieces ⟨schema, name⟩) := TableName.pieces_legible _
  cases schema with
  | none => exact Legible.text_name hs h
  | some schema => exact Legible.text_name hs h

/-- An operator between blanks is plain and keeps its neighbours apart. -/
theorem Operator.sql_legible (op : Operator) {after : String} (hp : isPlain after = true)
    (hc : closes after = true) {g : Fragment} (hg : Legible targets g) (column : String) :
    Legible targets (.name column :: .text (" " ++ op.sql ++ after) :: g) := by
  have hplain : isPlain op.sql = true := by cases op <;> rfl
  refine (Legible.name column).append_text (opens_append (opens_append rfl _) _) ?_
  exact Legible.text_cons (isPlain_append (isPlain_append rfl hplain) hp) (closes_append _ hc) hg

/-- **A condition is legible,** whatever its operator and its operand are.  The operator stands
between blanks, and the members of a list between commas, so neither runs into a name or a
placeholder. -/
theorem Condition.pieces_legible (o : PredicateOptions) (c : Condition) :
    Legible targets (c.pieces o) := by
  obtain ⟨column, op, operand⟩ := c
  match operand with
  -- An empty list is written as a comparison of numbers, without its column.
  | .list [] => exact Legible.text (by simp only; split <;> rfl)
  | .list (v :: vs) =>
    have hmembers : Legible targets (Fragment.joined ", "
        ((v :: vs).map fun v => [.hole (o.bind column v) none])) := by
      refine Legible.joined rfl rfl rfl (List.forall_mem_map.2 fun v _ => ?_)
      exact Legible.hole _ (by simp)
    exact (op.sql_legible rfl rfl hmembers column).append_text rfl (Legible.text rfl)
  | .scalar v => exact op.sql_legible rfl rfl (Legible.hole _ (by simp)) column

namespace Filter

/-- Conditions with `AND` between them are legible. -/
theorem groupPieces_legible (o : PredicateOptions) (group : List Condition) :
    Legible targets (groupPieces o group) := by
  refine Legible.joined rfl rfl rfl (List.forall_mem_map.2 fun c _ => ?_)
  exact c.pieces_legible o

/-- Groups in parentheses with `OR` between them are legible. -/
theorem groupsPieces_legible (o : PredicateOptions) (groups : List (List Condition)) :
    Legible targets (groupsPieces o groups) := by
  refine Legible.append_text (Legible.text_cons rfl rfl ?_) rfl (Legible.text rfl)
  refine Legible.joined rfl rfl rfl (List.forall_mem_map.2 fun g _ => ?_)
  exact groupPieces_legible o g

/-- The clause of a filter is legible, and so is no clause. -/
theorem wherePieces_legible (f : Filter) (softDelete : Option String) (o : PredicateOptions) :
    Legible targets ((f.wherePieces softDelete o).getD []) := by
  rw [wherePieces]
  cases f.guardedGroups softDelete with
  | nil => exact Legible.nil
  | cons g gs => exact groupsPieces_legible o (g :: gs)

end Filter

/-- An order is legible: behind each column stands its direction. -/
theorem SortOrder.pieces_legible (order : SortOrder) : Legible targets order.pieces := by
  rw [SortOrder.pieces]
  split
  · exact Legible.nil
  · refine Legible.text_cons rfl rfl (Legible.joined rfl rfl rfl fun f hf => ?_)
    obtain ⟨⟨column, direction⟩, -, rfl⟩ := List.mem_map.1 hf
    have hplain : isPlain direction.sql = true := by cases direction <;> rfl
    exact (Legible.name column).append_text (opens_append rfl _)
      (Legible.text (isPlain_append rfl hplain))

/-- A limit and an offset are legible; their placeholders have no casts. -/
theorem Page.fragment_legible (p : Page) : Legible targets p.fragment :=
  Legible.text_cons rfl rfl (Legible.append_text (Legible.hole _ (by simp)) rfl
    (Legible.text_cons rfl rfl (Legible.hole _ (by simp))))

/-- `column = source.column`, one after another. -/
theorem assignmentPieces_legible {source : String} (hs : isPlain source = true)
    (columns : List String) : Legible targets (assignmentPieces source columns) := by
  refine Legible.joined rfl rfl rfl (List.forall_mem_map.2 fun column _ => ?_)
  have hplain : isPlain (" = " ++ source ++ ".") = true :=
    isPlain_append (isPlain_append rfl hs) rfl
  have hopens : opens (" = " ++ source ++ ".") = true :=
    opens_append (opens_append rfl source) "."
  exact (Legible.name column).append_text hopens (Legible.text_name hplain (Legible.name column))

/-- Conflict clauses follow each other without a text between them, for each begins with one. -/
theorem conflictPieces_legible (conflicts : List (List String)) (updates : List String) :
    Legible targets (conflictPieces conflicts updates) := by
  induction conflicts with
  | nil => exact Legible.nil
  | cons target rest ih =>
    have hclause : Legible targets (.text " ON CONFLICT (" :: Identifier.listPieces target ++
        .text ") DO UPDATE SET " :: assignmentPieces "EXCLUDED" updates) :=
      Legible.append_text (Legible.text_cons rfl rfl (Identifier.listPieces_legible target)) rfl
        (Legible.text_cons rfl rfl (assignmentPieces_legible rfl updates))
    -- A clause ends with a name; the blank in front of the next one keeps them apart.
    cases rest with
    | nil => simpa [conflictPieces] using hclause
    | cons target' rest => exact hclause.append_text rfl ih

/-- The groups of a merge are legible: a name stands behind a point and in front of a sign or the
closing parenthesis. -/
theorem matchPieces_legible (groups : List (List String)) :
    Legible targets (matchPieces groups) := by
  refine Legible.joined rfl rfl rfl (List.forall_mem_map.2 fun group _ => ?_)
  refine Legible.append_text (Legible.text_cons rfl rfl ?_) rfl (Legible.text rfl)
  refine Legible.joined rfl rfl rfl (List.forall_mem_map.2 fun column _ => ?_)
  refine Legible.text_name rfl ?_
  exact (Legible.name column).append_text rfl (Legible.text_name rfl (Legible.name column))

namespace Compiler

/-- The targets of the casts of a statement. -/
def castTargets (c : Compiler) : List String := "json" :: c.casts.rules.map (·.target)

/-- Clauses with blanks between them are legible when each of them is; empty ones are left out. -/
theorem clauses_legible {parts : List Fragment} (h : ∀ f ∈ parts, Legible targets f) :
    Legible targets (clauses parts) :=
  Legible.joined rfl rfl rfl fun f hf => h f (List.mem_of_mem_filter hf)

/-- **A selection is legible.**  Its clauses stand between blanks, and an absent one is left out
together with its blank. -/
theorem selectPieces_legible (c : Compiler) (t : TableName) (f : Filter) (order : SortOrder)
    (softDelete : Option String) (page : Option Page) :
    Legible targets (c.selectPieces t f order softDelete page) := by
  refine clauses_legible ?_
  simp only [List.mem_cons, List.not_mem_nil, or_false, forall_eq_or_imp, forall_eq]
  refine ⟨t.text_pieces_legible rfl, f.wherePieces_legible _ _, order.pieces_legible, ?_⟩
  cases page with
  | none => exact Legible.nil
  | some page => exact page.fragment_legible

/-- **A count is legible,** as a selection without order and page. -/
theorem countPieces_legible (c : Compiler) (t : TableName) (f : Filter)
    (softDelete : Option String) : Legible targets (c.countPieces t f softDelete) := by
  refine clauses_legible ?_
  simp only [List.mem_cons, List.not_mem_nil, or_false, forall_eq_or_imp, forall_eq]
  exact ⟨t.text_pieces_legible rfl, f.wherePieces_legible _ _⟩

/-- **A removal is legible,** one that flags rows as well. -/
theorem removalPieces_legible (c : Compiler) (t : TableName) (f : Filter)
    (softDelete : Option String) : Legible targets (c.removalPieces t f softDelete) := by
  -- Both kinds of removal end with the clause; what stands before it is a table or a flag.
  refine Legible.append_text ?_ rfl (Legible.text_cons rfl rfl (Filter.groupsPieces_legible _ _))
  cases softDelete with
  | none => exact t.text_pieces_legible rfl
  | some column =>
    refine Legible.append_text ?_ rfl (Legible.text_cons rfl rfl (Legible.hole _ (by simp)))
    exact Legible.append_text (t.text_pieces_legible rfl) rfl
      (Legible.text_name rfl (Legible.name column))

/-- A cast comes from a rule. -/
theorem castFor_mem (c : Compiler) (column : String) (v : Json) :
    ∀ target ∈ c.casts.castFor column v, target ∈ c.castTargets := by
  intro target h
  obtain ⟨rule, hrule, rfl⟩ := Option.map_eq_some_iff.1 h
  exact List.mem_cons_of_mem _ (List.mem_map_of_mem (List.mem_of_find?_eq_some hrule))

/-- A cell is legible, with the casts of its compiler: it is `NULL` or one placeholder. -/
theorem cell_legible (c : Compiler) (column : String) (v : Json) :
    Legible c.castTargets (c.cell column v) := by
  rw [cell]
  split
  · exact Legible.text rfl
  · exact Legible.hole _ (c.castFor_mem column _)

/-- A tuple is legible: its cells stand between commas and parentheses. -/
theorem tuple_legible (c : Compiler) (columns : List String) (row : List Json) :
    Legible c.castTargets (c.tuple columns row) := by
  refine Legible.append_text (Legible.text_cons rfl rfl ?_) rfl (Legible.text rfl)
  refine Legible.joined rfl rfl rfl ?_
  intro f hf
  -- Each cell is made of a column and the value that stands in its place.
  rw [← List.map_uncurry_zip_eq_zipWith, List.mem_map] at hf
  obtain ⟨⟨column, v⟩, -, rfl⟩ := hf
  exact c.cell_legible column v

/-- The tuples of a chunk are legible. -/
theorem tuples_legible (c : Compiler) (columns : List String) (chunk : List (List Json)) :
    Legible c.castTargets (c.tuples columns chunk) := by
  refine Legible.joined rfl rfl rfl (List.forall_mem_map.2 fun row _ => ?_)
  exact c.tuple_legible columns row

/-- **An insert is legible,** with conflict clauses and without.  Its names stand between blanks and
parentheses, and the casts of its tuples are those of the registry. -/
theorem insertFragment_legible (c : Compiler) (t : TableName) (columns : List String)
    (chunk : List (List Json)) (conflicts : List (List String)) (updates : List String) :
    Legible c.castTargets (c.insertFragment t.pieces (Identifier.listPieces columns) columns chunk
      (conflictPieces conflicts updates)) := by
  have hvalues : Legible c.castTargets (.text "INSERT INTO " :: t.pieces ++
      .text " (" :: Identifier.listPieces columns ++ .text ") VALUES " ::
        c.tuples columns chunk) :=
    Legible.append_text (Legible.append_text (t.text_pieces_legible rfl) rfl
      (Legible.text_cons rfl rfl (Identifier.listPieces_legible columns))) rfl
      (Legible.text_cons rfl rfl (c.tuples_legible columns chunk))
  have hconflict : Legible c.castTargets (.text "INSERT INTO " :: t.pieces ++
      .text " (" :: Identifier.listPieces columns ++ .text ") VALUES " ::
        c.tuples columns chunk ++ conflictPieces conflicts updates) := by
    have h : Legible c.castTargets (conflictPieces conflicts updates) :=
      conflictPieces_legible conflicts updates
    cases conflicts with
    | nil => simpa [conflictPieces] using hvalues
    | cons target rest => exact hvalues.append_text rfl h
  -- A dialect that returns rows asks for them at the end.
  rw [insertFragment, returning]
  split
  · exact hconflict.append_text rfl (Legible.text rfl)
  · simpa using hconflict

/-- **A merge is legible.**  It is put together from the left, one fixed text at a time, so the
steps below take it apart from the right. -/
theorem mergePieces_legible (c : Compiler) (t : TableName) (columns : List String)
    (row : List Json) (groups : List (List String)) (updates : List String) :
    Legible c.castTargets (c.mergePieces t.pieces columns row groups updates) := by
  have hcolumns : Legible c.castTargets (Identifier.listPieces columns) :=
    Identifier.listPieces_legible columns
  have hcast : ∀ target ∈ some "json", target ∈ c.castTargets := by
    simp [castTargets]
  rw [mergePieces]
  refine Legible.append_text ?_ rfl (Legible.text rfl)
  refine Legible.append_text ?_ rfl (Legible.text_cons rfl rfl (conflictPieces_legible _ _))
  refine Legible.append_text ?_ rfl (Legible.text_cons rfl rfl hcolumns)
  refine Legible.append_text ?_ rfl (Legible.text_cons rfl rfl hcolumns)
  refine Legible.append_text ?_ rfl (t.text_pieces_legible rfl)
  refine Legible.append_text ?_ rfl (Legible.text_cons rfl rfl (matchPieces_legible groups))
  refine Legible.append_text ?_ rfl
    (Legible.text_cons rfl rfl (assignmentPieces_legible rfl updates))
  refine Legible.append_text ?_ rfl (Legible.text_cons rfl rfl
    (Legible.append_text (Legible.hole _ hcast) rfl (t.text_pieces_legible rfl)))
  exact Legible.append_text (Legible.text_cons rfl rfl hcolumns) rfl (t.text_pieces_legible rfl)

/-- **An upsert is legible,** whatever strategy it follows: it is a merge, or an insert with the
conflict clauses of its groups. -/
theorem upsertPieces_legible (c : Compiler) (t : TableName) (columns : List String)
    (chunk : List (List Json)) (updates : List String) (strategy : Strategy) :
    Legible c.castTargets (c.upsertPieces t.pieces columns chunk updates strategy) := by
  cases strategy with
  | merge groups => exact c.mergePieces_legible t columns _ groups updates
  | plain => exact c.insertFragment_legible t columns chunk _ updates
  | onConflict target => exact c.insertFragment_legible t columns chunk _ updates
  | chained groups => exact c.insertFragment_legible t columns chunk _ updates

end Compiler
end Querysmith
