/-
# Statements on one line

The texts that a statement puts between names and placeholders are fixed, and none of them ends a
line (`inLine_of_writes`).  So a statement stands on one line unless a name or the target of a cast
brings a second one, and it leaves no quote open behind itself (`isLine_sql`, `isOutside_run_sql`).
-/

import Querysmith.Proofs.Compiler.Closed
import Querysmith.Proofs.Sql.Comment
import Querysmith.Proofs.Sql.Lexeme

namespace Querysmith

open Sql

namespace Fragment

/-- No text of the fragment ends a line. -/
def InLine (f : Fragment) : Prop := ∀ s, Piece.text s ∈ f → s.toList.all Lexeme.isInLine = true

/-- Nothing ends no line. -/
@[simp] theorem inLine_nil : InLine [] := fun _ h => by cases h

/-- A text stands on the line when none of its characters ends it. -/
@[simp] theorem inLine_text (s : String) (f : Fragment) :
    InLine (.text s :: f) ↔ s.toList.all Lexeme.isInLine = true ∧ InLine f := by
  simp [InLine, or_imp, forall_and]

/-- What a name brings is not looked at here. -/
@[simp] theorem inLine_name (s : String) (f : Fragment) : InLine (.name s :: f) ↔ InLine f := by
  simp [InLine]

/-- A placeholder brings no text of the statement. -/
@[simp] theorem inLine_hole (v : SqlValue) (cast : Option String) (f : Fragment) :
    InLine (.hole v cast :: f) ↔ InLine f := by
  simp [InLine]

/-- Two fragments have no text that ends a line when neither of them has one. -/
@[simp] theorem inLine_append (f g : Fragment) : InLine (f ++ g) ↔ InLine f ∧ InLine g := by
  simp [InLine, or_imp, forall_and]

/-- A separator that ends no line may stand between fragments. -/
theorem InLine.joined {sep : String} (hsep : sep.toList.all Lexeme.isInLine = true)
    {fs : List Fragment} (h : ∀ f ∈ fs, InLine f) : InLine (Fragment.joined sep fs) := by
  intro s hs
  obtain heq | ⟨f, hf, hs⟩ := mem_joined hs
  · rwa [Piece.text.inj heq]
  · exact h f hf s hs

end Fragment

open Fragment (InLine)

/-- Between names stand commas. -/
theorem Identifier.listPieces_inLine (names : List String) :
    InLine (Identifier.listPieces names) := by
  refine .joined rfl (List.forall_mem_map.2 fun name _ => ?_)
  simp

/-- Between a schema and its table stands a point. -/
theorem TableName.pieces_inLine (t : TableName) : InLine t.pieces := by
  obtain ⟨schema, name⟩ := t
  cases schema <;> simp [TableName.pieces, Lexeme.isInLine]

/-! ### Clauses -/

/-- Operators are words and signs. -/
theorem Operator.sql_inLine (op : Operator) : op.sql.toList.all Lexeme.isInLine = true := by
  cases op <;> rfl

/-- **No text of a condition ends a line,** whatever it compares.  Its texts are its operator, or
the constant of an empty list, and what stands between placeholders: neither its column nor its
operand is one of them. -/
theorem Condition.pieces_inLine (o : PredicateOptions) (c : Condition) : InLine (c.pieces o) := by
  obtain ⟨column, op, operand⟩ := c
  have hop := op.sql_inLine
  match operand with
  | .list [] =>
    simp only [Condition.pieces]
    split <;> simp [Lexeme.isInLine]
  | .list (v :: vs) =>
    have hmembers : InLine (Fragment.joined ", "
        ((v :: vs).map fun v => [.hole (o.bind column v) none])) := by
      refine .joined rfl (List.forall_mem_map.2 fun v _ => ?_)
      simp
    simpa [Condition.pieces, hop, Lexeme.isInLine] using hmembers
  | .scalar v => simp [Condition.pieces, hop, Lexeme.isInLine]

namespace Filter

/-- The clause of some groups is written with parentheses, `AND` and `OR`. -/
theorem groupsPieces_inLine (o : PredicateOptions) (groups : List (List Condition)) :
    InLine (groupsPieces o groups) := by
  have hgroups : InLine (Fragment.joined ") OR (" (groups.map (groupPieces o))) := by
    refine .joined rfl (List.forall_mem_map.2 fun group _ => ?_)
    refine .joined rfl (List.forall_mem_map.2 fun c _ => ?_)
    exact c.pieces_inLine o
  simpa [groupsPieces, Lexeme.isInLine] using hgroups

/-- The clause of a filter, if it has one, has no text that ends a line. -/
theorem wherePieces_inLine (f : Filter) (softDelete : Option String) (o : PredicateOptions) :
    InLine ((f.wherePieces softDelete o).getD []) := by
  rw [wherePieces]
  cases f.guardedGroups softDelete with
  | nil => exact Fragment.inLine_nil
  | cons g gs => exact groupsPieces_inLine o (g :: gs)

end Filter

/-- An order is written with its directions and commas. -/
theorem SortOrder.pieces_inLine (order : SortOrder) : InLine order.pieces := by
  rw [SortOrder.pieces]
  split
  · exact Fragment.inLine_nil
  · rw [Fragment.inLine_text]
    refine ⟨rfl, .joined rfl fun f hf => ?_⟩
    obtain ⟨⟨column, direction⟩, -, rfl⟩ := List.mem_map.1 hf
    have hdirection : direction.sql.toList.all Lexeme.isInLine = true := by
      cases direction <;> rfl
    simp [hdirection, Lexeme.isInLine]

/-- Assignments stand on the line when the name of their source does. -/
theorem assignmentPieces_inLine {source : String}
    (hsource : source.toList.all Lexeme.isInLine = true) (columns : List String) :
    InLine (assignmentPieces source columns) := by
  refine .joined rfl (List.forall_mem_map.2 fun column _ => ?_)
  simp [hsource, Lexeme.isInLine]

/-- Conflict clauses follow each other on one line. -/
theorem conflictPieces_inLine (targets : List (List String)) (updates : List String) :
    InLine (conflictPieces targets updates) := by
  have hset : InLine (assignmentPieces "EXCLUDED" updates) := assignmentPieces_inLine rfl updates
  induction targets with
  | nil => exact Fragment.inLine_nil
  | cons target targets ih =>
    rw [conflictPieces] at ih ⊢
    rw [List.map_cons, List.flatten_cons, Fragment.inLine_append]
    exact ⟨by simp [hset, Identifier.listPieces_inLine, Lexeme.isInLine], ih⟩

/-- The groups of a merge are written with `AND` and `OR` between its comparisons. -/
theorem matchPieces_inLine (groups : List (List String)) : InLine (matchPieces groups) := by
  refine .joined rfl (List.forall_mem_map.2 fun group _ => ?_)
  have hterms : InLine (Fragment.joined " AND " (group.map fun column =>
      [.text "target.", .name column, .text " = source_data.", .name column])) := by
    refine .joined rfl (List.forall_mem_map.2 fun column _ => ?_)
    simp [Lexeme.isInLine]
  simpa [Lexeme.isInLine] using hterms

/-! ### Statements -/

namespace Compiler

variable {c : Compiler}

/-- Clauses are put side by side with blanks. -/
theorem clauses_inLine {parts : List Fragment} (h : ∀ f ∈ parts, InLine f) :
    InLine (clauses parts) :=
  .joined rfl fun f hf => h f (List.mem_of_mem_filter hf)

/-- Tuples are written with parentheses and commas around `NULL` and placeholders. -/
theorem tuples_inLine (c : Compiler) (columns : List String) (chunk : List (List Json)) :
    InLine (c.tuples columns chunk) := by
  refine .joined rfl (List.forall_mem_map.2 fun row _ => ?_)
  have hcells : InLine (Fragment.joined ", " (List.zipWith c.cell columns row)) := by
    refine .joined rfl fun f hf => ?_
    rw [← List.map_uncurry_zip_eq_zipWith, List.mem_map] at hf
    obtain ⟨⟨column, v⟩, -, rfl⟩ := hf
    rw [Function.uncurry_apply_pair, cell]
    split <;> simp [Lexeme.isInLine]
  simpa [tuple, Lexeme.isInLine] using hcells

/-- An insert has no text that ends a line unless its conflict clauses bring one. -/
theorem insertFragment_inLine (c : Compiler) (t : TableName) (columns : List String)
    (chunk : List (List Json)) {conflict : Fragment} (hconflict : InLine conflict) :
    InLine (c.insertFragment t.pieces (Identifier.listPieces columns) columns chunk conflict) := by
  have hreturning : InLine c.returning := by
    rw [returning]
    split <;> simp [Lexeme.isInLine]
  simp [insertFragment, t.pieces_inLine, Identifier.listPieces_inLine, c.tuples_inLine, hconflict,
    hreturning, Lexeme.isInLine]

/-- The texts of a merge are long, but each of them is one line. -/
theorem mergePieces_inLine (c : Compiler) (t : TableName) (columns : List String)
    (row : List Json) (groups : List (List String)) (updates : List String) :
    InLine (c.mergePieces t.pieces columns row groups updates) := by
  have hset : InLine (assignmentPieces "source_data" updates) :=
    assignmentPieces_inLine rfl updates
  simp [mergePieces, t.pieces_inLine, Identifier.listPieces_inLine, hset, matchPieces_inLine,
    conflictPieces_inLine, Lexeme.isInLine]

/-- An upsert is a merge or an insert with conflict clauses. -/
theorem upsertPieces_inLine (c : Compiler) (t : TableName) (columns : List String)
    (chunk : List (List Json)) (updates : List String) (strategy : Strategy) :
    InLine (c.upsertPieces t.pieces columns chunk updates strategy) := by
  have hinsert := c.insertFragment_inLine t columns chunk
    (conflictPieces_inLine strategy.targets updates)
  cases strategy with
  | merge groups => exact c.mergePieces_inLine t columns _ groups updates
  | plain => exact hinsert
  | onConflict target => exact hinsert
  | chained groups => exact hinsert

/-- **No fixed text of a statement ends a line.**  A statement is one of the five that a call
writes, and each of them is put together from parts of which this is known. -/
theorem inLine_of_writes {call : Call} {f : Fragment} (h : c.Writes call f) : InLine f := by
  cases h with
  | select f order softDelete page _ =>
    refine clauses_inLine ?_
    simp only [List.mem_cons, List.not_mem_nil, or_false, forall_eq_or_imp, forall_eq]
    refine ⟨?_, f.wherePieces_inLine _ _, order.pieces_inLine, ?_⟩
    · simp [TableName.pieces_inLine, Lexeme.isInLine]
    · cases page <;> simp [Page.fragment, Lexeme.isInLine]
  | count f softDelete _ =>
    refine clauses_inLine ?_
    simp only [List.mem_cons, List.not_mem_nil, or_false, forall_eq_or_imp, forall_eq]
    refine ⟨?_, f.wherePieces_inLine _ _⟩
    simp [TableName.pieces_inLine, Lexeme.isInLine]
  | delete f softDelete _ =>
    -- A removal has its clause without a guard, whether it flags rows or takes them away.
    have hclause := Filter.groupsPieces_inLine c.predicateOptions f.groups
    cases softDelete <;>
      simp [removalPieces, removalHead, TableName.pieces_inLine, hclause, Lexeme.isInLine]
  | insert rows chunk _ => exact c.insertFragment_inLine _ rows.columns chunk Fragment.inLine_nil
  | upsert rows spec chunk _ => exact c.upsertPieces_inLine _ rows.columns chunk _ _

end Compiler

/-! ### The text of a fragment -/

namespace Fragment

variable {d : Dialect} {targets : List String} {ends : Char → Bool} {f : Fragment}

/-- The characters of a placeholder are a sign, digits, and where casts are written colons and those
of its target. -/
theorem forall_mem_castPlaceholder (hd : d.Bundled) {cast : Option String} {P : Char → Prop}
    (hfixed : ∀ c ∈ ['$', '?', ':'], P c) (hdigit : ∀ c, c.isDigit = true → P c)
    (hcast : d.typeCasts = true → ∀ target ∈ cast, ∀ c ∈ target.toList, P c) (n : Nat) :
    ∀ c ∈ (d.castPlaceholder n cast).toList, P c := by
  obtain ⟨sign, hsign, heq⟩ := Dialect.castPlaceholder_of_bundled hd n cast
  intro c hc
  rw [heq, List.mem_cons, List.mem_append] at hc
  rcases hc with rfl | hc | hc
  · exact hfixed c (by rcases hsign with rfl | rfl <;> simp)
  · exact hdigit c (Text.isDigit_of_mem_decimal hc)
  · have hcasts : d.typeCasts = true := by
      by_contra hnone
      cases cast <;> simp [Dialect.castText, hnone] at hc
    rcases Dialect.mem_castText hc with rfl | ⟨target, htarget, hc⟩
    · exact hfixed _ (by simp)
    · -- Only where casts are written does a target get into the text.
      exact hcast hcasts target htarget c hc

/-- **A fragment is written on one line** when its names and the targets of its casts are.  The
quotes around a name and the digits of a placeholder end no line, and a dialect without casts writes
no target. -/
theorem isLine_sql (hd : d.Bundled) (hends : LineRule ends) (hf : Legible targets f)
    (hline : InLine f) (hnames : ∀ name ∈ names f, IsLine ends name.toList)
    (htargets : d.typeCasts = true → ∀ target ∈ targets, IsLine ends target.toList)
    (bound : Nat) :
    IsLine ends (f.sql d bound).toList := by
  induction f generalizing bound with
  | nil => exact fun c hc => by simp at hc
  | cons p f ih =>
    have hp := hf.plain p List.mem_cons_self
    cases p with
    | text s =>
      rw [inLine_text] at hline
      have hs : IsLine ends s.toList := fun c hc =>
        hends.eq_false (of_decide_eq_true (List.all_eq_true.1 hline.1 c hc))
      rw [sql_text, IsLine, List.forall_mem_append]
      exact ⟨hs, ih hf.tail hline.2 hnames bound⟩
    | name s =>
      -- Doubling quotes brings no new characters into a name.
      rw [names_name, List.forall_mem_cons] at hnames
      have hquote : ends '"' = false := hends.eq_false (by decide)
      have hrest := ih hf.tail ((inLine_name s f).1 hline) hnames.2 bound
      intro c hc
      simp only [sql_name hd, List.mem_cons, List.mem_append, Text.mem_double] at hc
      rcases hc with rfl | hc | rfl | hc
      · exact hquote
      · exact hnames.1 c hc
      · exact hquote
      · exact hrest c hc
    | hole v cast =>
      rw [sql_hole, IsLine, List.forall_mem_append]
      refine ⟨forall_mem_castPlaceholder hd ?_ (fun c => hends.eq_false_of_isDigit) ?_ _,
        ih hf.tail ((inLine_hole v cast f).1 hline) hnames _⟩
      · simp only [List.forall_mem_cons]
        exact ⟨hends.eq_false (by decide), hends.eq_false (by decide), hends.eq_false (by decide),
          by simp⟩
      · exact fun hcasts target htarget => htargets hcasts target (hp target htarget)

/-- **A fragment leaves no quote open.**  Its texts have no quotes, and a name closes the quote that
it opens, since the quotes inside it are doubled and no quote follows it. -/
theorem isOutside_run_sql (hd : d.Bundled) (hends : LineRule ends) (hf : Legible targets f)
    (hnames : ∀ name ∈ names f, IsLine ends name.toList)
    (htargets : d.typeCasts = true → ∀ target ∈ targets, ∀ c ∈ target.toList, c ≠ '\'' ∧ c ≠ '"')
    {p : Place} (hplace : p.IsOutside) (bound : Nat) :
    (Place.run ends p (f.sql d bound).toList).2.IsOutside := by
  induction f generalizing p bound with
  | nil => exact hplace
  | cons q f ih =>
    have hq := hf.plain q List.mem_cons_self
    cases q with
    | text s =>
      -- A plain text holds no quotes at all.
      rw [sql_text, Place.run_append]
      refine ih hf.tail hnames (Place.isOutside_run (fun c hc => ?_) hplace) bound
      have hplain : isPlainChar c = true := List.all_eq_true.1 hq c hc
      constructor <;> rintro rfl <;> exact absurd hplain (by decide)
    | name s =>
      -- A name opens a quote and closes it; the doubled ones inside open none.
      rw [names_name, List.forall_mem_cons] at hnames
      have htext : (sql d bound (.name s :: f)).toList =
          ('"' :: (Text.double '"' s.toList ++ ['"'])) ++ (sql d bound f).toList := by
        simp [sql_name hd]
      rw [htext, Place.run_append]
      exact ih hf.tail hnames.2 (Place.isOutside_run_name hends hplace hnames.1) bound
    | hole v cast =>
      rw [sql_hole, Place.run_append]
      refine ih hf.tail hnames (Place.isOutside_run ?_ hplace) _
      refine forall_mem_castPlaceholder hd (forall_mem_of_all (by decide)) (fun c hc => ?_)
        (fun hcasts target htarget => htargets hcasts target (hq target htarget)) _
      constructor <;> rintro rfl <;> exact absurd hc (by decide)

end Fragment
end Querysmith
