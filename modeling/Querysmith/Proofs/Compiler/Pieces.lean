/-
# The pieces of every statement

The builders of a statement check each name before they write it.  Here is what they write when all
names are usable, as plain fragments without checks, and for each builder the statement that it
succeeds exactly when the names it is given are usable and then with that fragment.  Everything that
is said about the text of statements is said about these fragments.
-/

import Querysmith.Compiler.Read
import Querysmith.Compiler.Upsert
import Querysmith.Proofs.Success

namespace Querysmith

/-- No name is empty or holds a NUL. -/
def AllUsable (names : List String) : Prop := ∀ name ∈ names, Identifier.isUsable name = true

instance (names : List String) : Decidable (AllUsable names) :=
  inferInstanceAs (Decidable (∀ name ∈ names, Identifier.isUsable name = true))

/-- Nothing is wrong with no names at all. -/
@[simp] theorem allUsable_nil : AllUsable [] ↔ True := by simp [AllUsable]

/-- The names of a list are usable when the first one is and those behind it are. -/
@[simp] theorem allUsable_cons (name : String) (names : List String) :
    AllUsable (name :: names) ↔ Identifier.isUsable name = true ∧ AllUsable names := by
  simp [AllUsable]

/-- Two lists of names are usable together when each of them is. -/
@[simp] theorem allUsable_append (xs ys : List String) :
    AllUsable (xs ++ ys) ↔ AllUsable xs ∧ AllUsable ys := by
  simp [AllUsable, or_imp, forall_and]

/-- The names that are made of some items are usable when each of them is. -/
theorem allUsable_map {α : Type} (f : α → String) (xs : List α) :
    AllUsable (xs.map f) ↔ ∀ x ∈ xs, Identifier.isUsable (f x) = true := by
  simp [AllUsable]

/-- The names of a list of groups are usable when those of every group are. -/
theorem allUsable_flatten (xss : List (List String)) :
    AllUsable xss.flatten ↔ ∀ xs ∈ xss, AllUsable xs := by
  simp only [AllUsable, List.mem_flatten]
  exact ⟨fun h xs hxs x hx => h x ⟨xs, hxs, hx⟩, fun h x ⟨xs, hxs, hx⟩ => h xs hxs x hx⟩

namespace Identifier

/-- **A name is written when it is usable,** and as one piece.  Every other builder leaves the
checks of its names to this one. -/
theorem fragment_yields (name : String) :
    Yields (fragment name) (isUsable name = true) [.name name] := fun r => by
  rw [fragment]
  cases h : check name with
  | error e =>
    have : isUsable name ≠ true := fun hu => by simp [check_eq_ok_iff.2 hu] at h
    simp [this, bind, Except.bind]
  | ok _ =>
    simp only [check_eq_ok_iff.1 h, true_and]
    exact ⟨fun hr => (Except.ok.inj hr).symm, fun hr => hr ▸ rfl⟩

/-- Names with commas between them. -/
def listPieces (names : List String) : Fragment :=
  Fragment.joined ", " (names.map fun name => [.name name])

/-- A list of names is written when each of them is usable. -/
theorem listFragment_yields (names : List String) :
    Yields (listFragment names) (AllUsable names) (listPieces names) :=
  (Yields.mapM fragment_yields names).bind_pure _

end Identifier

namespace TableName

/-- The names of a table: its schema, if any, and its own. -/
def names (t : TableName) : List String := t.schema.toList ++ [t.name]

/-- A table behind its schema. -/
def pieces (t : TableName) : Fragment :=
  match t.schema with
  | some schema => [.name schema, .text ".", .name t.name]
  | none => [.name t.name]

/-- A table is written when its own name and that of its schema are usable. -/
theorem fragment_yields (t : TableName) : Yields t.fragment (AllUsable t.names) t.pieces := by
  obtain ⟨schema, name⟩ := t
  cases schema with
  | none =>
    refine ((Identifier.fragment_yields name).bind_pure _).congr ?_
    simp [names]
  | some schema =>
    -- The name is checked before the schema, though it is written behind it.
    refine Yields.congr ((Identifier.fragment_yields name).bind
      ((Identifier.fragment_yields schema).bind_pure _)) ?_
    simp [names, and_comm]

end TableName

namespace Condition

/-- The pieces of a condition. -/
def pieces (o : PredicateOptions) (c : Condition) : Fragment :=
  match c.operand with
  | .list [] => [.text (if c.operator = .isIn then "1 = 0" else "1 = 1")]
  | .list members =>
    .name c.column :: .text (" " ++ c.operator.sql ++ " (") ::
      Fragment.joined ", " (members.map fun v => [.hole (o.bind c.column v) none]) ++ [.text ")"]
  | .scalar v =>
    [.name c.column, .text (" " ++ c.operator.sql ++ " "),
      .hole (if c.operator.isPattern then o.pattern v else o.bind c.column v) none]

/-- **A condition is written when its column is usable,** also where an empty list leaves the column
out of the text. -/
theorem fragment_yields (o : PredicateOptions) (c : Condition) :
    Yields (c.fragment o) (Identifier.isUsable c.column = true) (c.pieces o) := by
  obtain ⟨column, op, operand⟩ := c
  match operand with
  | .list [] => exact (Identifier.fragment_yields column).bind_pure _
  | .list (_ :: _) => exact (Identifier.fragment_yields column).bind_pure _
  | .scalar _ => exact (Identifier.fragment_yields column).bind_pure _

end Condition

namespace Filter

/-- The columns of the conditions of a filter. -/
def columns (f : Filter) : List String := f.groups.flatten.map (·.column)

/-- The pieces of a group. -/
def groupPieces (o : PredicateOptions) (group : List Condition) : Fragment :=
  Fragment.joined " AND " (group.map (Condition.pieces o))

/-- The pieces of the clause of a list of groups. -/
def groupsPieces (o : PredicateOptions) (groups : List (List Condition)) : Fragment :=
  .text "WHERE ((" :: Fragment.joined ") OR (" (groups.map (groupPieces o)) ++ [.text "))"]

/-- The clause of a filter, if it has one. -/
def wherePieces (f : Filter) (softDelete : Option String) (o : PredicateOptions) :
    Option Fragment :=
  match f.guardedGroups softDelete with
  | [] => none
  | groups => some (groupsPieces o groups)

/-- A group is written when the columns of all its conditions are usable. -/
theorem groupFragment_yields (o : PredicateOptions) (group : List Condition) :
    Yields (groupFragment o group) (AllUsable (group.map (·.column))) (groupPieces o group) :=
  ((Yields.mapM (Condition.fragment_yields o) group).bind_pure _).congr
    (allUsable_map _ _).symm

/-- The clause of some groups is written when the columns of all their conditions are usable. -/
theorem groupsFragment_yields (o : PredicateOptions) (groups : List (List Condition)) :
    Yields (groupsFragment o groups) (AllUsable (groups.flatten.map (·.column)))
      (groupsPieces o groups) := by
  refine ((Yields.mapM (groupFragment_yields o) groups).bind_pure _).congr ?_
  rw [List.map_flatten, allUsable_flatten, List.forall_mem_map]

/-- The column of the guard joins those of the filter. -/
theorem mem_columns_guardedGroups (f : Filter) (softDelete : Option String) (name : String) :
    name ∈ (f.guardedGroups softDelete).flatten.map (·.column) ↔
      name ∈ f.columns ++ softDelete.toList := by
  have hguard : (guard softDelete).map (·.column) = softDelete.toList := by
    cases softDelete <;> rfl
  obtain ⟨groups⟩ := f
  rw [guardedGroups, columns, matchesAll]
  cases groups with
  | nil => cases softDelete <;> simp [guard, Condition.equal, Condition.scalar]
  | cons g gs =>
    -- The guard stands in every group, so its column is found in the first one already.
    rw [if_neg (by simp), List.mem_append, ← hguard]
    simp only [List.mem_map, List.mem_flatten]
    constructor
    · rintro ⟨c, ⟨guarded, ⟨group, hgroup, rfl⟩, hc⟩, rfl⟩
      rcases List.mem_append.1 hc with hc | hc
      · exact .inl ⟨c, ⟨group, hgroup, hc⟩, rfl⟩
      · exact .inr ⟨c, hc, rfl⟩
    · rintro (⟨c, ⟨group, hgroup, hc⟩, rfl⟩ | ⟨c, hc, rfl⟩)
      · exact ⟨c, ⟨_, ⟨group, hgroup, rfl⟩, List.mem_append_left _ hc⟩, rfl⟩
      · exact ⟨c, ⟨_, ⟨g, List.mem_cons_self, rfl⟩, List.mem_append_right _ hc⟩, rfl⟩

/-- **The clause of a filter is written when its columns are usable,** and that of the guard with
them.  A filter without a clause has no columns, so then nothing is asked for. -/
theorem whereFragment_yields (f : Filter) (softDelete : Option String) (o : PredicateOptions) :
    Yields (f.whereFragment softDelete o) (AllUsable (f.columns ++ softDelete.toList))
      (f.wherePieces softDelete o) := by
  -- Names are checked in the order of the text; which ones have to be usable is a matter of
  -- membership alone.
  refine Yields.congr ?_ (forall_congr' fun name =>
    imp_congr_left (f.mem_columns_guardedGroups softDelete name))
  rw [whereFragment, wherePieces]
  cases f.guardedGroups softDelete with
  | nil => exact (Yields.pure _).congr (by simp)
  | cons g gs => exact (groupsFragment_yields o (g :: gs)).bind_pure some

end Filter

namespace SortOrder

/-- The columns of an order. -/
def columns (order : SortOrder) : List String := order.keys.map (·.column)

/-- The pieces of an order. -/
def pieces (order : SortOrder) : Fragment :=
  if order.keys.isEmpty then []
  else .text "ORDER BY " :: Fragment.joined ", " (order.keys.map fun key =>
    [.name key.column, .text (" " ++ key.direction.sql)])

/-- An order is written when its columns are usable. -/
theorem fragment_yields (order : SortOrder) :
    Yields order.fragment (AllUsable order.columns) order.pieces := by
  obtain ⟨keys⟩ := order
  cases keys with
  | nil => exact (Yields.pure _).congr (by simp [columns])
  | cons key keys =>
    have hkey : ∀ key : SortKey, Yields key.fragment (Identifier.isUsable key.column = true)
        [.name key.column, .text (" " ++ key.direction.sql)] := fun key =>
      (Identifier.fragment_yields key.column).bind_pure _
    exact ((Yields.mapM hkey (key :: keys)).bind_pure _).congr (allUsable_map _ _).symm

end SortOrder

/-- The pieces of `column = source.column` for each column. -/
def assignmentPieces (source : String) (columns : List String) : Fragment :=
  Fragment.joined ", " (columns.map fun column =>
    [.name column, .text (" = " ++ source ++ "."), .name column])

/-- Assignments are written when their columns are usable; each column is checked once and written
twice. -/
theorem assignments_yields (source : String) (columns : List String) :
    Yields (assignments source columns) (AllUsable columns) (assignmentPieces source columns) := by
  have h := (Yields.mapM Identifier.fragment_yields columns).bind_pure fun names =>
    Fragment.joined ", " (names.map fun name => name ++ .text (" = " ++ source ++ ".") :: name)
  rw [List.map_map] at h
  exact h

/-- The names of the conflict clauses for some targets: there are none without targets. -/
def conflictNames (targets : List (List String)) (updates : List String) : List String :=
  if targets.isEmpty then [] else updates ++ targets.flatten

/-- The pieces of one `ON CONFLICT` clause for each target. -/
def conflictPieces (targets : List (List String)) (updates : List String) : Fragment :=
  (targets.map fun target => .text " ON CONFLICT (" :: Identifier.listPieces target ++
    .text ") DO UPDATE SET " :: assignmentPieces "EXCLUDED" updates).flatten

/-- **Conflict clauses are written when all their names are usable.**  Without a target none is
written, and the columns that would be set are not looked at. -/
theorem conflictClauses_yields (targets : List (List String)) (updates : List String) :
    Yields (conflictClauses targets updates) (AllUsable (conflictNames targets updates))
      (conflictPieces targets updates) := by
  cases targets with
  | nil => exact (Yields.pure _).congr (by simp [conflictNames])
  | cons target targets =>
    have hclause := fun target =>
      (Identifier.listFragment_yields target).bind_pure fun target =>
        .text " ON CONFLICT (" :: target ++
          .text ") DO UPDATE SET " :: assignmentPieces "EXCLUDED" updates
    -- The assignments are made once, before the clauses that all end with them.
    refine Yields.congr ((assignments_yields "EXCLUDED" updates).bind
      ((Yields.mapM hclause (target :: targets)).bind_pure _)) ?_
    rw [conflictNames, if_neg (by simp), allUsable_append, allUsable_flatten]

/-- The pieces of the condition that a row and the source agree on one of the groups. -/
def matchPieces (groups : List (List String)) : Fragment :=
  Fragment.joined " OR " (groups.map fun group =>
    .text "(" :: Fragment.joined " AND " (group.map fun column =>
      [.text "target.", .name column, .text " = source_data.", .name column]) ++ [.text ")"])

/-- The condition of a merge is written when the columns of all groups are usable. -/
theorem groupMatches_yields (groups : List (List String)) :
    Yields (groupMatches groups) (AllUsable groups.flatten) (matchPieces groups) := by
  have hgroup := fun group => (Yields.mapM Identifier.fragment_yields group).bind_pure
    fun names => .text "(" :: Fragment.joined " AND " (names.map fun name =>
      .text "target." :: name ++ .text " = source_data." :: name) ++ [.text ")"]
  have h := ((Yields.mapM hgroup groups).bind_pure (Fragment.joined " OR ")).congr
    (allUsable_flatten groups).symm
  simp only [List.map_map] at h
  exact h

end Querysmith
