/-
# Statements are closed

A statement of any call quotes only names that the caller supplied, leaves no name open, and numbers
its placeholders through, one for each bound value.  The text of a statement is that of a fragment
that its call writes (`Writes`), and such a fragment is legible, so this is a matter of the names
that its pieces hold (`names_*`); what the names contain plays no part in it.

| call | names in the statement |
| --- | --- |
| select | table, filter, soft-delete column, order |
| count | table, filter, soft-delete column |
| delete | table, soft-delete column, filter |
| insert | table, columns of the rows |
| upsert | table, columns of the rows, columns of the constraints |
-/

import Querysmith.Proofs.Compiler.Legibility
import Querysmith.Proofs.Sql.Symbol

namespace Querysmith

open Fragment (Legible names names_joined)

/-- Joined parts hold the names of their parts. -/
theorem Fragment.names_joined_subset {sep : String} {fs : List Fragment} {supplied : List String}
    (h : ∀ f ∈ fs, names f ⊆ supplied) : names (Fragment.joined sep fs) ⊆ supplied := by
  rw [names_joined]
  intro n hn
  obtain ⟨f, hf, hn⟩ := List.mem_flatMap.1 hn
  exact h f hf hn

/-- A list of names has these names. -/
theorem Identifier.names_listPieces (ns : List String) :
    names (Identifier.listPieces ns) = ns := by
  rw [Identifier.listPieces, names_joined, List.flatMap_map]
  exact List.flatMap_singleton' ns

/-- A table has its own name behind that of its schema. -/
theorem TableName.names_pieces (t : TableName) : Fragment.names t.pieces = t.names := by
  obtain ⟨schema, name⟩ := t
  cases schema <;> rfl

/-- A condition has the name of its column, or none when its list is empty. -/
theorem Condition.names_pieces (o : PredicateOptions) (c : Condition) :
    names (c.pieces o) ⊆ [c.column] := by
  obtain ⟨column, op, operand⟩ := c
  match operand with
  | .list [] => simp [Condition.pieces]
  | .list (v :: vs) => simp [Condition.pieces, names_joined, List.flatMap_map]
  | .scalar v => simp [Condition.pieces]

namespace Filter

/-- A clause has the columns of its conditions. -/
theorem names_groupsPieces (o : PredicateOptions) (groups : List (List Condition)) :
    names (groupsPieces o groups) ⊆ groups.flatten.map (·.column) := by
  have hbranches : names (Fragment.joined ") OR (" (groups.map (groupPieces o))) ⊆
      groups.flatten.map (·.column) := by
    refine Fragment.names_joined_subset ?_
    intro f hf
    obtain ⟨group, hgroup, rfl⟩ := List.mem_map.1 hf
    refine Fragment.names_joined_subset ?_
    intro f hf
    obtain ⟨c, hc, rfl⟩ := List.mem_map.1 hf
    intro n hn
    obtain rfl : n = c.column := List.mem_singleton.1 (c.names_pieces o hn)
    exact List.mem_map_of_mem (List.mem_flatten_of_mem hgroup hc)
  simpa [groupsPieces] using hbranches

/-- The clause of a filter has the columns of its conditions and that of the guard. -/
theorem names_wherePieces (f : Filter) (softDelete : Option String) (o : PredicateOptions) :
    names ((f.wherePieces softDelete o).getD []) ⊆ f.columns ++ softDelete.toList := by
  have hguarded := f.mem_columns_guardedGroups softDelete
  rw [wherePieces]
  cases h : f.guardedGroups softDelete with
  | nil => simp
  | cons g gs =>
    rw [h] at hguarded
    intro n hn
    exact (hguarded n).1 (names_groupsPieces o (g :: gs) hn)

end Filter

/-- An order has its columns. -/
theorem SortOrder.names_pieces (order : SortOrder) :
    names order.pieces = order.columns := by
  obtain ⟨keys⟩ := order
  cases keys with
  | nil => rfl
  | cons key keys =>
    simp only [SortOrder.pieces, List.isEmpty_cons, Bool.false_eq_true, if_false,
      Fragment.names_text, names_joined, List.flatMap_map]
    exact List.flatMap_pure_eq_map _ _

/-- Assignments have the columns that they set. -/
theorem names_assignmentPieces (source : String) (columns : List String) :
    names (assignmentPieces source columns) ⊆ columns := by
  refine Fragment.names_joined_subset ?_
  intro f hf
  obtain ⟨column, hcolumn, rfl⟩ := List.mem_map.1 hf
  simpa using hcolumn

/-- Conflict clauses have the columns of their targets and those that they set. -/
theorem names_conflictPieces (targets : List (List String)) (updates : List String) :
    names (conflictPieces targets updates) ⊆ conflictNames targets updates := by
  have hset := names_assignmentPieces "EXCLUDED" updates
  intro n hn
  rw [conflictPieces, names, List.filterMap_flatten, List.map_map] at hn
  obtain ⟨clause, hclause, hn⟩ := List.mem_flatten.1 hn
  obtain ⟨target, htarget, rfl⟩ := List.mem_map.1 hclause
  have hne : targets ≠ [] := List.ne_nil_of_mem htarget
  rw [conflictNames, if_neg (by simpa using hne)]
  change n ∈ names (.text " ON CONFLICT (" :: Identifier.listPieces target ++
    .text ") DO UPDATE SET " :: assignmentPieces "EXCLUDED" updates) at hn
  rw [List.cons_append, Fragment.names_text, Fragment.names_append, Fragment.names_text,
    Identifier.names_listPieces] at hn
  rcases List.mem_append.1 hn with hn | hn
  · exact List.mem_append_right _ (List.mem_flatten_of_mem htarget hn)
  · exact List.mem_append_left _ (hset hn)

/-- The condition of a merge has the columns of its groups. -/
theorem names_matchPieces (groups : List (List String)) :
    names (matchPieces groups) ⊆ groups.flatten := by
  refine Fragment.names_joined_subset ?_
  intro f hf
  obtain ⟨group, hgroup, rfl⟩ := List.mem_map.1 hf
  have hterms : names (Fragment.joined " AND " (group.map fun column =>
      [.text "target.", .name column, .text " = source_data.", .name column])) ⊆
      groups.flatten := by
    refine Fragment.names_joined_subset ?_
    intro f hf
    obtain ⟨column, hcolumn, rfl⟩ := List.mem_map.1 hf
    simpa using ⟨group, hgroup, hcolumn⟩
  simpa using hterms

namespace Compiler

/-- Clauses have the names of their parts. -/
theorem names_clauses {parts : List Fragment} {supplied : List String}
    (h : ∀ f ∈ parts, names f ⊆ supplied) : names (clauses parts) ⊆ supplied :=
  Fragment.names_joined_subset fun f hf => h f (List.mem_of_mem_filter hf)

/-- A selection has the names of its table, its filter and its order. -/
theorem names_selectPieces (c : Compiler) (t : TableName) (f : Filter) (order : SortOrder)
    (softDelete : Option String) (page : Option Page) :
    names (c.selectPieces t f order softDelete page) ⊆
      t.names ++ (f.columns ++ softDelete.toList) ++ order.columns := by
  refine names_clauses ?_
  simp only [List.mem_cons, List.not_mem_nil, or_false, forall_eq_or_imp, forall_eq]
  refine ⟨?_, ?_, ?_, ?_⟩
  · rw [Fragment.names_text, t.names_pieces, List.append_assoc]
    exact List.subset_append_left _ _
  · intro n hn
    exact List.mem_append_left _
      (List.mem_append_right _ (f.names_wherePieces softDelete c.predicateOptions hn))
  · rw [order.names_pieces]
    exact List.subset_append_right _ _
  · cases page <;> simp [Page.fragment]

/-- A count has the names of its table and its filter. -/
theorem names_countPieces (c : Compiler) (t : TableName) (f : Filter)
    (softDelete : Option String) :
    names (c.countPieces t f softDelete) ⊆ t.names ++ (f.columns ++ softDelete.toList) := by
  refine names_clauses ?_
  simp only [List.mem_cons, List.not_mem_nil, or_false, forall_eq_or_imp, forall_eq]
  constructor
  · rw [Fragment.names_text, t.names_pieces]
    exact List.subset_append_left _ _
  · intro n hn
    exact
      List.mem_append_right _ (f.names_wherePieces softDelete c.predicateOptions hn)

/-- A removal has the names of its table, its flag and its filter. -/
theorem names_removalPieces (c : Compiler) (t : TableName) (f : Filter)
    (softDelete : Option String) :
    names (c.removalPieces t f softDelete) ⊆ t.names ++ softDelete.toList ++ f.columns := by
  have hhead : names (removalHead t softDelete) = t.names ++ softDelete.toList := by
    cases softDelete <;> simp [removalHead, t.names_pieces]
  rw [removalPieces, Fragment.names_append, hhead, Fragment.names_text]
  exact List.append_subset.2 ⟨List.subset_append_left _ _, fun n hn => List.mem_append_right _
    (Filter.names_groupsPieces c.predicateOptions f.groups hn)⟩

/-- The values of a row hold no names. -/
theorem names_tuples (c : Compiler) (columns : List String) (chunk : List (List Json)) :
    names (c.tuples columns chunk) = [] := by
  refine List.subset_nil.1 (Fragment.names_joined_subset fun f hf => ?_)
  obtain ⟨row, -, rfl⟩ := List.mem_map.1 hf
  have hcells : names (Fragment.joined ", " (List.zipWith c.cell columns row)) ⊆ [] := by
    refine Fragment.names_joined_subset ?_
    intro f hf
    rw [← List.map_uncurry_zip_eq_zipWith, List.mem_map] at hf
    obtain ⟨⟨column, v⟩, -, rfl⟩ := hf
    rw [Function.uncurry_apply_pair, cell]
    split <;> simp
  simpa [tuple] using hcells

/-- An insert has the names of its table, its columns and its conflict clauses. -/
theorem names_insertFragment (c : Compiler) (t : TableName) (columns : List String)
    (chunk : List (List Json)) (conflict : Fragment) :
    names (c.insertFragment t.pieces (Identifier.listPieces columns) columns chunk conflict) =
      t.names ++ columns ++ names conflict := by
  have hreturning : names c.returning = [] := by
    rw [returning]
    split <;> simp
  simp [insertFragment, names_tuples, hreturning, t.names_pieces, Identifier.names_listPieces]

/-- A merge has the names of its table, its columns and its groups; the first group is the one of
the conflict clause as well. -/
theorem names_mergePieces (c : Compiler) (t : TableName) (columns : List String)
    (row : List Json) (groups : List (List String)) (updates : List String) :
    names (c.mergePieces t.pieces columns row groups updates) ⊆
      t.names ++ (columns ++ (updates ++ (groups.flatten ++
        conflictNames [groups.headD []] updates))) := by
  have hset := names_assignmentPieces "source_data" updates
  have hmatch := names_matchPieces groups
  have hconflict := names_conflictPieces [groups.headD []] updates
  intro n hn
  simp only [mergePieces, List.cons_append, Fragment.names_append, Fragment.names_text,
    Fragment.names_hole, Fragment.names_nil, t.names_pieces, Identifier.names_listPieces,
    List.mem_append, List.not_mem_nil, or_false] at hn ⊢
  grind

/-- An upsert has the names that its strategy brings in, and those of its table and its columns. -/
theorem names_upsertPieces (c : Compiler) (t : TableName) (columns : List String)
    (chunk : List (List Json)) (updates : List String) (strategy : Strategy) :
    names (c.upsertPieces t.pieces columns chunk updates strategy) ⊆
      t.names ++ upsertNames columns updates strategy := by
  have hinsert : names (c.insertFragment t.pieces (Identifier.listPieces columns) columns chunk
      (conflictPieces strategy.targets updates)) ⊆
      t.names ++ (columns ++ conflictNames strategy.targets updates) := by
    rw [names_insertFragment, ← List.append_assoc]
    exact List.append_subset.2 ⟨List.subset_append_left _ _, fun n hn =>
      List.mem_append_right _ (names_conflictPieces _ _ hn)⟩
  cases strategy with
  | merge groups => exact c.names_mergePieces t columns _ groups updates
  | plain => exact hinsert
  | onConflict target => exact hinsert
  | chained groups => exact hinsert

/-- A conflict overwrites only columns of the rows. -/
theorem updateColumns_subset (columns : List String) (spec : ConstraintSpec) :
    updateColumns columns spec ⊆ columns := by
  rw [updateColumns]
  split
  · exact List.take_subset 1 columns
  · rename_i remaining _
    exact List.filter_subset_self _

/-- The groups of columns that a strategy works with. -/
def strategyGroups : Strategy → List (List String)
  | .merge groups => groups
  | strategy => strategy.targets

/-- Every strategy works with groups of the constraints. -/
theorem strategyGroups_choose_subset (d : Dialect) (spec : ConstraintSpec) (rows : Nat)
    (columns : List String) :
    strategyGroups (Strategy.choose d spec rows columns) ⊆ spec.groups := by
  rw [Strategy.choose]
  cases hfirst : spec.firstTarget? with
  | none => exact List.nil_subset _
  | some first =>
    have hmem : [first] ⊆ spec.groups := fun group hgroup => by
      obtain rfl := List.mem_singleton.1 hgroup
      exact List.mem_of_head? hfirst
    simp only
    split
    · exact hmem
    · split
      · exact List.Subset.refl _
      · split
        · exact List.filter_subset_self _
        · exact hmem

/-- The names of conflict clauses come from the records and from the constraints. -/
theorem conflictNames_subset {groups : List (List String)} {updates columns : List String}
    {spec : ConstraintSpec} (hgroups : ∀ group ∈ groups, group ⊆ spec.columns)
    (hupdates : updates ⊆ columns) : conflictNames groups updates ⊆ columns ++ spec.columns := by
  rw [conflictNames]
  split
  · exact List.nil_subset _
  · refine List.append_subset.2 ⟨List.subset_append_of_subset_left _ hupdates, fun n hn => ?_⟩
    obtain ⟨group, hgroup, hn⟩ := List.mem_flatten.1 hn
    exact List.mem_append_right _ (hgroups group hgroup hn)

/-- The names of a chunk are columns of the rows and of the constraints. -/
theorem upsertNames_subset (c : Compiler) (rows : RowSet) (spec : ConstraintSpec)
    (chunk : List (List Json)) :
    upsertNames rows.columns (updateColumns rows.columns spec) (c.strategyOf rows spec chunk) ⊆
      rows.columns ++ spec.columns := by
  have hupdates := updateColumns_subset rows.columns spec
  have hgroups : ∀ group ∈ strategyGroups (c.strategyOf rows spec chunk),
      group ⊆ spec.columns := fun group hgroup n hn =>
    List.mem_flatten_of_mem (strategyGroups_choose_subset _ _ _ _ hgroup) hn
  cases h : c.strategyOf rows spec chunk with
  | merge groups =>
    -- A merge compares all its groups, and its insert has the first of them for a target.
    rw [h] at hgroups
    have hfirst : ∀ group ∈ [groups.headD []], group ⊆ spec.columns := by
      rw [List.forall_mem_singleton]
      cases groups with
      | nil => exact List.nil_subset _
      | cons group groups => exact hgroups group List.mem_cons_self
    have hflatten : groups.flatten ⊆ spec.columns := fun n hn => by
      obtain ⟨group, hgroup, hn⟩ := List.mem_flatten.1 hn
      exact hgroups group hgroup hn
    simp only [upsertNames, List.append_subset]
    exact ⟨List.subset_append_left _ _, List.subset_append_of_subset_left _ hupdates,
      List.subset_append_of_subset_right _ hflatten, conflictNames_subset hfirst hupdates⟩
  | plain =>
    rw [h] at hgroups
    exact List.append_subset.2 ⟨List.subset_append_left _ _, conflictNames_subset hgroups hupdates⟩
  | onConflict target =>
    rw [h] at hgroups
    exact List.append_subset.2 ⟨List.subset_append_left _ _, conflictNames_subset hgroups hupdates⟩
  | chained groups =>
    rw [h] at hgroups
    exact List.append_subset.2 ⟨List.subset_append_left _ _, conflictNames_subset hgroups hupdates⟩

/-- A call of the compiler. -/
inductive Call where
  | select (table : String) (f : Filter) (order : SortOrder) (softDelete : Option String)
      (page : Option Page)
  | count (table : String) (f : Filter) (softDelete : Option String)
  | delete (table : String) (f : Filter) (softDelete : Option String)
  | insert (table : String) (rows : RowSet)
  | upsert (table : String) (rows : RowSet) (spec : ConstraintSpec)

/-- The statements of a call. -/
def statements (c : Compiler) : Call → Except Error (List Statement)
  | .select table f order softDelete page =>
    (c.select table f order softDelete page).map ([·])
  | .count table f softDelete => (c.count table f softDelete).map ([·])
  | .delete table f softDelete => (c.delete table f softDelete).map ([·])
  | .insert table rows => (c.insert table rows).map (·.statements)
  | .upsert table rows spec => (c.upsert table rows spec).map (·.statements)

/-- The names that a caller means by the text of a table: the parts around its first dot, or the
whole text in the schema of the compiler. -/
def tableNames (c : Compiler) (table : String) : List String :=
  match Text.splitOnce table "." with
  | some (schema, name) => [schema, name]
  | none => c.options.schema.toList ++ [table]

/-- A table that was taken apart has the names that the caller gave for it. -/
theorem names_of_resolve {c : Compiler} {table : String} {t : TableName}
    (h : TableName.resolve table c.options.schema = .ok t) : t.names = c.tableNames table := by
  rw [TableName.resolve] at h
  rw [tableNames]
  cases hsplit : Text.splitOnce table "." with
  | none =>
    simp only [hsplit] at h
    split at h
    · cases h
    · cases h
      rfl
  | some parts =>
    simp only [hsplit] at h
    split at h
    · cases h
    · cases h
      rfl

/-- The names that a caller supplies with a call. -/
def suppliedNames (c : Compiler) : Call → List String
  | .select table f order softDelete _ =>
    c.tableNames table ++ (f.columns ++ softDelete.toList) ++ order.columns
  | .count table f softDelete => c.tableNames table ++ (f.columns ++ softDelete.toList)
  | .delete table f softDelete => c.tableNames table ++ softDelete.toList ++ f.columns
  | .insert table rows => c.tableNames table ++ rows.columns
  | .upsert table rows spec => c.tableNames table ++ (rows.columns ++ spec.columns)

/-- **The fragments that a call writes,** one for a read or a removal and one for each chunk of a
write. -/
inductive Writes (c : Compiler) : Call → Fragment → Prop
  | select {table : String} {t : TableName} (f : Filter) (order : SortOrder)
      (softDelete : Option String) (page : Option Page) :
      TableName.resolve table c.options.schema = .ok t →
      Writes c (.select table f order softDelete page) (c.selectPieces t f order softDelete page)
  | count {table : String} {t : TableName} (f : Filter) (softDelete : Option String) :
      TableName.resolve table c.options.schema = .ok t →
      Writes c (.count table f softDelete) (c.countPieces t f softDelete)
  | delete {table : String} {t : TableName} (f : Filter) (softDelete : Option String) :
      TableName.resolve table c.options.schema = .ok t →
      Writes c (.delete table f softDelete) (c.removalPieces t f softDelete)
  | insert {table : String} {t : TableName} (rows : RowSet) (chunk : List (List Json)) :
      TableName.resolve table c.options.schema = .ok t →
      Writes c (.insert table rows) (c.insertFragment t.pieces (Identifier.listPieces rows.columns)
        rows.columns chunk [])
  | upsert {table : String} {t : TableName} (rows : RowSet) (spec : ConstraintSpec)
      (chunk : List (List Json)) :
      TableName.resolve table c.options.schema = .ok t →
      Writes c (.upsert table rows spec) (c.upsertPieces t.pieces rows.columns chunk
        (updateColumns rows.columns spec) (c.strategyOf rows spec chunk))

/-- Every statement is the text of a fragment that its call writes. -/
theorem exists_writes_of_statements {c : Compiler} {call : Call} {ss : List Statement}
    (h : c.statements call = .ok ss) :
    ∀ s ∈ ss, ∃ f returnsRows, c.Writes call f ∧ s = .ofFragment c.dialect f returnsRows := by
  cases call with
  | select table f order softDelete page =>
    obtain ⟨s, hs, rfl⟩ := exists_of_map_eq_ok h
    obtain ⟨t, ht⟩ := exists_resolve_of_ok hs
    obtain ⟨-, rfl⟩ := (select_yields ht f order softDelete page).eq_of_ok hs
    rw [List.forall_mem_singleton]
    exact ⟨_, _, .select f order softDelete page ht, rfl⟩
  | count table f softDelete =>
    obtain ⟨s, hs, rfl⟩ := exists_of_map_eq_ok h
    obtain ⟨t, ht⟩ := exists_resolve_of_ok hs
    obtain ⟨-, rfl⟩ := (count_yields ht f softDelete).eq_of_ok hs
    rw [List.forall_mem_singleton]
    exact ⟨_, _, .count f softDelete ht, rfl⟩
  | delete table f softDelete =>
    obtain ⟨s, hs, rfl⟩ := exists_of_map_eq_ok h
    obtain ⟨t, ht⟩ := exists_resolve_of_delete hs
    obtain ⟨-, rfl⟩ := (delete_yields ht (paramCount_ne_zero_of_ok hs) softDelete).eq_of_ok hs
    rw [List.forall_mem_singleton]
    exact ⟨_, _, .delete f softDelete ht, rfl⟩
  | insert table rows =>
    obtain ⟨plan, hplan, rfl⟩ := exists_of_map_eq_ok h
    obtain ⟨t, ht⟩ := exists_resolve_of_ok hplan
    obtain ⟨-, rfl⟩ := (insert_yields ht rows).eq_of_ok hplan
    -- A write has a fragment for each chunk.
    rw [List.forall_mem_map]
    exact fun chunk _ => ⟨_, _, .insert rows chunk ht, rfl⟩
  | upsert table rows spec =>
    obtain ⟨plan, hplan, rfl⟩ := exists_of_map_eq_ok h
    obtain ⟨t, ht⟩ := exists_resolve_of_upsert hplan
    obtain ⟨-, rfl⟩ := (upsert_yields ht rows spec).eq_of_ok hplan
    rw [List.forall_mem_map]
    exact fun chunk _ => ⟨_, _, .upsert rows spec chunk ht, rfl⟩

/-- **Everything that a call writes is legible.** -/
theorem legible_of_writes {c : Compiler} {call : Call} {f : Fragment} (h : c.Writes call f) :
    Legible c.castTargets f := by
  cases h with
  | select f order softDelete page _ => exact c.selectPieces_legible _ f order softDelete page
  | count f softDelete _ => exact c.countPieces_legible _ f softDelete
  | delete f softDelete _ => exact c.removalPieces_legible _ f softDelete
  | insert rows chunk _ => exact c.insertFragment_legible _ rows.columns chunk [] []
  | upsert rows spec chunk _ => exact c.upsertPieces_legible _ rows.columns chunk _ _

/-- **Everything that a call writes has names that were given to the call.** -/
theorem names_of_writes {c : Compiler} {call : Call} {f : Fragment} (h : c.Writes call f) :
    names f ⊆ c.suppliedNames call := by
  cases h with
  | select f order softDelete page ht =>
    rw [suppliedNames, ← names_of_resolve ht]
    exact c.names_selectPieces _ f order softDelete page
  | count f softDelete ht =>
    rw [suppliedNames, ← names_of_resolve ht]
    exact c.names_countPieces _ f softDelete
  | delete f softDelete ht =>
    rw [suppliedNames, ← names_of_resolve ht]
    exact c.names_removalPieces _ f softDelete
  | insert rows chunk ht =>
    rw [suppliedNames, ← names_of_resolve ht, names_insertFragment]
    exact List.append_subset.2 ⟨List.Subset.refl _, List.nil_subset _⟩
  | upsert rows spec chunk ht =>
    rw [suppliedNames, ← names_of_resolve ht]
    -- Only here do names come from the constraints too.
    refine List.Subset.trans (c.names_upsertPieces _ rows.columns chunk _ _) ?_
    exact List.append_subset.2 ⟨List.subset_append_left _ _, List.subset_append_of_subset_right _
        (c.upsertNames_subset rows spec chunk)⟩

/-- The statement is written by a legible fragment that holds no other names. -/
def IsWritten (c : Compiler) (supplied : List String) (s : Statement) : Prop :=
  ∃ f returnsRows, s = .ofFragment c.dialect f returnsRows ∧ Legible c.castTargets f ∧
    names f ⊆ supplied

/-- **Every statement is written by a legible fragment,** with no names but those of its call. -/
theorem isWritten_of_statements {c : Compiler} {call : Call} {ss : List Statement}
    (h : c.statements call = .ok ss) : ∀ s ∈ ss, c.IsWritten (c.suppliedNames call) s := by
  intro s hs
  obtain ⟨f, returnsRows, hwrites, rfl⟩ := exists_writes_of_statements h s hs
  exact ⟨f, returnsRows, rfl, legible_of_writes hwrites, names_of_writes hwrites⟩

end Compiler

/-- The statement leaves no name open, quotes only supplied names, and numbers its placeholders
through, each once and in reading order, one for each bound value. -/
def Statement.IsClosed (supplied : List String) (s : Statement) : Prop :=
  ∃ symbols, Sql.Symbol.read? s.sql.toList = some symbols ∧
    (∀ name ∈ Sql.Symbol.names symbols, name ∈ supplied) ∧
    Sql.Symbol.numbers symbols = List.range' 1 s.params.length

namespace Compiler

/-- **Every statement of every call is closed,** whatever its names and values hold, when no target
of a cast holds a quote or the sign of a placeholder. -/
theorem isClosed_of_statements {c : Compiler} (hd : c.dialect.Bundled)
    (hcasts : ∀ rule ∈ c.casts.rules, ∀ ch ∈ rule.target.toList, ch ≠ '"' ∧ ch ≠ '$' ∧ ch ≠ '?')
    {call : Call} {ss : List Statement} (h : c.statements call = .ok ss) :
    ∀ s ∈ ss, s.IsClosed (c.suppliedNames call) := by
  have htargets : ∀ target ∈ c.castTargets, ∀ ch ∈ target.toList,
      ch ≠ '"' ∧ ch ≠ '$' ∧ ch ≠ '?' := by
    rw [castTargets, List.forall_mem_cons, List.forall_mem_map]
    exact ⟨forall_mem_of_all (by decide), hcasts⟩
  have hquote : ∀ target ∈ c.castTargets, '"' ∉ target.toList := fun target ht hmem =>
    (htargets target ht _ hmem).1 rfl
  have hmark : ∀ target ∈ c.castTargets, ∀ ch ∈ target.toList, Sql.Symbol.isMark ch = false :=
    fun target ht ch hch => by simp [Sql.Symbol.isMark, htargets target ht ch hch]
  intro s hs
  obtain ⟨f, returnsRows, rfl, hlegible, hnames⟩ := isWritten_of_statements h s hs
  refine ⟨f.symbols c.dialect 0, Fragment.symbols_sql hd hlegible hquote 0, ?_, ?_⟩
  · rw [Fragment.names_symbols]
    exact hnames
  · exact Fragment.numbers_symbols hd hlegible hmark 0

/-- A selection whose names hold quotes and signs of placeholders. -/
theorem isClosed_select_quoted :
    ∃ ss, (ofDialect .postgres).statements (.select "public.a\"b"
      (.and [.equal "x\" = $9" (.int 1), .inList "y" [.int 2, .null]]) ⟨[⟨"?1", .descending⟩]⟩
      (some "gone") (some {})) = .ok ss ∧ ss.length = 1 ∧
      ∀ s ∈ ss, s.IsClosed ["public", "a\"b", "x\" = $9", "y", "gone", "?1"] := by
  have hrules : ∀ rule ∈ (ofDialect .postgres).casts.rules, rule.target.toList.all
      (fun ch => decide (ch ≠ '"' ∧ ch ≠ '$' ∧ ch ≠ '?')) = true := forall_mem_of_all (by decide)
  have ht : TableName.resolve "public.a\"b" (ofDialect .postgres).options.schema =
      .ok ⟨some "public", "a\"b"⟩ := by
    rfl
  have hs := (select_yields ht (.and [.equal "x\" = $9" (.int 1), .inList "y" [.int 2, .null]])
    ⟨[⟨"?1", .descending⟩]⟩ (some "gone") (some {}) _).2 ⟨by decide, rfl⟩
  have h : (ofDialect .postgres).statements (.select _ _ _ _ _) = _ :=
    congrArg (Except.map fun s => [s]) hs
  exact ⟨_, h, rfl, isClosed_of_statements .postgres
    (fun rule hrule => forall_mem_of_all (hrules rule hrule)) h⟩

end Compiler
end Querysmith
