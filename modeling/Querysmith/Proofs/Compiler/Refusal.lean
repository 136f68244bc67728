/-
# Calls that are refused

A call of the compiler is refused for its names and for nothing else, a removal without bound values
apart.  Names come in with the table, the filter, the soft-delete column, the order and the records,
and each is checked where it is written, so two things are said of every builder: that it succeeds
just when its names are usable (`Yields`), and that it fails with an invalid identifier if it fails
at all (`FailsOnNames`).  Together they decide the outcome of every call (`outcome_of_calls`).
-/

import Querysmith.Proofs.Compiler.Closed
import Querysmith.Proofs.Normalizer.Forms

namespace Querysmith

variable {α β : Type}

/-- The program fails on names only. -/
def FailsOnNames (p : Except Error α) : Prop :=
  ∀ err, p = .error err → ∃ fault, err = .invalidIdentifier fault

namespace FailsOnNames

/-- A success is no failure. -/
theorem pure (a : α) : FailsOnNames (Pure.pure a) := by
  intro err h
  cases h

/-- A sequence fails where one of its parts does, the second one with a result of the first. -/
theorem bind_of_ok {p : Except Error α} {f : α → Except Error β} (hp : FailsOnNames p)
    (hf : ∀ a, p = .ok a → FailsOnNames (f a)) : FailsOnNames (p >>= f) := by
  intro err h
  cases hresult : p with
  | error err' =>
    rw [hresult] at h
    obtain rfl : err' = err := Except.error.inj h
    exact hp err' hresult
  | ok a =>
    rw [hresult] at h
    exact hf a hresult err h

/-- Two steps fail on names when each of them does. -/
theorem bind {p : Except Error α} {f : α → Except Error β} (hp : FailsOnNames p)
    (hf : ∀ a, FailsOnNames (f a)) : FailsOnNames (p >>= f) :=
  hp.bind_of_ok fun a _ => hf a

/-- What is made of a result fails with it. -/
theorem map {p : Except Error α} (hp : FailsOnNames p) (f : α → β) :
    FailsOnNames (p.map f) := by
  intro err h
  cases hresult : p with
  | error err' =>
    rw [hresult] at h
    obtain rfl : err' = err := Except.error.inj h
    exact hp err' hresult
  | ok a =>
    rw [hresult] at h
    cases h

/-- A list of programs fails where one of them does. -/
theorem mapM {f : α → Except Error β} {xs : List α} (hf : ∀ x ∈ xs, FailsOnNames (f x)) :
    FailsOnNames (xs.mapM f) := by
  induction xs with
  | nil => exact pure []
  | cons x xs ih =>
    rw [List.forall_mem_cons] at hf
    rw [List.mapM_cons]
    exact hf.1.bind fun y => (ih hf.2).bind fun ys => pure (y :: ys)

end FailsOnNames

/-- The call succeeds exactly under the condition, and otherwise fails on a name. -/
def Requires (p : Except Error α) (condition : Prop) : Prop :=
  ((∃ a, p = .ok a) ↔ condition) ∧ FailsOnNames p

/-! ### Names -/

namespace Identifier

/-- A name is refused for itself. -/
theorem check_failsOnNames (name : String) : FailsOnNames (check name) := by
  intro err h
  unfold check at h
  split at h
  · exact ⟨.empty, (Except.error.inj h).symm⟩
  · split at h
    · exact ⟨.holdsNul name, (Except.error.inj h).symm⟩
    · cases h

/-- Writing a name fails on that name. -/
theorem fragment_failsOnNames (name : String) : FailsOnNames (fragment name) :=
  (check_failsOnNames name).bind fun _ => .pure _

/-- Writing a list of names fails on one of them. -/
theorem listFragment_failsOnNames (names : List String) : FailsOnNames (listFragment names) :=
  (FailsOnNames.mapM fun name _ => fragment_failsOnNames name).bind fun _ => .pure _

end Identifier

/-! ### Tables -/

namespace Text

/-- A text is split where its first dot stands. -/
theorem splitOnce_point {table before after : String} :
    splitOnce table "." = some (before, after) ↔
      table = before ++ "." ++ after ∧ '.' ∉ before.toList := by
  have hpoint : ".".toList = ['.'] := rfl
  rw [splitOnce, hpoint]
  constructor
  · intro h
    obtain ⟨⟨front, back⟩, hsplit, heq⟩ := Option.map_eq_some_iff.1 h
    obtain ⟨rfl, rfl⟩ := Prod.mk.inj heq
    refine ⟨String.toList_inj.1 ?_, ?_⟩
    · simpa using eq_of_splitFirst hsplit
    · simpa using not_mem_of_splitFirst hsplit
  · rintro ⟨rfl, hbefore⟩
    have hlist : (before ++ "." ++ after).toList = before.toList ++ '.' :: after.toList := by
      simp
    rw [hlist, splitFirst_append hbefore]
    simp

/-- A text without a dot is not split. -/
theorem splitOnce_point_eq_none {table : String} :
    splitOnce table "." = none ↔ '.' ∉ table.toList := by
  constructor
  · intro h hmem
    obtain ⟨before, after, heq, hbefore⟩ := List.eq_append_cons_of_mem hmem
    have hpoint : ".".toList = ['.'] := rfl
    rw [splitOnce, hpoint, heq, splitFirst_append hbefore] at h
    cases h
  · intro h
    cases hsplit : splitOnce table "." with
    | none => rfl
    | some halves =>
      obtain ⟨before, after⟩ := halves
      obtain ⟨rfl, -⟩ := splitOnce_point.1 hsplit
      simp at h

end Text

namespace TableName

/-- What the text of a table names: the schema before its first dot and the table behind it, or the
table alone, in the default schema if there is one. -/
inductive Parts (schema : Option String) : String → List String → Prop
  | qualified {before : String} (after : String) : '.' ∉ before.toList →
      Parts schema (before ++ "." ++ after) [before, after]
  | plain {table : String} : '.' ∉ table.toList → Parts schema table (schema.toList ++ [table])

/-- Taking a table apart fails on its name. -/
theorem resolve_failsOnNames (table : String) (schema : Option String) :
    FailsOnNames (resolve table schema) := by
  intro err h
  unfold resolve at h
  split at h
  split at h
  · exact ⟨.badTable table, (Except.error.inj h).symm⟩
  · cases h

/-- Writing a table fails on its name or that of its schema. -/
theorem fragment_failsOnNames (t : TableName) : FailsOnNames t.fragment := by
  obtain ⟨schema, name⟩ := t
  refine (Identifier.fragment_failsOnNames name).bind fun _ => ?_
  cases schema with
  | none => exact .pure _
  | some schema => exact (Identifier.fragment_failsOnNames schema).bind fun _ => .pure _

end TableName

/-! ### Clauses -/

/-- **A condition fails on the name of its column,** never on its operand. -/
theorem Condition.fragment_failsOnNames (o : PredicateOptions) (c : Condition) :
    FailsOnNames (c.fragment o) := by
  obtain ⟨column, op, operand⟩ := c
  refine (Identifier.fragment_failsOnNames column).bind fun _ => ?_
  match operand with
  | .list [] => exact .pure _
  | .list (_ :: _) => exact .pure _
  | .scalar _ => exact .pure _

/-- The clause of a filter fails on one of its columns. -/
theorem Filter.whereFragment_failsOnNames (f : Filter) (softDelete : Option String)
    (o : PredicateOptions) : FailsOnNames (f.whereFragment softDelete o) := by
  have hgroup : ∀ group, FailsOnNames (groupFragment o group) := fun group =>
    (FailsOnNames.mapM fun c _ => Condition.fragment_failsOnNames o c).bind fun _ => .pure _
  unfold whereFragment
  split
  · exact .pure none
  · exact ((FailsOnNames.mapM fun group _ => hgroup group).bind fun _ => .pure _).map some

/-- An order fails on one of its columns. -/
theorem SortOrder.fragment_failsOnNames (order : SortOrder) : FailsOnNames order.fragment := by
  have hkey : ∀ key : SortKey, FailsOnNames key.fragment := fun key =>
    (Identifier.fragment_failsOnNames key.column).bind fun _ => .pure _
  unfold SortOrder.fragment
  split
  · exact .pure []
  · exact (FailsOnNames.mapM fun key _ => hkey key).bind fun _ => .pure _

/-- Assignments fail on one of their columns. -/
theorem assignments_failsOnNames (source : String) (columns : List String) :
    FailsOnNames (assignments source columns) :=
  (FailsOnNames.mapM fun name _ => Identifier.fragment_failsOnNames name).bind fun _ => .pure _

/-- Conflict clauses fail on a column of theirs. -/
theorem conflictClauses_failsOnNames (targets : List (List String)) (updates : List String) :
    FailsOnNames (conflictClauses targets updates) := by
  unfold conflictClauses
  split
  · exact .pure []
  · refine (assignments_failsOnNames "EXCLUDED" updates).bind fun _ => ?_
    refine (FailsOnNames.mapM fun target _ => ?_).bind fun _ => .pure _
    exact (Identifier.listFragment_failsOnNames target).bind fun _ => .pure _

/-- The condition of a merge fails on one of its columns. -/
theorem groupMatches_failsOnNames (groups : List (List String)) :
    FailsOnNames (groupMatches groups) := by
  refine (FailsOnNames.mapM fun group _ => ?_).bind fun _ => .pure _
  exact (FailsOnNames.mapM fun name _ => Identifier.fragment_failsOnNames name).bind fun _ =>
    .pure _

/-! ### Calls -/

/-- The filter binds no value: its conditions all have empty lists, if there are any. -/
def Filter.BindsNothing (f : Filter) : Prop :=
  ∀ group ∈ f.groups, ∀ c ∈ group, c.operand = .list []

/-- A filter binds nothing when all of its conditions have empty lists. -/
theorem Filter.paramCount_eq_zero_iff (f : Filter) : f.paramCount = 0 ↔ f.BindsNothing := by
  have hoperands : ∀ c : Condition, c.operands = [] ↔ c.operand = .list [] := by
    intro c
    unfold Condition.operands
    cases c.operand <;> simp
  rw [paramCount, List.length_eq_zero_iff, List.flatMap_eq_nil_iff]
  simp only [List.mem_flatten, hoperands]
  constructor
  · intro h group hgroup c hc
    exact h c ⟨group, hgroup, hc⟩
  · rintro h c ⟨group, hgroup, hc⟩
    exact h group hgroup c hc

namespace Compiler

variable (c : Compiler)

/-- Every part of what the text of a table names is usable. -/
def UsableTable (table : String) : Prop :=
  ∃ parts, TableName.Parts c.options.schema table parts ∧ AllUsable parts

/-- The text of a table names its parts around the first dot, and nothing else. -/
theorem parts_iff (table : String) (parts : List String) :
    TableName.Parts c.options.schema table parts ↔ parts = c.tableNames table := by
  constructor
  · rintro (⟨after, hbefore⟩ | htable)
    · rw [tableNames, Text.splitOnce_point.2 ⟨rfl, hbefore⟩]
    · rw [tableNames, Text.splitOnce_point_eq_none.2 htable]
  · rintro rfl
    rw [tableNames]
    cases h : Text.splitOnce table "." with
    | none => exact .plain (Text.splitOnce_point_eq_none.1 h)
    | some halves =>
      obtain ⟨before, after⟩ := halves
      obtain ⟨rfl, hbefore⟩ := Text.splitOnce_point.1 h
      exact .qualified after hbefore

/-- A table can be used when the names of its parts can. -/
theorem usableTable_iff (table : String) :
    c.UsableTable table ↔ AllUsable (c.tableNames table) := by
  unfold UsableTable
  simp only [c.parts_iff, exists_eq_left]

/-- A table fails on its names. -/
theorem table_failsOnNames (table : String) : FailsOnNames (c.table table) :=
  (TableName.resolve_failsOnNames table _).bind TableName.fragment_failsOnNames

/-- A clause fails on its columns. -/
theorem whereClause_failsOnNames (f : Filter) (softDelete : Option String) :
    FailsOnNames (c.whereClause f softDelete) :=
  (f.whereFragment_failsOnNames softDelete c.predicateOptions).bind fun _ => .pure _

/-- A table whose parts are usable is resolved to them. -/
theorem exists_resolve_of_allUsable {table : String} (h : AllUsable (c.tableNames table)) :
    ∃ t, TableName.resolve table c.options.schema = .ok t ∧ t.names = c.tableNames table := by
  have hempty : Identifier.isUsable "" = false := rfl
  unfold tableNames at h ⊢
  unfold TableName.resolve
  -- A dot in the name splits off a schema, which then stands in for that of the options.
  cases hsplit : Text.splitOnce table "." with
  | none =>
    rw [hsplit] at h
    have hgood : ¬(table = "" ∨ c.options.schema = some "") := by
      rintro (rfl | hschema)
      · simp [hempty] at h
      · simp [hschema, hempty] at h
    exact ⟨⟨c.options.schema, table⟩, if_neg hgood, rfl⟩
  | some halves =>
    obtain ⟨schema, name⟩ := halves
    rw [hsplit] at h
    have hgood : ¬(name = "" ∨ some schema = some "") := by
      rintro (rfl | hschema)
      · simp [hempty] at h
      · obtain rfl := Option.some.inj hschema
        simp [hempty] at h
    exact ⟨⟨some schema, name⟩, if_neg hgood, rfl⟩

/-- A call that requires usable names once its table is resolved requires a usable table too. -/
theorem requires_of_yields {α : Type} {table : String} {p : Except Error α} {names : List String}
    {value : TableName → α} (hfails : FailsOnNames p)
    (hresolves : ∀ r, p = .ok r → ∃ t, TableName.resolve table c.options.schema = .ok t)
    (hyields : ∀ t, TableName.resolve table c.options.schema = .ok t →
      Yields p (AllUsable t.names ∧ AllUsable names) (value t)) :
    Requires p (c.UsableTable table ∧ AllUsable names) := by
  rw [usableTable_iff]
  refine ⟨⟨?_, ?_⟩, hfails⟩
  · rintro ⟨r, hr⟩
    obtain ⟨t, ht⟩ := hresolves r hr
    rw [← names_of_resolve ht]
    exact ((hyields t ht).eq_of_ok hr).1
  · rintro ⟨htable, hnames⟩
    obtain ⟨t, ht, heq⟩ := c.exists_resolve_of_allUsable htable
    exact ⟨value t, ((hyields t ht) _).2 ⟨⟨heq ▸ htable, hnames⟩, rfl⟩⟩

/-- **A selection needs a table and columns that can be used,** and nothing else. -/
theorem select_requires (table : String) (f : Filter) (order : SortOrder)
    (softDelete : Option String) (page : Option Page) :
    Requires (c.select table f order softDelete page)
      (c.UsableTable table ∧ AllUsable (f.columns ++ softDelete.toList ++ order.columns)) := by
  refine c.requires_of_yields ?_ (fun _ hr => exists_resolve_of_ok hr) fun t ht =>
    (select_yields ht f order softDelete page).congr ?_
  · exact (c.table_failsOnNames table).bind fun _ =>
      (c.whereClause_failsOnNames f softDelete).bind fun _ =>
        order.fragment_failsOnNames.bind fun _ => .pure _
  · rw [List.append_assoc t.names, allUsable_append]

/-- **A count needs a table and columns that can be used,** and nothing else. -/
theorem count_requires (table : String) (f : Filter) (softDelete : Option String) :
    Requires (c.count table f softDelete)
      (c.UsableTable table ∧ AllUsable (f.columns ++ softDelete.toList)) := by
  refine c.requires_of_yields ?_ (fun _ hr => exists_resolve_of_ok hr) fun t ht =>
    (count_yields ht f softDelete).congr ?_
  · exact (c.table_failsOnNames table).bind fun _ =>
      (c.whereClause_failsOnNames f softDelete).bind fun _ => .pure _
  · rw [allUsable_append]

/-- **An insert needs a table and columns that can be used,** and nothing else. -/
theorem insert_requires (table : String) (rows : RowSet) :
    Requires (c.insert table rows) (c.UsableTable table ∧ AllUsable rows.columns) := by
  refine c.requires_of_yields ?_ (fun _ hr => exists_resolve_of_ok hr) fun t ht =>
    (insert_yields ht rows).congr ?_
  · exact (c.table_failsOnNames table).bind fun _ =>
      (Identifier.listFragment_failsOnNames rows.columns).bind fun _ => .pure _
  · rw [allUsable_append]

/-- A removal with bound values has a clause. -/
theorem delete_failsOnNames (table : String) {f : Filter} (hf : f.paramCount ≠ 0)
    (softDelete : Option String) : FailsOnNames (c.delete table f softDelete) := by
  rw [Compiler.delete, if_neg hf]
  refine (c.table_failsOnNames table).bind fun pieces => ?_
  -- A filter that binds a value has a group, so its clause is never missing.
  have hclause : ∀ clause, f.whereFragment none c.predicateOptions = .ok clause →
      ∃ whereClause, clause = some whereClause := by
    intro clause h
    obtain ⟨-, rfl⟩ := (f.whereFragment_yields none c.predicateOptions).eq_of_ok h
    exact ⟨_, wherePieces_none (groups_ne_nil hf) _⟩
  have hwhere := f.whereFragment_failsOnNames none c.predicateOptions
  cases softDelete with
  | none =>
    refine hwhere.bind_of_ok fun clause h => ?_
    obtain ⟨whereClause, rfl⟩ := hclause clause h
    exact .pure _
  | some column =>
    refine (Identifier.fragment_failsOnNames column).bind fun name => ?_
    refine hwhere.bind_of_ok fun clause h => ?_
    obtain ⟨whereClause, rfl⟩ := hclause clause h
    exact .pure _

/-- **A removal with a bound value needs a table and columns that can be used,** and nothing
else. -/
theorem delete_requires (table : String) {f : Filter} (hf : f.paramCount ≠ 0)
    (softDelete : Option String) :
    Requires (c.delete table f softDelete)
      (c.UsableTable table ∧ AllUsable (softDelete.toList ++ f.columns)) := by
  refine c.requires_of_yields (c.delete_failsOnNames table hf softDelete)
    (fun _ hr => exists_resolve_of_delete hr) fun t ht => (delete_yields ht hf softDelete).congr ?_
  rw [List.append_assoc t.names, allUsable_append]

/-- **A removal is refused for its filter when that binds no value,** before any name is looked
at. -/
theorem delete_eq_noFilter_iff (table : String) (f : Filter) (softDelete : Option String) :
    c.delete table f softDelete = .error .noFilterForDelete ↔ f.paramCount = 0 := by
  constructor
  · intro h
    by_contra hf
    obtain ⟨fault, hfault⟩ := c.delete_failsOnNames table hf softDelete _ h
    cases hfault
  · intro hf
    rw [Compiler.delete, if_pos hf]
    rfl

/-- Whatever strategy a chunk follows, it fails on names alone. -/
theorem upsertFragment_failsOnNames (table : Fragment) (columns : List String)
    (chunk : List (List Json)) (updates : List String) (strategy : Strategy) :
    FailsOnNames (c.upsertFragment table columns chunk updates strategy) := by
  have hinsert : FailsOnNames (do
      let columnList ← Identifier.listFragment columns
      let conflict ← conflictClauses strategy.targets updates
      return c.insertFragment table columnList columns chunk conflict) :=
    (Identifier.listFragment_failsOnNames columns).bind fun _ =>
      (conflictClauses_failsOnNames strategy.targets updates).bind fun _ => .pure _
  cases strategy with
  | merge groups =>
    exact (Identifier.listFragment_failsOnNames columns).bind fun _ =>
      (assignments_failsOnNames "source_data" updates).bind fun _ =>
        (groupMatches_failsOnNames groups).bind fun _ =>
          (conflictClauses_failsOnNames [groups.headD []] updates).bind fun _ => .pure _
  | plain => exact hinsert
  | onConflict target => exact hinsert
  | chained groups => exact hinsert

/-- An upsert fails on names only. -/
theorem upsert_failsOnNames (table : String) (rows : RowSet) (spec : ConstraintSpec) :
    FailsOnNames (c.upsert table rows spec) := by
  rw [upsert, upsertChunks, bind_assoc]
  refine (c.table_failsOnNames table).bind fun pieces => ?_
  rw [pure_bind]
  refine (FailsOnNames.mapM ?_).bind fun _ => .pure _
  intro chunk hchunk
  obtain ⟨records, -, rfl⟩ := List.mem_map.1 hchunk
  exact (c.upsertFragment_failsOnNames _ _ _ _ _).map _

/-- **The outcome of every call.**  A call succeeds just when every name that it is given is usable,
those that its text leaves out included, and otherwise fails on a name.  Only a removal has another
reason to fail, and has it when its filter binds no value.  Cutting the records into chunks, the one
step that is not defined on all numbers, always gets a positive size and loses no record. -/
theorem outcome_of_calls (table : String) (f : Filter) (order : SortOrder)
    (softDelete : Option String) (page : Option Page) (rows : RowSet) (spec : ConstraintSpec) :
    Requires (c.select table f order softDelete page)
      (c.UsableTable table ∧ AllUsable (f.columns ++ softDelete.toList ++ order.columns)) ∧
    Requires (c.count table f softDelete)
      (c.UsableTable table ∧ AllUsable (f.columns ++ softDelete.toList)) ∧
    Requires (c.insert table rows) (c.UsableTable table ∧ AllUsable rows.columns) ∧
    (c.delete table f softDelete = .error .noFilterForDelete ↔ f.BindsNothing) ∧
    (¬f.BindsNothing →
      Requires (c.delete table f softDelete)
        (c.UsableTable table ∧ AllUsable (softDelete.toList ++ f.columns))) ∧
    FailsOnNames (c.upsert table rows spec) ∧
    0 < c.chunkSize rows.columns.length ∧ (c.chunked rows).flatten = rows.rows := by
  rw [← f.paramCount_eq_zero_iff]
  exact ⟨c.select_requires table f order softDelete page, c.count_requires table f softDelete,
    c.insert_requires table rows, c.delete_eq_noFilter_iff table f softDelete,
    fun hf => c.delete_requires table hf softDelete, c.upsert_failsOnNames table rows spec,
    c.chunkSize_pos _, flatten_chunks (c.chunkSize_pos _) rows.rows⟩

end Compiler
end Querysmith
