/-
# Looking up what was written

Where the operands of filters are normalized, a filter is to find what a write has stored, so both
should bind the same value for the same column.  Membership in a list does, since a member is
normalized like a cell.  So does equality with a scalar.  Equality with an array or object is
another comparison: it takes the text of the value before the normalizer sees it, and the normalizer
leaves that text as it is, while a cell is normalized part by part before it becomes a text.  The
two texts are the same only for the values that normalizing leaves alone (`compared_as_stored`).
-/

import Querysmith.Proofs.Compiler.Binding
import Querysmith.Proofs.Filter.Clause
import Querysmith.Proofs.Normalizer.Text

namespace Querysmith

/-- The clause of the condition alone binds the values. -/
def Condition.Compares (o : PredicateOptions) (cond : Condition) (values : List SqlValue) : Prop :=
  ∃ clause, (Filter.and [cond]).whereFragment none o = .ok (some clause) ∧ clause.values = values

/-- A condition on a usable column has a clause, and that binds what the condition binds. -/
theorem Condition.compares (o : PredicateOptions) {cond : Condition}
    (h : Identifier.isUsable cond.column = true) : cond.Compares o (cond.pieces o).values := by
  have husable : AllUsable ((Filter.and [cond]).columns ++ (none : Option String).toList) := by
    simpa [Filter.columns, Filter.and, Filter.ofGroups] using h
  refine ⟨Filter.groupsPieces o [[cond]],
    ((Filter.and [cond]).whereFragment_yields none o _).2 ⟨husable, rfl⟩, ?_⟩
  rw [Filter.values_groupsPieces, List.flatMap_singleton, List.flatMap_singleton]

namespace SqlValue

/-- An array or object is bound as its text. -/
theorem ofJson_text {v : Json} (h : v.isStructured = true) : ofJson v = text v.text := by
  cases v with
  | arr _ | obj _ => rfl
  | null | bool _ | int _ | float _ | str _ => cases h

end SqlValue

namespace Normalizer

/-- An array or object stays one. -/
theorem isStructured_normalize (n : Normalizer) (column : String) {v : Json}
    (h : v.isStructured = true) : (n.normalize column v).isStructured = true := by
  cases v with
  | arr _ | obj _ => rfl
  | null | bool _ | int _ | float _ | str _ => cases h

end Normalizer

namespace Compiler

variable {c : Compiler}

/-- Where filters are normalized an operand is bound like a written value. -/
theorem bind_of_normalizeFilters (h : c.options.normalizeFilters = true) (column : String)
    (v : Json) :
    c.predicateOptions.bind column v = .ofJson (c.normalizer.normalize column v) := by
  rw [PredicateOptions.bind, predicateOptions, h]
  rfl

/-- **Membership looks for what is stored.** -/
theorem inList_compares (hnormalize : c.options.normalizeFilters = true) {column : String}
    (hcolumn : Identifier.isUsable column = true) (v : Json) :
    (Condition.inList column [v]).Compares c.predicateOptions
      [.ofJson (c.normalizer.normalize column v)] := by
  rw [← bind_of_normalizeFilters hnormalize]
  exact Condition.compares c.predicateOptions hcolumn

/-- The value that equality compares a column with. -/
def compared (c : Compiler) (column : String) (v : Json) : SqlValue :=
  if v.isStructured then .text v.text else .ofJson (c.normalizer.normalize column v)

/-- **Equality looks for the text of an array or object,** and for any other value as it is
stored. -/
theorem equal_compares (hnormalize : c.options.normalizeFilters = true) {column : String}
    (hcolumn : Identifier.isUsable column = true) (v : Json) :
    (Condition.equal column v).Compares c.predicateOptions [c.compared column v] := by
  have h : (Condition.equal column v).Compares c.predicateOptions
      [c.predicateOptions.bind column (if v.isStructured then .str v.text else v)] :=
    Condition.compares c.predicateOptions hcolumn
  rw [bind_of_normalizeFilters hnormalize] at h
  cases hstructured : v.isStructured with
  | true =>
    rw [if_pos hstructured, Normalizer.normalize, c.normalizer.normalizeText_text hstructured] at h
    rwa [compared, if_pos hstructured]
  | false =>
    rw [hstructured] at h
    rwa [compared, hstructured]

/-- **What is compared is what was stored,** unless the text of an array or object is normalized to
another value than the array or object itself. -/
theorem compared_eq_iff (c : Compiler) (column : String) (v : Json) :
    c.compared column v = .ofJson (c.normalizer.normalize column v) ↔
      (v.isStructured = true → c.normalizer.normalize column v = v) := by
  cases hstructured : v.isStructured with
  | false => simp [compared, hstructured]
  | true =>
    have hnormal := c.normalizer.isStructured_normalize column hstructured
    rw [compared, if_pos hstructured, SqlValue.ofJson_text hnormal, SqlValue.text.injEq, eq_comm,
      c.normalizer.text_normalize_eq_iff]
    simp

/-- **What filters look for, and what writes store.**  For a value that is not null, a write binds
its normalized value, and membership in the list of it alone compares with the same.  Equality does
too, unless the value is an array or object that normalizing changes: then equality compares with
the text of the value as it was given, and a write stores that of another one. -/
theorem compared_as_stored (hnormalize : c.options.normalizeFilters = true) {column : String}
    (hcolumn : Identifier.isUsable column = true) {v : Json} (hv : v ≠ .null) :
    ∃ stored, c.boundValue? column v = some stored ∧
      (∀ (table : String) (spec : Option ConstraintSpec) (rows : RowSet) (plan : WritePlan),
        c.writing table spec rows = .ok plan →
        List.Forall₂ (c.Binds spec rows.columns) (c.chunked rows) plan.statements) ∧
      (Condition.inList column [v]).Compares c.predicateOptions [stored] ∧
      (Condition.equal column v).Compares c.predicateOptions [c.compared column v] ∧
      (c.compared column v = stored ↔
        (v.isStructured = true → c.normalizer.normalize column v = v)) :=
  ⟨_, c.boundValue?_of_ne_null column hv, fun _ _ _ _ h => binds_of_writing h,
    inList_compares hnormalize hcolumn v, equal_compares hnormalize hcolumn v,
    c.compared_eq_iff column v⟩

/-- A list of tags with a number among them that is written as a text: it is stored as a number, and
found as a member and not by equality. -/
theorem compared_as_stored_tags :
    (∃ rows plan,
      RowSet.ofJson (.obj [("tags", .arr [.str "5"])]) = .ok rows ∧
      (ofDialect .postgres { normalizeFilters := true }).insert "post" rows = .ok plan ∧
      plan.statements.map (·.params) = [[.text "[5]"]]) ∧
    (Condition.inList "tags" [.arr [.str "5"]]).Compares
      (ofDialect .postgres { normalizeFilters := true }).predicateOptions [.text "[5]"] ∧
    (Condition.equal "tags" (.arr [.str "5"])).Compares
      (ofDialect .postgres { normalizeFilters := true }).predicateOptions [.text "[\"5\"]"] := by
  have ht : TableName.resolve "post"
      (ofDialect .postgres { normalizeFilters := true }).options.schema = .ok ⟨none, "post"⟩ := by
    rfl
  obtain ⟨stored, hstored, -, hmember, hequal, -⟩ := compared_as_stored
    (c := ofDialect .postgres { normalizeFilters := true }) rfl
    (show Identifier.isUsable "tags" = true by decide) (show Json.arr [.str "5"] ≠ .null by simp)
  obtain rfl : .text "[5]" = stored := Option.some.inj ((by decide +kernel : _ = _).trans hstored)
  refine ⟨⟨_, _, rfl, (insert_yields ht ⟨["tags"], [[.arr [.str "5"]]]⟩ _).2 ⟨by decide, rfl⟩,
    ?_⟩, hmember, ?_⟩
  · decide +kernel
  · have hcompared : (ofDialect .postgres { normalizeFilters := true }).compared "tags"
        (.arr [.str "5"]) = .text "[\"5\"]" := by
      decide +kernel
    rwa [hcompared] at hequal

end Compiler
end Querysmith
