/-
# What removals match

A removal is refused when its filter binds no value.  The values are counted over the whole filter,
and a row is removed when one branch is true of it, so the refusal says nothing about the other
branches: a branch of nothing but `not in` of the empty list is true of every row.  Those are the
only ones.  A filter without such a group restricts the rows in every branch, and bound to nulls its
clause is true of no row at all (`branches_of_delete`).
-/

import Querysmith.Proofs.Filter.Clause
import Querysmith.Store.Match

namespace Querysmith

open Fragment (Legible tokens)
open Sql

/-- The condition leaves no row out: nothing is a member of the empty list. -/
def Condition.IsVacuous (c : Condition) : Prop := c.operator = .notIn ∧ c.operands = []

/-- A test of the branch looks at a bound value, or is `1 = 0`. -/
def Sql.Restricts (branch : List Test) : Prop :=
  ∃ test ∈ branch, test.terms ≠ [] ∨ test = .constant false

/-- A test restricts the rows unless its condition is vacuous. -/
theorem Condition.test_restricts (bound : Nat) (c : Condition) :
    ((c.test bound).terms ≠ [] ∨ c.test bound = .constant false) ↔ ¬c.IsVacuous := by
  obtain ⟨column, op, operand⟩ := c
  match operand with
  | .list [] => simp [test, Test.terms, IsVacuous, operands]
  | .list (v :: vs) =>
    simp [test, Test.terms, Term.placeholders, IsVacuous, operands]
  | .scalar v => simp [test, Test.terms, IsVacuous, operands]

/-- The test of a vacuous condition is always true, and no other one is written so. -/
theorem Condition.test_eq_true (bound : Nat) (c : Condition) :
    c.test bound = .constant true ↔ c.IsVacuous := by
  obtain ⟨column, op, operand⟩ := c
  match operand with
  | .list [] => simp [test, IsVacuous, operands]
  | .list (v :: vs) => simp [test, IsVacuous, operands]
  | .scalar v => simp [test, IsVacuous, operands]

namespace Store

/-- A clause is true when all tests of one of its branches are. -/
theorem clauseTruth_eq_true {t : Table} {bound : Bindings} {r : Row} {clause : Clause} :
    clauseTruth t bound r clause = some true ↔
      ∃ branch ∈ clause, ∀ test ∈ branch, testTruth t bound r test = some true := by
  rw [clauseTruth, Truth.any_eq_true, List.mem_map]
  simp only [Truth.all_eq_true, List.forall_mem_map]

/-- Nothing compares with null. -/
theorem compareCells_null (affinity : Affinity) (op : Operator) (c : Cell) :
    compareCells affinity op c .null = none := by
  have hoperand : affinity.operand .null = .null := by cases affinity <;> rfl
  have hcompare : Cell.compare? c .null = none := by simp [Cell.compare?, Cell.isNull]
  have hlike : like c .null = none := by simp [like, Cell.text?]
  cases op with
  | like => exact hlike
  | notLike => rw [compareCells, hlike]; rfl
  | equal | notEqual | less | greater | lessOrEqual | greaterOrEqual | isIn | notIn =>
    simp [compareCells, hoperand, hcompare]

/-- Where nulls are bound every placeholder is null. -/
theorem termCell_nulls (n k : Nat) :
    termCell (List.replicate n .null) (.placeholder k) = .null := by
  rw [termCell]
  split
  · rfl
  · rw [List.getElem?_replicate]
    split <;> rfl

/-- Of tests that nothing is known of, one or more, nothing is known. -/
theorem Truth.any_replicate_none {n : Nat} (hn : n ≠ 0) :
    Truth.any (List.replicate n none) = none := by
  induction n with
  | zero => exact absurd rfl hn
  | succ n ih =>
    cases n with
    | zero => rfl
    | succ n =>
      rw [List.replicate_succ, Truth.any, List.foldr_cons]
      exact congrArg (Truth.or none) (ih n.succ_ne_zero)

/-- **Bound to nulls, only a vacuous condition is true.** -/
theorem testTruth_nulls (t : Table) (r : Row) (n bound : Nat) (c : Condition) :
    testTruth t (List.replicate n .null) r (c.test bound) = some true ↔ c.IsVacuous := by
  obtain ⟨column, op, operand⟩ := c
  match operand with
  | .list [] => simp [Condition.test, testTruth, Condition.IsVacuous, Condition.operands]
  | .list (v :: vs) =>
    -- A member of a list is compared with NULL, which is never true; the empty list compares
    -- nothing.
    have hmembers : (Term.placeholders bound (v :: vs).length).map (fun o =>
        compareCells (t.columnCell r column).1 .equal (t.columnCell r column).2
          (termCell (List.replicate n .null) o)) = List.replicate (v :: vs).length none := by
      refine List.eq_replicate_iff.2 ⟨by simp [Term.placeholders], ?_⟩
      simp only [Term.placeholders, List.mem_map]
      rintro _ ⟨_, ⟨k, -, rfl⟩, rfl⟩
      rw [termCell_nulls, compareCells_null]
    have hfound := Truth.any_replicate_none (n := (v :: vs).length) (Nat.succ_ne_zero _)
    rw [← hmembers] at hfound
    have htruth : testTruth t (List.replicate n .null) r
        (Condition.test bound ⟨column, op, .list (v :: vs)⟩) = none := by
      simp only [Condition.test, testTruth, hfound]
      split <;> rfl
    simp [htruth, Condition.IsVacuous, Condition.operands]
  | .scalar v =>
    simp [Condition.test, testTruth, termCell_nulls, compareCells_null, Condition.IsVacuous,
      Condition.operands]

end Store

namespace Filter

/-- A filter that binds a value has a condition that is not vacuous. -/
theorem exists_not_isVacuous {f : Filter} (h : f.paramCount ≠ 0) :
    ∃ group ∈ f.groups, ∃ c ∈ group, ¬c.IsVacuous := by
  by_contra hall
  push Not at hall
  have hoperands : f.groups.flatten.flatMap Condition.operands = [] := by
    simp only [List.flatMap_eq_nil_iff, List.mem_flatten]
    rintro c ⟨group, hgroup, hc⟩
    exact (hall group hgroup c hc).2
  exact h (by rw [paramCount, hoperands]; rfl)

/-- A branch restricts the rows unless all conditions of its group are vacuous. -/
theorem groupTests_restricts (bound : Nat) (group : List Condition) :
    Restricts (groupTests bound group) ↔ ∃ c ∈ group, ¬c.IsVacuous :=
  exists_mem_counted (p := fun test : Test => test.terms ≠ [] ∨ test = .constant false)
    Condition.test_restricts bound group

/-- A branch is nothing but `1 = 1` when all conditions of its group are vacuous. -/
theorem groupTests_eq_true (bound : Nat) (group : List Condition) :
    (∀ test ∈ groupTests bound group, test = .constant true) ↔ ∀ c ∈ group, c.IsVacuous :=
  forall_mem_counted Condition.test_eq_true bound group

/-- Bound to nulls, a branch is true only when all conditions of its group are vacuous. -/
theorem groupTests_nulls (t : Store.Table) (r : Store.Row) (n bound : Nat)
    (group : List Condition) :
    (∀ test ∈ groupTests bound group,
        Store.testTruth t (List.replicate n .null) r test = some true) ↔
      ∀ c ∈ group, c.IsVacuous :=
  forall_mem_counted (Store.testTruth_nulls t r n) bound group

/-- **A clause is true whatever is bound** when all conditions of a group are vacuous, and only
then. -/
theorem forall_clauseTruth_iff (t : Store.Table) (r : Store.Row) (n bound : Nat)
    (groups : List (List Condition)) :
    (∀ values : List SqlValue, values.length = n →
        Store.clauseTruth t values r (tests bound groups) = some true) ↔
      ∃ group ∈ groups, ∀ c ∈ group, c.IsVacuous := by
  constructor
  · intro h
    -- Nulls are values like any others, and make every test with a placeholder unknown.
    have hnulls := Store.clauseTruth_eq_true.1 (h (List.replicate n .null) List.length_replicate)
    exact (exists_mem_counted (groupTests_nulls t r n) bound groups).1 hnulls
  · intro hvacuous values _
    obtain ⟨branch, hbranch, htests⟩ :=
      (exists_mem_counted (p := fun branch : List Test => ∀ test ∈ branch, test = .constant true)
        groupTests_eq_true bound groups).2 hvacuous
    refine Store.clauseTruth_eq_true.2 ⟨branch, hbranch, fun test htest => ?_⟩
    rw [htests test htest]
    rfl

end Filter

namespace Compiler

variable {c : Compiler} {table : String}

/-- What stands before the clause of a removal holds no `WHERE`. -/
theorem all_tokens_removalHead (d : Dialect) (t : TableName) (softDelete : Option String) :
    (tokens d 0 (removalHead t softDelete)).all (!Reader.isKeyword "where" ·) = true := by
  obtain ⟨schema, name⟩ := t
  cases softDelete <;> cases schema <;> rfl

/-- **What the clause of a removal can match.**  Some branch restricts the rows, since the filter
binds a value.  Every branch does unless a group has vacuous conditions only, and it is just then
that the clause is true of every row of every table, whatever is bound. -/
theorem branches_of_delete (hd : c.dialect.Bundled) {f : Filter} (hf : f.Reachable)
    {softDelete : Option String} {s : Statement} (h : c.delete table f softDelete = .ok s) :
    ∃ (head : List Token) (formula : Formula) (branches : Clause),
      Formula.ofWhere? s.sql = some (head, formula) ∧
      formula.disjuncts.map Formula.conjuncts = branches.map (·.map .test) ∧
      (∃ branch ∈ branches, Restricts branch) ∧
      ((∀ branch ∈ branches, Restricts branch) ↔
        ∀ group ∈ f.groups, ∃ cond ∈ group, ¬cond.IsVacuous) ∧
      ∀ (t : Store.Table) (r : Store.Row),
        (∀ values : List SqlValue, values.length = s.params.length →
          Store.clauseTruth t values r branches = some true) ↔
        ∃ group ∈ f.groups, ∀ cond ∈ group, cond.IsVacuous := by
  have hcount := paramCount_ne_zero_of_ok h
  obtain ⟨t, ht⟩ := exists_resolve_of_delete h
  obtain ⟨-, rfl⟩ := (delete_yields ht hcount softDelete).eq_of_ok h
  have hlegible : Legible [] (c.removalPieces t f softDelete) :=
    removalPieces_legible c t f softDelete
  have hsql := Fragment.tokens_sql hd hlegible (by simp) 0
  have htokens : tokens c.dialect 0 (c.removalPieces t f softDelete) =
      tokens c.dialect 0 (removalHead t softDelete) ++
        tokens c.dialect (removalHead t softDelete).values.length
          (Filter.groupsPieces c.predicateOptions f.groups) := by
    rw [removalPieces, tokens, Fragment.render_append, Nat.zero_add]
    rfl
  rw [htokens] at hsql
  -- The head of a removal holds no second `WHERE`, so the clause is found behind it.
  have hwhere : ∀ token ∈ tokens c.dialect 0 (removalHead t softDelete),
      Reader.isKeyword "where" token = false := fun token htoken => by
    simpa using List.all_eq_true.1 (all_tokens_removalHead c.dialect t softDelete) token htoken
  refine ⟨_, _, Filter.tests (removalHead t softDelete).values.length f.groups,
    Filter.ofWhere?_groupsPieces hsql hwhere (groups_ne_nil hcount) hf.wellFormed.ne_nil
      hf.wellFormed.conditions,
    Formula.branches_ofTests _, ?_, ?_, fun t r => ?_⟩
  · exact (exists_mem_counted Filter.groupTests_restricts _ f.groups).2
      (Filter.exists_not_isVacuous hcount)
  · exact forall_mem_counted Filter.groupTests_restricts _ f.groups
  · exact Filter.forall_clauseTruth_iff t r _ _ f.groups

/-- A removal that is accepted for the value of its second group, and removes every row for its
first. -/
theorem branches_of_delete_vacuous :
    ∃ (s : Statement) (head : List Token) (formula : Formula) (branches : Clause),
      (ofDialect .postgres).delete "t" (.ofGroups [[.notInList "a" []], [.equal "b" (.int 1)]])
        none = .ok s ∧
      s.sql = "DELETE FROM \"t\" WHERE ((1 = 1) OR (\"b\" = $1))" ∧
      Formula.ofWhere? s.sql = some (head, formula) ∧
      formula.disjuncts.map Formula.conjuncts = branches.map (·.map .test) ∧
      ¬(∀ branch ∈ branches, Restricts branch) ∧
      ∀ (t : Store.Table) (r : Store.Row) (values : List SqlValue),
        values.length = s.params.length → Store.clauseTruth t values r branches = some true := by
  have hf : Filter.Reachable (.ofGroups [[.notInList "a" []], [.equal "b" (.int 1)]]) :=
    .ofGroups (by simp [Condition.Reachable.notInList, Condition.Reachable.equal])
  have ht : TableName.resolve "t" (ofDialect .postgres).options.schema = .ok ⟨none, "t"⟩ := by
    rfl
  have h := (delete_yields ht (f := .ofGroups [[.notInList "a" []], [.equal "b" (.int 1)]])
    (by decide) none _).2 ⟨by decide, rfl⟩
  have hvacuous : Condition.IsVacuous (.notInList "a" []) := ⟨rfl, rfl⟩
  obtain ⟨head, formula, branches, hread, hbranches, -, hrestricts, htrue⟩ :=
    branches_of_delete .postgres hf h
  refine ⟨_, head, formula, branches, h, by decide +kernel, hread, hbranches, fun hall => ?_,
    fun t r => (htrue t r).2 ⟨[.notInList "a" []], List.mem_cons_self, ?_⟩⟩
  · obtain ⟨cond, hcond, hnot⟩ := hrestricts.1 hall [.notInList "a" []] List.mem_cons_self
    obtain rfl := List.mem_singleton.1 hcond
    exact hnot hvacuous
  · exact List.forall_mem_singleton.2 hvacuous

end Compiler
end Querysmith
