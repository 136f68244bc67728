/-
# The clause of a filter

What the clause of a filter says, read as SQL reads it (`Sql.Formula`), is what the filter says: its
branches are the groups in their order, and the tests of a branch are the conditions of the group.
A condition has its test where it stands: the number of its first placeholder is one more than the
number of values that are bound before it (`Condition.test`).  So the placeholders of a clause count
on from what is bound before the clause, and each one finds the value of its own condition
(`Condition.fill_test`).

Which value that is follows from the operand and the options alone:

| the operand | without a normalizer | with one |
| --- | --- | --- |
| of `like` and `not like` | its text, between `%` signs if they are asked for | the same |
| any other, and each member of a list | itself | what the normalizer makes of it |

The zero of a guard is an operand like any other (`Filter.guardDemand`).
-/

import Querysmith.Proofs.Compiler.Legibility
import Querysmith.Proofs.Filter.Reachable
import Querysmith.Proofs.Sql.Formula
import Querysmith.Proofs.Sql.Lexing

namespace Querysmith

open Fragment (Legible render renderList tokens)

namespace Sql

/-- The term with the value that its number stands for, if there is one. -/
def Term.fill (bound : List SqlValue) : Term → Term
  | .placeholder (n + 1) => (bound[n]?.map Term.literal).getD (.placeholder (n + 1))
  | t => t

/-- The placeholders of `n` values that stand behind `bound` others. -/
def Term.placeholders (bound n : Nat) : List Term :=
  (List.range' (bound + 1) n).map .placeholder

/-- Placeholders stand for the values behind those that are bound before. -/
theorem Term.fill_placeholders (before values after : List SqlValue) :
    (placeholders before.length values.length).map (fill (before ++ values ++ after)) =
      values.map .literal := by
  refine List.ext_getElem (by simp [placeholders]) ?_
  intro i hi hvalues
  rw [List.length_map] at hvalues
  have hnumber : before.length + 1 + i = before.length + i + 1 := by omega
  have hvalue : (before ++ (values ++ after))[before.length + i]? = some values[i] := by
    rw [List.getElem?_append_right (by omega), Nat.add_sub_cancel_left,
      List.getElem?_append_left hvalues, List.getElem?_eq_getElem hvalues]
  simp [placeholders, hnumber, fill, hvalue]

namespace Test

/-- The terms of a test in reading order. -/
def terms : Test → List Term
  | compare _ _ operand => [operand]
  | member _ _ operands => operands
  | constant _ => []

/-- The test with the values that its numbers stand for. -/
def fill (bound : List SqlValue) : Test → Test
  | compare column op operand => compare column op (operand.fill bound)
  | member column negated operands => member column negated (operands.map (Term.fill bound))
  | constant holds => constant holds

end Test
end Sql

open Sql

namespace Operator

/-- The tokens of an operator. -/
def tokens : Operator → List Token
  | like => [.word "like"]
  | notLike => [.word "not", .word "like"]
  | isIn => [.word "in"]
  | notIn => [.word "not", .word "in"]
  | op => [.sign op.sql]

/-- Between blanks an operator is read as its tokens. -/
theorem ofPlain_sql (op : Operator) :
    Token.ofPlain (" " ++ op.sql ++ " ").toList = op.tokens := by
  simp only [String.toList_append]
  cases op <;> rfl

/-- In front of a parenthesis an operator is read as its tokens. -/
theorem ofPlain_sql_parenthesis (op : Operator) :
    Token.ofPlain (" " ++ op.sql ++ " (").toList = op.tokens ++ [.sign "("] := by
  simp only [String.toList_append]
  cases op <;> rfl

/-- The test of a column by an operator on a placeholder. -/
theorem testOn_compare {op : Operator} (hop : op.takesList = false) (fuel : Nat) (column : String)
    (n : Nat) (rest : List Token) :
    Reader.testOn fuel column (op.tokens ++ .placeholder n :: rest) =
      some (.compare column op (.placeholder n), rest) := by
  cases op with
  | isIn | notIn => cases hop
  | equal | notEqual | less | greater | lessOrEqual | greaterOrEqual | like | notLike => rfl

/-- The test of membership in what parentheses hold. -/
theorem testOn_member {op : Operator} (hop : op.takesList = true) (column : String) {fuel : Nat}
    {members : List Term} {ts rest : List Token}
    (h : Reader.parenthesized (Reader.list fuel Reader.term) ts = some (members, rest)) :
    Reader.testOn fuel column (op.tokens ++ ts) =
      some (.member column (op = .notIn) members, rest) := by
  cases op with
  | isIn => exact Reader.bind_eq (f := fun ms => (pure (.member column false ms) : Reader Test)) h
  | notIn => exact Reader.bind_eq (f := fun ms => (pure (.member column true ms) : Reader Test)) h
  | equal | notEqual | less | greater | lessOrEqual | greaterOrEqual | like | notLike => cases hop

end Operator

namespace PredicateOptions

/-- The value that an operand stands for under a column: what the normalizer makes of it there, and
the operand itself when there is no normalizer. -/
def standsFor (o : PredicateOptions) (column : String) (v : Json) : SqlValue :=
  .ofJson ((o.normalizer.map fun n => n.normalize column v).getD v)

/-- What stands on either side of the text of a pattern: a `%` sign, if patterns are wanted to match
anywhere in a text. -/
def wildcard (o : PredicateOptions) : String :=
  if o.autoWildcard then "%" else ""

/-- The pattern that an operand stands for.  A text is matched as it is, any other value as the text
of it; no normalizer takes part. -/
def patternFor (o : PredicateOptions) : Json → SqlValue
  | .str s => .text (o.wildcard ++ s ++ o.wildcard)
  | v => .text (o.wildcard ++ v.text ++ o.wildcard)

/-- **What is bound for an operand is what it stands for.** -/
theorem bind_eq_standsFor (o : PredicateOptions) (column : String) (v : Json) :
    o.bind column v = o.standsFor column v := by
  obtain ⟨autoWildcard, normalizer⟩ := o
  cases normalizer <;> rfl

/-- **What is bound for a pattern is the pattern that its operand stands for.** -/
theorem pattern_eq_patternFor (o : PredicateOptions) (v : Json) :
    o.pattern v = o.patternFor v := by
  obtain ⟨autoWildcard, normalizer⟩ := o
  cases autoWildcard with
  | false => cases v <;> simp [pattern, patternFor, wildcard]
  | true => cases v <;> rfl

end PredicateOptions

namespace Condition

variable {o : PredicateOptions} {c : Condition} {d : Dialect}

/-- What a condition demands, with its values in place.  The members of a list, and an operand of
any operator but `like` and `not like`, are the values that they stand for; nothing is a member of
the empty list. -/
def demand (o : PredicateOptions) (c : Condition) : Test :=
  match c.operand with
  | .list [] => .constant (c.operator = .notIn)
  | .list members =>
    .member c.column (c.operator = .notIn) (members.map fun v => .literal (o.standsFor c.column v))
  | .scalar v =>
    .compare c.column c.operator
      (.literal (if c.operator = .like ∨ c.operator = .notLike then o.patternFor v
        else o.standsFor c.column v))

/-- The test of a condition behind `bound` bound values. -/
def test (bound : Nat) (c : Condition) : Test :=
  match c.operand with
  | .list [] => .constant (c.operator = .notIn)
  | .list members => .member c.column (c.operator = .notIn) (Term.placeholders bound members.length)
  | .scalar _ => .compare c.column c.operator (.placeholder (bound + 1))

/-- **The placeholders of a condition count on** from what is bound before it. -/
theorem terms_test (bound : Nat) (c : Condition) :
    (c.test bound).terms = Term.placeholders bound c.paramCount := by
  obtain ⟨column, op, operand⟩ := c
  match operand with
  | .list [] => rfl
  | .list (_ :: _) => rfl
  | .scalar _ => rfl

/-- The value that a condition on a single operand binds is the one that it demands. -/
theorem scalar_eq_demanded (o : PredicateOptions) (column : String) (op : Operator) (v : Json) :
    (if op.isPattern then o.pattern v else o.bind column v) =
      if op = .like ∨ op = .notLike then o.patternFor v else o.standsFor column v := by
  rw [o.pattern_eq_patternFor, o.bind_eq_standsFor]
  cases op <;> rfl

/-- A condition binds one value for each of its operands. -/
theorem length_values_pieces (o : PredicateOptions) (c : Condition) :
    (c.pieces o).values.length = c.paramCount := by
  obtain ⟨column, op, operand⟩ := c
  match operand with
  | .list [] => rfl
  | .list (v :: vs) =>
    simp [pieces, Fragment.values_joined, List.flatMap_map, paramCount, operands]
  | .scalar _ => rfl

/-- **A condition finds its own values,** whatever is bound before and behind it. -/
theorem fill_test (before after : List SqlValue) :
    (c.test before.length).fill (before ++ (c.pieces o).values ++ after) = c.demand o := by
  obtain ⟨column, op, operand⟩ := c
  match operand with
  | .list [] => rfl
  | .list (v :: vs) =>
    -- A list binds what each of its members stands for.
    have hvalues : (pieces o ⟨column, op, .list (v :: vs)⟩).values =
        (v :: vs).map (o.standsFor column) := by
      simp [pieces, Fragment.values_joined, List.flatMap_map, ← List.map_eq_flatMap,
        o.bind_eq_standsFor]
    have hfill := Term.fill_placeholders before ((v :: vs).map (o.standsFor column)) after
    rw [List.length_map] at hfill
    rw [hvalues, test, demand, Test.fill]
    simp only [hfill, List.map_map]
    rfl
  | .scalar v =>
    -- Anything else binds one value, which is a pattern for the operators that match one.
    have hvalues : (pieces o ⟨column, op, .scalar v⟩).values =
        [if op = .like ∨ op = .notLike then o.patternFor v else o.standsFor column v] :=
      congrArg ([·]) (scalar_eq_demanded o column op v)
    have hfill := Term.fill_placeholders before
      [if op = .like ∨ op = .notLike then o.patternFor v else o.standsFor column v] after
    rw [hvalues]
    exact congrArg (Test.compare column op) (List.cons.inj hfill).1

/-- An empty list is written as a comparison of two numbers. -/
theorem tokens_nil {op : Operator} (hop : op.takesList = true) (column : String) (bound : Nat) :
    tokens d bound (pieces o ⟨column, op, .list []⟩) =
      [.number "1", .sign "=", .number (if decide (op = .notIn) then "1" else "0")] := by
  cases op with
  | isIn =>
    have hpieces : pieces o ⟨column, .isIn, .list []⟩ = [.text "1 = 0"] := rfl
    have htokens : tokens d bound [.text "1 = 0"] = [.number "1", .sign "=", .number "0"] := rfl
    rw [hpieces, htokens]
    rfl
  | notIn =>
    have hpieces : pieces o ⟨column, .notIn, .list []⟩ = [.text "1 = 1"] := rfl
    have htokens : tokens d bound [.text "1 = 1"] = [.number "1", .sign "=", .number "1"] := rfl
    rw [hpieces, htokens]
    rfl
  | equal | notEqual | less | greater | lessOrEqual | greaterOrEqual | like | notLike => cases hop

/-- Such a comparison reads back as a constant. -/
theorem constant_readsTest (holds : Bool) :
    Formula.ReadsTest [.number "1", .sign "=", .number (if holds then "1" else "0")]
      (.constant holds) := by
  cases holds <;> exact ⟨rfl, fun _ _ _ => rfl⟩

/-- The tokens of members are placeholders that count on. -/
theorem renderList_holes (d : Dialect) (bound : Nat) (values : List SqlValue) :
    renderList (Token.rendering d) bound (values.map fun v => [.hole v none]) =
      (List.range' (bound + 1) values.length).map fun n => [.placeholder n] := by
  induction values generalizing bound with
  | nil => rfl
  | cons v values ih =>
    rw [List.map_cons, renderList, List.length_cons, List.range'_succ, List.map_cons, ← ih]
    rfl

/-- The members of a list read back as terms. -/
theorem list_placeholders {fuel n : Nat} (hn : n ≠ 0) (hfuel : n ≤ fuel) (bound : Nat)
    (rest : List Token) :
    Reader.list fuel Reader.term ([.sign ","].intercalate
        ((List.range' (bound + 1) n).map fun n => [.placeholder n]) ++ .sign ")" :: rest) =
      some (Term.placeholders bound n, .sign ")" :: rest) := by
  have hitems : Reader.ReadsItems Reader.term (fun _ => True)
      ((List.range' (bound + 1) n).map fun n => [.placeholder n]) (Term.placeholders bound n) :=
    List.forall₂_map_left_iff.2 (List.forall₂_map_right_iff.2
      (List.forall₂_same.2 fun _ _ _ _ => rfl))
  exact Reader.separated_intercalate rfl (fun _ => trivial) hitems (by simpa using hn)
    (by simpa using hfuel) [] trivial rfl

/-- A condition on one value is written as a name, an operator and a placeholder. -/
theorem tokens_scalar (column : String) (op : Operator) (v : Json) (bound : Nat) :
    tokens d bound (pieces o ⟨column, op, .scalar v⟩) =
      .name column :: (op.tokens ++ [.placeholder (bound + 1)]) := by
  rw [tokens, pieces]
  simp only [render, Token.rendering_text, Token.rendering_name, Token.rendering_hole,
    Operator.ofPlain_sql]
  rfl

/-- A condition on a list is written with its placeholders in parentheses. -/
theorem tokens_list (column : String) (op : Operator) {members : List Json} (hne : members ≠ [])
    (bound : Nat) :
    tokens d bound (pieces o ⟨column, op, .list members⟩) =
      .name column :: (op.tokens ++ .sign "(" :: ([.sign ","].intercalate
        ((List.range' (bound + 1) members.length).map fun n => [.placeholder n]) ++
          [.sign ")"])) := by
  obtain ⟨v, vs, rfl⟩ := List.exists_cons_of_ne_nil hne
  have hholes := renderList_holes d bound ((v :: vs).map (o.bind column))
  rw [List.map_map, List.length_map] at hholes
  have hpieces : pieces o ⟨column, op, .list (v :: vs)⟩ =
      .name column :: .text (" " ++ op.sql ++ " (") ::
        (Fragment.joined ", " ((v :: vs).map ((fun v => [.hole v none]) ∘ o.bind column)) ++
          [.text ")"]) := rfl
  have hclose : Token.ofPlain ")".toList = [.sign ")"] := rfl
  rw [tokens, hpieces, render, render, Fragment.render_append, Fragment.render_joined, hholes]
  simp only [render, Token.rendering_text, Token.rendering_name, Operator.ofPlain_sql_parenthesis,
    hclose, List.length_cons, List.append_nil, List.append_assoc, List.cons_append, List.nil_append]
  rfl

/-- **The tokens of a condition read as its test.** -/
theorem readsTest (d : Dialect) (hc : c.WellFormed) (bound : Nat) :
    Formula.ReadsTest (tokens d bound (c.pieces o)) (c.test bound) := by
  obtain ⟨column, op, operand⟩ := c
  match operand with
  | .list [] =>
    have hop : op.takesList = true := hc
    rw [tokens_nil hop]
    exact constant_readsTest (op = .notIn)
  | .list (v :: vs) =>
    have hop : op.takesList = true := hc
    rw [tokens_list column op (List.cons_ne_nil v vs)]
    refine ⟨rfl, fun fuel rest hfuel => ?_⟩
    -- Commas stand between the members, so there are no more members than tokens.
    have hmembers : (v :: vs).length ≤ fuel := by
      have hlength := length_le_length_intercalate (Token.sign ",")
        ((List.range' (bound + 1) (v :: vs).length).map fun n => [.placeholder n])
      simp only [List.length_cons, List.length_append, List.length_map, List.length_range']
        at hfuel hlength ⊢
      omega
    have hlist := list_placeholders (Nat.succ_ne_zero vs.length) hmembers bound rest
    have htest := Operator.testOn_member hop column (Reader.parenthesized_eq hlist)
    simp only [List.cons_append, List.append_assoc]
    exact htest
  | .scalar v =>
    have hop : op.takesList = false := hc
    rw [tokens_scalar]
    refine ⟨rfl, fun fuel rest _ => ?_⟩
    rw [List.cons_append, List.append_assoc]
    exact Operator.testOn_compare hop fuel column (bound + 1) rest

end Condition

namespace Filter

variable {o : PredicateOptions} {d : Dialect}

/-- How many values a group binds. -/
def groupCount (group : List Condition) : Nat := (group.flatMap Condition.operands).length

/-- The tests of a group behind `bound` bound values. -/
def groupTests (bound : Nat) (group : List Condition) : List Test :=
  counted Condition.test Condition.paramCount bound group

/-- The tests of groups behind `bound` bound values. -/
def tests (bound : Nat) (groups : List (List Condition)) : List (List Test) :=
  counted groupTests groupCount bound groups

/-- Conditions bind as many values as they have operands. -/
theorem length_values_conditions (o : PredicateOptions) (conditions : List Condition) :
    (conditions.flatMap fun c => (c.pieces o).values).length =
      (conditions.flatMap Condition.operands).length := by
  simp [List.length_flatMap, Condition.length_values_pieces, Condition.paramCount]

/-- A group binds one value for each operand. -/
theorem length_values_groupPieces (o : PredicateOptions) (group : List Condition) :
    (groupPieces o group).values.length = groupCount group := by
  rw [groupPieces, Fragment.values_joined, List.flatMap_map]
  exact length_values_conditions o group

/-- **The placeholders of a clause count on** from what is bound before it. -/
theorem terms_tests (bound : Nat) (groups : List (List Condition)) :
    (tests bound groups).flatten.flatMap Test.terms =
      Term.placeholders bound (groups.flatten.flatMap Condition.operands).length := by
  rw [List.flatten_eq_flatMap, List.flatMap_assoc, List.flatten_eq_flatMap, List.flatMap_assoc]
  refine flatMap_counted (fun n group => ?_) bound groups
  exact flatMap_counted (fun n c => c.terms_test n) n group

/-- Groups bind the values of their conditions in reading order. -/
theorem values_groupsPieces (o : PredicateOptions) (groups : List (List Condition)) :
    (groupsPieces o groups).values = groups.flatMap fun group =>
      group.flatMap fun c => (c.pieces o).values := by
  simp [groupsPieces, groupPieces, Fragment.values_joined, List.flatMap_map]

/-- A clause binds one value for each operand. -/
theorem length_values_groupsPieces (o : PredicateOptions) (groups : List (List Condition)) :
    (groupsPieces o groups).values.length =
      (groups.flatten.flatMap Condition.operands).length := by
  rw [values_groupsPieces, ← length_values_conditions o, List.flatten_eq_flatMap,
    List.flatMap_assoc]
  rfl

/-- **Every condition finds its own values,** whatever is bound before and behind the clause. -/
theorem fill_tests (before after : List SqlValue) (groups : List (List Condition)) :
    (tests before.length groups).map
        (·.map (Test.fill (before ++ (groupsPieces o groups).values ++ after))) =
      groups.map (·.map (Condition.demand o)) := by
  -- Twice the same argument: conditions in a group, and groups in the clause.
  have hgroup : ∀ group : List Condition, ∀ before after : List SqlValue,
      (groupTests before.length group).map
          (Test.fill (before ++ (group.flatMap fun c => (c.pieces o).values) ++ after)) =
        group.map (Condition.demand o) := fun group =>
    map_counted_values (fun c _ => (c.length_values_pieces o).symm) fun c _ => c.fill_test
  rw [values_groupsPieces]
  refine map_counted_values (r := fun bound (ts : List Test) => ts.map (Test.fill bound))
    (fun group _ => ?_) (fun group _ => hgroup group) before after
  exact (length_values_conditions o group).symm

/-- The tokens of the conditions of a group behind `bound` bound values. -/
def groupParts (d : Dialect) (o : PredicateOptions) (bound : Nat) (group : List Condition) :
    List (List Token) :=
  counted (fun n c => tokens d n (c.pieces o)) Condition.paramCount bound group

/-- The tokens of the conditions of groups behind `bound` bound values. -/
def parts (d : Dialect) (o : PredicateOptions) (bound : Nat) (groups : List (List Condition)) :
    List (List (List Token)) :=
  counted (groupParts d o) groupCount bound groups

/-- The tokens of a group are those of its conditions with `AND` between them. -/
theorem tokens_groupPieces (bound : Nat) (group : List Condition) :
    tokens d bound (groupPieces o group) =
      [.word "AND"].intercalate (groupParts d o bound group) := by
  rw [tokens, groupPieces, Fragment.render_joined,
    Fragment.renderList_map (Condition.length_values_pieces o)]
  rfl

/-- **The tokens of a clause** are those of an OR of ANDs of its conditions. -/
theorem tokens_groupsPieces {groups : List (List Condition)} (hne : groups ≠ []) (bound : Nat) :
    tokens d bound (groupsPieces o groups) =
      .word "WHERE" :: Formula.written (parts d o bound groups) := by
  have hparts : renderList (Token.rendering d) bound (groups.map (groupPieces o)) =
      (parts d o bound groups).map [.word "AND"].intercalate := by
    rw [Fragment.renderList_map (length_values_groupPieces o), parts, map_counted]
    simp only [← tokens_groupPieces]
  have hbranches : (parts d o bound groups).map [.word "AND"].intercalate ≠ [] := by
    rw [← hparts]
    exact Fragment.renderList_ne_nil (by simpa using hne) bound
  -- The text opens two parentheses at once and closes them between groups, where the formula wraps
  -- every group by itself.
  have hwrapped := intercalate_wrapped [.sign "("] [.sign ")"] [.word "OR"] hbranches
  rw [List.map_map] at hwrapped
  have hwritten : Formula.written (parts d o bound groups) = Formula.wrap ([.sign "("] ++
      [.sign ")", .word "OR", .sign "("].intercalate
        ((parts d o bound groups).map [.word "AND"].intercalate) ++ [.sign ")"]) :=
    congrArg Formula.wrap hwrapped
  have hopen : Token.ofPlain "WHERE ((".toList = [.word "WHERE", .sign "(", .sign "("] := rfl
  have hbetween : Token.ofPlain ") OR (".toList = [.sign ")", .word "OR", .sign "("] := rfl
  have hclose : Token.ofPlain "))".toList = [.sign ")", .sign ")"] := rfl
  rw [tokens, groupsPieces, List.cons_append, render, Fragment.render_append,
    Fragment.render_joined, hparts, render, hwritten]
  simp only [Token.rendering_text, hopen, hbetween, hclose, Formula.wrap, render, List.append_nil,
    List.append_assoc, List.cons_append, List.nil_append]

/-- **Condition by condition the tokens of a clause read as its tests.** -/
theorem readsTest_parts (d : Dialect) (o : PredicateOptions) {groups : List (List Condition)}
    (hne : ∀ group ∈ groups, group ≠ []) (hc : ∀ group ∈ groups, ∀ c ∈ group, c.WellFormed)
    (bound : Nat) :
    List.Forall₂ (fun parts tests => parts ≠ [] ∧ List.Forall₂ Formula.ReadsTest parts tests)
      (parts d o bound groups) (tests bound groups) := by
  refine forall₂_counted (fun group hgroup n => ⟨?_, ?_⟩) bound
  · obtain ⟨c, cs, rfl⟩ := List.exists_cons_of_ne_nil (hne group hgroup)
    exact List.cons_ne_nil _ _
  · exact forall₂_counted (fun c hmem n => Condition.readsTest d (hc group hgroup c hmem) n) n

/-- **The condition of a clause reads back,** whatever stands before it. -/
theorem ofWhere?_groupsPieces {sql : String} {ts : List Token} {groups : List (List Condition)}
    {bound : Nat} (hsql : Token.read? sql = some (ts ++ tokens d bound (groupsPieces o groups)))
    (hts : ∀ t ∈ ts, Reader.isKeyword "where" t = false) (hnil : groups ≠ [])
    (hne : ∀ group ∈ groups, group ≠ []) (hc : ∀ group ∈ groups, ∀ c ∈ group, c.WellFormed) :
    Formula.ofWhere? sql = some (ts, Formula.ofTests (tests bound groups)) := by
  rw [tokens_groupsPieces hnil] at hsql
  have hparts : parts d o bound groups ≠ [] := by
    obtain ⟨group, groups, rfl⟩ := List.exists_cons_of_ne_nil hnil
    exact List.cons_ne_nil _ _
  exact Formula.ofWhere?_written hsql hts (readsTest_parts d o hne hc bound) hparts

/-- The demand that a column flags no row as deleted, if there is such a column: it is equal to what
a zero stands for. -/
def guardDemand (o : PredicateOptions) (softDelete : Option String) : List Test :=
  softDelete.toList.map fun column =>
    .compare column .equal (.literal (o.standsFor column (.int 0)))

/-- What a filter demands: one of its groups, and of each group all conditions and the guard. -/
def demands (o : PredicateOptions) (f : Filter) (softDelete : Option String) : List (List Test) :=
  f.groups.map fun group => group.map (Condition.demand o) ++ guardDemand o softDelete

variable {f : Filter} {softDelete : Option String}

/-- The conditions of the guarded groups demand what the filter and its guard demand. -/
theorem demands_eq (h : f.matchesAll = false) :
    (f.guardedGroups softDelete).map (·.map (Condition.demand o)) = f.demands o softDelete := by
  rw [guardedGroups, if_neg (by simp [h]), List.map_map, demands]
  have hguard : (guard softDelete).map (Condition.demand o) = guardDemand o softDelete := by
    cases softDelete <;> rfl
  simp only [Function.comp_def, List.map_append, hguard]

/-- A filter that does not match every row has a group, with a guard or without. -/
theorem guardedGroups_ne_nil (hall : f.matchesAll = false) (softDelete : Option String) :
    f.guardedGroups softDelete ≠ [] := by
  rw [guardedGroups, if_neg (by simp [hall])]
  intro hnil
  simp [matchesAll, List.map_eq_nil_iff.1 hnil] at hall

/-- The guard leaves a filter well-formed. -/
theorem WellFormed.guarded (hf : f.WellFormed) (hall : f.matchesAll = false)
    (softDelete : Option String) :
    (Filter.mk (f.guardedGroups softDelete)).WellFormed := by
  have hguard : ∀ c ∈ guard softDelete, c.WellFormed := by
    intro c hc
    obtain ⟨column, -, rfl⟩ := List.mem_map.1 hc
    rfl
  rw [guardedGroups, if_neg (by simp [hall])]
  constructor
  · rw [List.forall_mem_map]
    intro group hgroup
    exact List.append_ne_nil_of_left_ne_nil (hf.ne_nil group hgroup) _
  · rw [List.forall_mem_map]
    intro group hgroup c hc
    rcases List.mem_append.1 hc with hc | hc
    · exact hf.conditions group hgroup c hc
    · exact hguard c hc

/-- **The clause of a filter says what the filter says.** -/
theorem exists_clause_of_whereFragment (hd : d.Bundled) (hf : f.Reachable)
    (hall : f.matchesAll = false) (before : List SqlValue) {found : Option Fragment}
    (h : f.whereFragment softDelete o = .ok found) :
    ∃ (clause : Fragment) (formula : Formula) (tests : List (List Test)), found = some clause ∧
      Formula.ofWhere? (clause.sql d before.length) = some ([], formula) ∧
      formula.disjuncts.map Formula.conjuncts = tests.map (·.map .test) ∧
      tests.flatten.flatMap Test.terms =
        Term.placeholders before.length clause.values.length ∧
      tests.map (·.map (Test.fill (before ++ clause.values))) = f.demands o softDelete := by
  have hguarded := hf.wellFormed.guarded hall softDelete
  have hnil := guardedGroups_ne_nil hall softDelete
  obtain ⟨-, rfl⟩ := (f.whereFragment_yields softDelete o).eq_of_ok h
  -- Neither the filter nor its guard leaves nothing to write, so there is a clause.
  have hfound : f.wherePieces softDelete o =
      some (groupsPieces o (f.guardedGroups softDelete)) := by
    rw [wherePieces]
    split
    · rename_i heq
      exact absurd heq hnil
    · rfl
  have hlegible : Legible [] (groupsPieces o (f.guardedGroups softDelete)) :=
    groupsPieces_legible o (f.guardedGroups softDelete)
  have hsql := Fragment.tokens_sql hd hlegible (by simp) before.length
  refine ⟨_, _, tests before.length (f.guardedGroups softDelete), hfound,
    ofWhere?_groupsPieces hsql (by simp) hnil hguarded.ne_nil hguarded.conditions,
    Formula.branches_ofTests _, ?_, ?_⟩
  · rw [terms_tests, length_values_groupsPieces]
  · have hfill := fill_tests (o := o) before [] (f.guardedGroups softDelete)
    rwa [List.append_nil, demands_eq hall] at hfill

/-- A clause behind one bound value, with a name that looks like the end of a group, digits that are
compared as a number, an empty list and a pattern. -/
theorem exists_clause_of_quoted :
    ∃ (clause : Fragment) (formula : Formula) (tests : List (List Test)),
      (ofGroups [[.equal "a\") OR (\"b" (.str "7"), .inList "c" [.int 2, .str "03"]],
        [.notInList "d" [], .like "e" "50%"]]).whereFragment (some "gone") ⟨true, some {}⟩ =
          .ok (some clause) ∧
      Formula.ofWhere? (clause.sql .postgres 1) = some ([], formula) ∧
      formula.disjuncts.map Formula.conjuncts = tests.map (·.map .test) ∧
      tests.map (·.map (Test.fill (.null :: clause.values))) =
        [[.compare "a\") OR (\"b" .equal (.literal (.int 7)),
          .member "c" false [.literal (.int 2), .literal (.int 3)],
          .compare "gone" .equal (.literal (.int 0))],
        [.constant true, .compare "e" .like (.literal (.text "%50%%")),
          .compare "gone" .equal (.literal (.int 0))]] := by
  have hf : Reachable (ofGroups [[.equal "a\") OR (\"b" (.str "7"),
      .inList "c" [.int 2, .str "03"]], [.notInList "d" [], .like "e" "50%"]]) :=
    .ofGroups (by simp [Condition.Reachable.equal, Condition.Reachable.inList,
      Condition.Reachable.notInList, Condition.Reachable.like])
  have h := (whereFragment_yields (ofGroups [[.equal "a\") OR (\"b" (.str "7"),
    .inList "c" [.int 2, .str "03"]], [.notInList "d" [], .like "e" "50%"]]) (some "gone")
    ⟨true, some {}⟩ _).2 ⟨by decide, rfl⟩
  obtain ⟨clause, formula, tests, hclause, hread, hbranches, -, hfill⟩ :=
    exists_clause_of_whereFragment .postgres hf rfl [.null] h
  refine ⟨clause, formula, tests, h.trans (congrArg Except.ok hclause), hread, hbranches,
    hfill.trans ?_⟩
  decide +kernel

end Filter
end Querysmith
