/-
# What filters are and mean

A filter that a caller can come by has no empty group, its conditions have the operands that their
operators take (`Condition.OperandFits`), and it is true where its construction says: a filter of
groups where one of the groups is, and a filter with a further branch where either is.  A filter
without groups is true everywhere, so an empty group, or a branch behind such a filter, leaves no
groups at all.  Hence every branch of a clause holds a condition, and nowhere in it a parenthesis is
closed right behind the one that opens it (`Sql.Filled`).
-/

import Querysmith.Proofs.Filter.Clause
import Querysmith.Proofs.Filter.Narrowing

namespace Querysmith

open Fragment (Legible tokens)
open Sql (Token Formula)

/-! ### Parentheses -/

namespace Sql

/-- No parenthesis is closed right behind the one that opens it. -/
def NoEmptyPair (ts : List Token) : Prop :=
  ¬[.sign "(", .sign ")"] <:+: ts

/-- The second token does not close the first one. -/
def Apart (s t : Token) : Prop := s = .sign "(" → t ≠ .sign ")"

/-- Tokens with no empty pair of parentheses, which can neither begin nor end one. -/
structure Filled (ts : List Token) : Prop where
  ne_nil : ts ≠ []
  chain : ts.IsChain Apart
  head : ∀ t ∈ ts.head?, t ≠ .sign ")"
  last : ∀ t ∈ ts.getLast?, t ≠ .sign "("

/-- Where neighbours are apart no parenthesis is closed right behind its opening. -/
theorem noEmptyPair_of_isChain {ts : List Token} (h : ts.IsChain Apart) : NoEmptyPair ts := by
  intro hpair
  have hapart : Apart (.sign "(") (.sign ")") :=
    List.isChain_pair.1 <| List.IsChain.infix h hpair
  exact hapart rfl rfl

namespace Filled

variable {ts us : List Token}

/-- Tokens without parentheses fill a pair of them. -/
theorem of_forall (hne : ts ≠ []) (h : ∀ t ∈ ts, t ≠ .sign "(" ∧ t ≠ .sign ")") : Filled ts where
  ne_nil := hne
  chain := (List.pairwise_of_forall_mem_list fun s hs _ _ heq => absurd heq (h s hs).1).isChain
  head := fun t ht => (h t (List.mem_of_mem_head? ht)).2
  last := fun t ht => (h t (List.mem_of_mem_getLast? ht)).1

/-- What is filled at both ends stays so in one piece. -/
theorem append (hts : Filled ts) (hus : Filled us) : Filled (ts ++ us) where
  ne_nil := List.append_ne_nil_of_left_ne_nil hts.ne_nil us
  chain := List.isChain_append.2 ⟨hts.chain, hus.chain, fun s hs _ _ heq =>
    absurd heq (hts.last s hs)⟩
  head := by
    obtain ⟨t, rest, rfl⟩ := List.exists_cons_of_ne_nil hts.ne_nil
    exact hts.head
  last := by
    rw [List.getLast?_append_of_ne_nil _ hus.ne_nil]
    exact hus.last

/-- Filled parts with a filled separator are filled together. -/
theorem intercalate {sep : List Token} (hsep : Filled sep) {parts : List (List Token)}
    (hne : parts ≠ []) (h : ∀ part ∈ parts, Filled part) : Filled (sep.intercalate parts) := by
  induction parts with
  | nil => exact absurd rfl hne
  | cons part rest ih =>
    rw [List.forall_mem_cons] at h
    cases rest with
    | nil =>
      rw [List.intercalate_singleton]
      exact h.1
    | cons next rest =>
      rw [List.intercalate_cons_cons]
      exact (h.1.append hsep).append (ih (List.cons_ne_nil next rest) h.2)

/-- What stands between parentheses keeps them apart. -/
theorem wrap (h : Filled ts) : Filled (Formula.wrap ts) where
  ne_nil := List.cons_ne_nil _ _
  chain := by
    refine List.isChain_append.2 ⟨List.isChain_append.2 ⟨.singleton _, h.chain, ?_⟩,
      .singleton _, ?_⟩
    · intro _ _ t ht _
      exact h.head t ht
    · intro s hs _ _ heq
      rw [List.getLast?_append_of_ne_nil _ h.ne_nil] at hs
      exact absurd heq (h.last s hs)
  head := by
    intro t ht
    obtain rfl := Option.some.inj ht
    decide
  last := by
    intro t ht
    rw [Formula.wrap, List.getLast?_concat] at ht
    obtain rfl := Option.some.inj ht
    decide

end Filled
end Sql

namespace Operator

/-- An operator is written without parentheses. -/
theorem tokens_ne_parenthesis (op : Operator) :
    ∀ t ∈ op.tokens, t ≠ .sign "(" ∧ t ≠ .sign ")" := by
  cases op <;> exact forall_mem_of_all (by decide)

end Operator

namespace Condition

variable {o : PredicateOptions} {d : Dialect} {c : Condition}

/-- **A condition is never empty:** its tokens fill a pair of parentheses. -/
theorem tokens_filled (hc : c.WellFormed) (bound : Nat) :
    Sql.Filled (tokens d bound (c.pieces o)) := by
  obtain ⟨column, op, operand⟩ := c
  match operand with
  | .list [] =>
    -- The operator of an empty list is one of those that take a list, and it is written as a
    -- constant.
    have hop : op.takesList = true := hc
    rw [tokens_nil hop]
    refine .of_forall (by simp) ?_
    simp
  | .list (v :: vs) =>
    have hplaceholders : Sql.Filled ([.sign ","].intercalate
        ((List.range' (bound + 1) (v :: vs).length).map fun n => [.placeholder n])) := by
      refine .intercalate (.of_forall (by simp) (by simp)) (by simp) ?_
      rw [List.forall_mem_map]
      intro n _
      exact .of_forall (by simp) (by simp)
    have hname : Sql.Filled (.name column :: op.tokens) := by
      refine .of_forall (by simp) ?_
      rw [List.forall_mem_cons]
      exact ⟨by simp, op.tokens_ne_parenthesis⟩
    have hall := hname.append hplaceholders.wrap
    rw [tokens_list column op (List.cons_ne_nil v vs)]
    simpa [Formula.wrap] using hall
  | .scalar v =>
    rw [tokens_scalar]
    refine .of_forall (by simp) ?_
    rw [List.forall_mem_cons, List.forall_mem_append, List.forall_mem_singleton]
    exact ⟨by simp, op.tokens_ne_parenthesis, by simp⟩

end Condition

namespace Filter

variable {o : PredicateOptions} {d : Dialect}

/-- **A clause of well-formed groups has no empty pair of parentheses:** every group has a
condition, and every list that is written has a member. -/
theorem noEmptyPair_groupsPieces {groups : List (List Condition)} (hnil : groups ≠ [])
    (h : (Filter.mk groups).WellFormed) (bound : Nat) :
    Sql.NoEmptyPair (tokens d bound (groupsPieces o groups)) := by
  -- Filled parts with a word between them are filled, so the groups are, and then the whole clause
  -- is.
  have hparts : ∀ group ∈ parts d o bound groups,
      group ≠ [] ∧ ∀ part ∈ group, Sql.Filled part := by
    refine forall_mem_counted_of (fun group hgroup n => ⟨?_, ?_⟩) bound
    · obtain ⟨c, cs, rfl⟩ := List.exists_cons_of_ne_nil (h.ne_nil group hgroup)
      exact List.cons_ne_nil _ _
    · exact forall_mem_counted_of
        (fun c hc n => Condition.tokens_filled (h.conditions group hgroup c hc) n) n
  have hword : ∀ word, Sql.Filled [.word word] := fun word => .of_forall (by simp) (by simp)
  have hgroups : ∀ part ∈ (parts d o bound groups).map Formula.writtenGroup, Sql.Filled part := by
    rw [List.forall_mem_map]
    intro group hgroup
    obtain ⟨hne, hfilled⟩ := hparts group hgroup
    exact ((hword "AND").intercalate hne hfilled).wrap
  have hne : (parts d o bound groups).map Formula.writtenGroup ≠ [] := by
    obtain ⟨group, groups, rfl⟩ := List.exists_cons_of_ne_nil hnil
    exact List.cons_ne_nil _ _
  have hwritten : Sql.Filled (Formula.written (parts d o bound groups)) :=
    ((hword "OR").intercalate hne hgroups).wrap
  rw [tokens_groupsPieces hnil]
  exact Sql.noEmptyPair_of_isChain ((hword "WHERE").append hwritten).chain

/-- The guard leaves every filter well-formed, and stands alone behind one without groups. -/
theorem WellFormed.guardedGroups {f : Filter} (hf : f.WellFormed) (softDelete : Option String) :
    (Filter.mk (f.guardedGroups softDelete)).WellFormed := by
  cases hall : f.matchesAll with
  | false => exact hf.guarded hall softDelete
  | true =>
    rw [Filter.guardedGroups, if_pos hall]
    constructor
    · rw [List.forall_mem_map]
      intro column _
      exact List.cons_ne_nil _ _
    · rw [List.forall_mem_map]
      intro column _ c hc
      obtain rfl := List.mem_singleton.1 hc
      rfl

/-- **A further branch is true beside the others.** -/
theorem holds_or (p : Condition → Prop) (f : Filter) (group : List Condition) :
    (f.or group).Holds p ↔ f.Holds p ∨ ∀ c ∈ group, p c := by
  have hall : Filter.all.Holds p := .inl rfl
  rw [or]
  split
  · rename_i hempty
    refine iff_of_true hall ?_
    rcases Bool.or_eq_true_iff.1 hempty with hgroups | hgroup
    · exact .inl (.inl (List.isEmpty_iff.1 hgroups))
    · obtain rfl := List.isEmpty_iff.1 hgroup
      exact .inr fun c hc => absurd hc List.not_mem_nil
  · rename_i hempty
    have hgroups : f.groups ≠ [] := fun hnil => hempty (by simp [hnil])
    have hboth : f.groups ++ [group] ≠ [] := List.append_ne_nil_of_left_ne_nil hgroups _
    unfold Holds
    simp only [hgroups, hboth, false_or, List.mem_append, List.mem_singleton, or_and_right,
      exists_or, exists_eq_left]

/-- **What a reachable filter is and means.**  It has no empty group, and every condition has the
operand that its operator takes.  Whichever conditions are true, a filter of groups is true where
one of its groups is, a filter of one group where all its conditions are, a filter with a further
branch where either is, and a filter without groups everywhere.  In its clause, with the guard of a
soft-delete column or without, no parentheses stand around nothing. -/
theorem meaning_of_reachable {f : Filter} (hf : f.Reachable) :
    (∀ group ∈ f.groups, group ≠ []) ∧
    (∀ group ∈ f.groups, ∀ c ∈ group, c.OperandFits) ∧
    (∀ p : Condition → Prop, all.Holds p ∧
      (∀ conditions, (and conditions).Holds p ↔ ∀ c ∈ conditions, p c) ∧
      (∀ groups, (ofGroups groups).Holds p ↔ groups = [] ∨ ∃ group ∈ groups, ∀ c ∈ group, p c) ∧
      ∀ group, (f.or group).Holds p ↔ f.Holds p ∨ ∀ c ∈ group, p c) ∧
    ∀ (softDelete : Option String) (o : PredicateOptions) (clause : Fragment),
      f.whereFragment softDelete o = .ok (some clause) → ∀ (d : Dialect) (bound : Nat),
        Sql.NoEmptyPair (tokens d bound clause) ∧
        (d.Bundled → Token.read? (clause.sql d bound) = some (tokens d bound clause)) := by
  refine ⟨hf.composed.ne_nil, fun group hgroup c hc =>
    (hf.composed.conditions group hgroup c hc).operandFits,
    fun p => ⟨.inl rfl, holds_and p, holds_ofGroups p, holds_or p f⟩, ?_⟩
  intro softDelete o clause h d bound
  obtain ⟨-, hclause⟩ := (f.whereFragment_yields softDelete o).eq_of_ok h
  have hguarded := hf.wellFormed.guardedGroups softDelete
  unfold wherePieces at hclause
  -- Without groups no clause is written at all.
  cases hgroups : f.guardedGroups softDelete with
  | nil =>
    rw [hgroups] at hclause
    cases hclause
  | cons group groups =>
    rw [hgroups] at hclause hguarded
    obtain rfl := Option.some.inj hclause
    have hlegible : Legible [] (groupsPieces o (group :: groups)) :=
      groupsPieces_legible o (group :: groups)
    exact ⟨noEmptyPair_groupsPieces (List.cons_ne_nil _ _) hguarded bound,
      fun hd => Fragment.tokens_sql hd hlegible (by simp) bound⟩

/-- A request with an empty list, an empty condition and a further field, and a branch with a name
that holds an empty pair of parentheses. -/
theorem meaning_of_reachable_branches :
    ∃ (f : Filter) (clause : Fragment) (ts : List Token),
      ofInput (.obj [("filter", .arr [.arr [.arr [.str "a", .str "in", .arr []], .arr []]]),
        ("b", .int 2)]) "id" = .ok f ∧
      (f.or [.like "c()" "x"]).whereFragment none {} = .ok (some clause) ∧
      clause.sql .postgres 0 = "WHERE ((1 = 0 AND \"b\" = $1) OR (\"c()\" like $2))" ∧
      Token.read? (clause.sql .postgres 0) = some ts ∧ Sql.NoEmptyPair ts := by
  have hinput : ofInput (.obj [("filter", .arr [.arr [.arr [.str "a", .str "in", .arr []],
      .arr []]]), ("b", .int 2)]) "id" = .ok ⟨[[.inList "a" [], .equal "b" (.int 2)]]⟩ := by
    rfl
  have hf : (Filter.or ⟨[[.inList "a" [], .equal "b" (.int 2)]]⟩ [.like "c()" "x"]).Reachable :=
    .or (.ofInput hinput) (List.forall_mem_singleton.2 (.like "c()" "x"))
  have hclause := (whereFragment_yields (Filter.or ⟨[[.inList "a" [], .equal "b" (.int 2)]]⟩
    [.like "c()" "x"]) none {} _).2 ⟨by decide, rfl⟩
  obtain ⟨-, -, -, hread⟩ := meaning_of_reachable hf
  obtain ⟨hpair, hsql⟩ := hread none {} _ hclause .postgres 0
  exact ⟨_, _, _, hinput, hclause, by decide +kernel, hsql .postgres, hpair⟩

end Filter
end Querysmith
