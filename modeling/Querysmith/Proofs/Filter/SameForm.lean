/-
# Filters of the same form

Two filters have the same form when they have the same groups of the same columns and operators, and
their lists have the same lengths; the values may be any.  Such filters pass and fail the same
checks, and their clauses have the same outline (`Filter.whereFragment_agree`), with options that
normalize values or wrap patterns as well as without.
-/

import Querysmith.Filter.Where
import Querysmith.Proofs.Agreement
import Querysmith.Proofs.Fragment.Outline
import Querysmith.Proofs.Lists

namespace Querysmith

/-- How many members a list has; a single value is no list. -/
def Operand.length? : Operand → Option Nat
  | .scalar _ => none
  | .list members => some members.length

namespace Condition

/-- The conditions compare the same column by the same operator, with lists of the same length or
with one value each. -/
structure SameForm (a b : Condition) : Prop where
  column : a.column = b.column
  operator : a.operator = b.operator
  length : a.operand.length? = b.operand.length?

/-- A condition has the form of itself. -/
theorem SameForm.refl (a : Condition) : a.SameForm a :=
  ⟨rfl, rfl, rfl⟩

variable {a b : Condition}

/-- Conditions of the same form bind the same number of values. -/
theorem SameForm.length_operands (h : a.SameForm b) : a.operands.length = b.operands.length := by
  obtain ⟨column, op, operand⟩ := a
  obtain ⟨column', op', operand'⟩ := b
  have hlength := h.length
  cases operand with
  | scalar v =>
    cases operand' with
    | scalar w => rfl
    | list ws => cases hlength
  | list vs =>
    cases operand' with
    | scalar w => cases hlength
    | list ws => exact Option.some.inj hlength

/-- Conditions of the same form are written alike. -/
theorem fragment_agree (o : PredicateOptions) (h : a.SameForm b) :
    Agree Fragment.SameOutline (a.fragment o) (b.fragment o) := by
  obtain ⟨column, op, operand⟩ := a
  obtain ⟨column', op', operand'⟩ := b
  obtain ⟨rfl, rfl, hlength⟩ := h
  refine Agree.bind_same _ fun name => ?_
  match operand, operand', hlength with
  | .scalar v, .scalar w, _ => exact .pure ((Fragment.SameOutline.refl name).append rfl)
  | .list [], .list [], _ => exact .pure rfl
  | .list (v :: vs), .list (w :: ws), hlength =>
    have hholes : List.Forall₂ Fragment.SameOutline
        ((v :: vs).map fun v => [.hole (o.bind column v) none])
        ((w :: ws).map fun w => [.hole (o.bind column w) none]) := by
      rw [List.forall₂_map_left_iff, List.forall₂_map_right_iff]
      exact forall₂_of_length_eq (fun v w => Fragment.SameOutline.hole _ _ none)
        (Option.some.inj hlength)
    exact .pure (((Fragment.SameOutline.refl name).append
      (.cons _ (Fragment.SameOutline.joined ", " hholes))).append rfl)

end Condition

namespace Filter

/-- The groups hold conditions of the same form. -/
abbrev SameGroups : List (List Condition) → List (List Condition) → Prop :=
  List.Forall₂ (List.Forall₂ Condition.SameForm)

/-- The filters have the same groups of conditions but for the values. -/
def SameForm (f g : Filter) : Prop :=
  SameGroups f.groups g.groups

/-- A group has the form of itself. -/
theorem sameForm_refl (group : List Condition) : List.Forall₂ Condition.SameForm group group :=
  List.forall₂_same.2 fun c _ => .refl c

variable {f g : Filter}

/-- Filters of the same form bind the same number of values. -/
theorem SameForm.paramCount_eq (h : f.SameForm g) : f.paramCount = g.paramCount := by
  have hgroup : ∀ {as bs}, List.Forall₂ Condition.SameForm as bs →
      (as.flatMap Condition.operands).length = (bs.flatMap Condition.operands).length := by
    intro as bs h
    induction h with
    | nil => rfl
    | cons hab _ ih =>
      rw [List.flatMap_cons, List.flatMap_cons, List.length_append, List.length_append, ih,
        hab.length_operands]
  exact hgroup (List.rel_flatten h)

/-- A guard is put behind groups of the same form, or stands alone in both filters. -/
theorem SameForm.guardedGroups (h : f.SameForm g) (softDelete : Option String) :
    SameGroups (f.guardedGroups softDelete) (g.guardedGroups softDelete) := by
  obtain ⟨groups⟩ := f
  obtain ⟨groups'⟩ := g
  rw [Filter.guardedGroups, Filter.guardedGroups, matchesAll, matchesAll]
  cases (h : SameGroups groups groups') with
  | nil => exact List.forall₂_same.2 fun group _ => sameForm_refl group
  | cons hhead htail =>
    refine List.rel_map (fun {a b} hab => ?_) (.cons hhead htail)
    exact List.rel_append hab (sameForm_refl _)

/-- Groups of one form are written alike, or fail alike. -/
theorem groupFragment_agree (o : PredicateOptions) {group group' : List Condition}
    (h : List.Forall₂ Condition.SameForm group group') :
    Agree Fragment.SameOutline (groupFragment o group) (groupFragment o group') :=
  (Agree.mapM (h.imp fun _ _ => Condition.fragment_agree o)).bind fun _ _ hparts =>
    .pure (.joined " AND " hparts)

/-- **Clauses of one form are written alike,** or fail alike: only columns are checked. -/
theorem groupsFragment_agree (o : PredicateOptions) {groups groups' : List (List Condition)}
    (h : SameGroups groups groups') :
    Agree Fragment.SameOutline (groupsFragment o groups) (groupsFragment o groups') :=
  (Agree.mapM (h.imp fun _ _ => groupFragment_agree o)).bind fun _ _ hparts =>
    .pure (.cons _ ((Fragment.SameOutline.joined ") OR (" hparts).append rfl))

/-- **The clauses of filters of the same form have the same outline,** or both filters have none, or
both stop at the same error. -/
theorem whereFragment_agree (h : f.SameForm g) (softDelete : Option String)
    (o : PredicateOptions) :
    Agree (Option.Rel Fragment.SameOutline) (f.whereFragment softDelete o)
      (g.whereFragment softDelete o) := by
  have hgroups := h.guardedGroups softDelete
  rw [whereFragment, whereFragment]
  generalize f.guardedGroups softDelete = groups at hgroups
  generalize g.guardedGroups softDelete = groups' at hgroups
  cases hgroups with
  | nil => exact .ok .none
  | cons hhead htail =>
    exact (groupsFragment_agree o (.cons hhead htail)).map fun _ _ hparts => .some hparts

end Filter
end Querysmith
