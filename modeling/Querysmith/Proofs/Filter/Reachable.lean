/-
# Reachable filters

The filters that a caller can come by: those that the constructors build from conditions, and those
that the readers make of JSON.  All of them are composed of conditions that a caller can come by and
have no empty group (`Filter.Reachable.composed`), and such a condition has a list exactly where its
operator takes one and no array or object elsewhere (`Condition.Reachable.operandFits`).
-/

import Querysmith.Filter
import Querysmith.Proofs.Success

namespace Querysmith

/-- Two operators take a list. -/
theorem Operator.takesList_iff (op : Operator) :
    op.takesList = true ↔ op = .isIn ∨ op = .notIn := by
  cases op <;> simp [takesList]

namespace Condition

/-- The conditions that a caller can come by. -/
inductive Reachable : Condition → Prop
  | make {column : String} {op : Operator} {v : Json} {c : Condition} :
      Condition.make column op v = .ok c → Reachable c
  | ofJson {v : Json} {c : Condition} : Condition.ofJson v = .ok c → Reachable c
  | equal (column : String) (v : Json) : Reachable (Condition.equal column v)
  | notEqual (column : String) (v : Json) : Reachable (Condition.notEqual column v)
  | less (column : String) (v : Json) : Reachable (Condition.less column v)
  | greater (column : String) (v : Json) : Reachable (Condition.greater column v)
  | like (column pattern : String) : Reachable (Condition.like column pattern)
  | inList (column : String) (members : List Json) : Reachable (Condition.inList column members)
  | notInList (column : String) (members : List Json) :
      Reachable (Condition.notInList column members)

/-- The operand is a list where the operator takes one, and a single value elsewhere. -/
def WellFormed (c : Condition) : Prop :=
  match c.operand with
  | .scalar _ => c.operator.takesList = false
  | .list _ => c.operator.takesList = true

/-- The operand is a list for `in` and `not in` alone, and no array or object otherwise. -/
structure OperandFits (c : Condition) : Prop where
  list_iff : (∃ members, c.operand = .list members) ↔ c.operator = .isIn ∨ c.operator = .notIn
  scalar : ∀ v, c.operand = .scalar v → v.isStructured = false

variable {column : String} {op : Operator} {c : Condition}

/-- A list fits an operator that takes one. -/
theorem operandFits_list (hop : op.takesList = true) (members : List Json) :
    OperandFits ⟨column, op, .list members⟩ where
  list_iff := iff_of_true ⟨members, rfl⟩ (op.takesList_iff.1 hop)
  scalar := fun _ h => by cases h

/-- A value without parts fits an operator that takes no list. -/
theorem operandFits_scalar (hop : op.takesList = false) {v : Json} (hv : v.isStructured = false) :
    OperandFits ⟨column, op, .scalar v⟩ where
  list_iff := by
    -- Neither is the operand a list nor does the operator take one.
    refine iff_of_false ?_ ?_
    · rintro ⟨members, h⟩
      cases h
    · rw [← op.takesList_iff, hop]
      exact Bool.false_ne_true
  scalar := fun w h => by
    obtain rfl := Operand.scalar.inj h
    exact hv

/-- An array or object is compared by its text. -/
theorem scalar_operandFits (hop : op.takesList = false) (v : Json) :
    (Condition.scalar column op v).OperandFits := by
  refine operandFits_scalar hop ?_
  split
  · rfl
  · exact Bool.eq_false_iff.2 ‹_›

/-- **What is made of an operator and a value fits,** since anything else is refused: a list for an
operator of lists, and for any other one a value that is no array and no object. -/
theorem make_operandFits {v : Json} (h : make column op v = .ok c) : c.OperandFits := by
  -- The reader looks at the operator first and then at the shape of the operand.
  unfold make at h
  split at h
  · split at h
    · obtain rfl := Except.ok.inj h
      exact operandFits_list ‹_› _
    · cases h
  · split at h
    · cases h
    · obtain rfl := Except.ok.inj h
      exact operandFits_scalar (Bool.eq_false_iff.2 ‹_›) (Bool.eq_false_iff.2 ‹_›)

/-- A condition is read from a column, a text that names an operator, and an operand for it. -/
theorem exists_parts_of_ofJson {v : Json} (h : ofJson v = .ok c) :
    ∃ column text operand op, v = .arr [.str column, .str text, operand] ∧
      readOperator text = .ok op ∧ make column op operand = .ok c := by
  unfold ofJson at h
  split at h
  · rename_i column op operand
    cases column with
    | str column =>
      cases op with
      | str text =>
        obtain ⟨_, hname, h⟩ := exists_of_bind_eq_ok h
        obtain rfl := Except.ok.inj hname
        obtain ⟨op, hop, h⟩ := exists_of_bind_eq_ok h
        exact ⟨column, text, operand, op, rfl, hop, h⟩
      | null | bool _ | int _ | float _ | arr _ | obj _ => cases h
    | null | bool _ | int _ | float _ | arr _ | obj _ => cases h
  · cases h
  · cases h

/-- **The operand of every condition that a caller can come by fits its operator.**  Conditions come
from the constructors, which choose operand and operator together, and from the reader, which makes
them of both and checks. -/
theorem Reachable.operandFits (h : c.Reachable) : c.OperandFits := by
  cases h with
  | make h => exact make_operandFits h
  | ofJson h =>
    obtain ⟨_, _, _, _, -, -, h⟩ := exists_parts_of_ofJson h
    exact make_operandFits h
  | equal _ v => exact scalar_operandFits rfl v
  | notEqual _ v => exact scalar_operandFits rfl v
  | less _ v => exact scalar_operandFits rfl v
  | greater _ v => exact scalar_operandFits rfl v
  | like _ pattern => exact scalar_operandFits rfl (.str pattern)
  | inList _ members => exact operandFits_list rfl members
  | notInList _ members => exact operandFits_list rfl members

/-- What fits its operator is a list where that takes one, and a single value elsewhere. -/
theorem OperandFits.wellFormed (h : c.OperandFits) : c.WellFormed := by
  obtain ⟨column, op, operand⟩ := c
  cases operand with
  | list members => exact op.takesList_iff.2 (h.list_iff.1 ⟨members, rfl⟩)
  | scalar v =>
    refine Bool.eq_false_iff.2 fun hop => ?_
    obtain ⟨members, hmembers⟩ := h.list_iff.2 (op.takesList_iff.1 hop)
    cases hmembers

/-- Every condition that a caller can come by is well-formed. -/
theorem Reachable.wellFormed (h : c.Reachable) : c.WellFormed :=
  h.operandFits.wellFormed

end Condition

namespace Filter

/-- The filters that a caller can come by. -/
inductive Reachable : Filter → Prop
  | all : Reachable Filter.all
  | and {conditions : List Condition} : (∀ c ∈ conditions, c.Reachable) →
      Reachable (Filter.and conditions)
  | ofGroups {groups : List (List Condition)} : (∀ group ∈ groups, ∀ c ∈ group, c.Reachable) →
      Reachable (Filter.ofGroups groups)
  | or {f : Filter} {group : List Condition} : Reachable f → (∀ c ∈ group, c.Reachable) →
      Reachable (f.or group)
  | ofJson {v : Json} {f : Filter} : Filter.ofJson v = .ok f → Reachable f
  | ofMap {fields : List (String × Json)} {f : Filter} : Filter.ofMap fields = .ok f → Reachable f
  | ofInput {input : Json} {primaryKey : String} {f : Filter} :
      Filter.ofInput input primaryKey = .ok f → Reachable f

/-- No group is empty, and every condition is well-formed. -/
structure WellFormed (f : Filter) : Prop where
  ne_nil : ∀ group ∈ f.groups, group ≠ []
  conditions : ∀ group ∈ f.groups, ∀ c ∈ group, c.WellFormed

/-- No group is empty, and every condition is one that a caller can come by. -/
structure Composed (f : Filter) : Prop where
  ne_nil : ∀ group ∈ f.groups, group ≠ []
  conditions : ∀ group ∈ f.groups, ∀ c ∈ group, c.Reachable

/-- The filter without groups has no empty one. -/
theorem all_composed : all.Composed := ⟨by simp [all], by simp [all]⟩

/-- A filter of groups drops them all when one of them is empty, and so none that stays is. -/
theorem ofGroups_composed {groups : List (List Condition)}
    (h : ∀ group ∈ groups, ∀ c ∈ group, c.Reachable) : (ofGroups groups).Composed := by
  rw [ofGroups]
  split
  · exact all_composed
  · rename_i hany
    refine ⟨fun group hgroup hnil => hany ?_, h⟩
    exact List.any_eq_true.2 ⟨group, hgroup, by rw [hnil]; rfl⟩

/-- One group is composed of its conditions, or it is empty and dropped. -/
theorem and_composed {conditions : List Condition} (h : ∀ c ∈ conditions, c.Reachable) :
    (and conditions).Composed :=
  ofGroups_composed (by simpa using h)

/-- A further group is empty and drops all others, or it joins them. -/
theorem or_composed {f : Filter} {group : List Condition} (hf : f.Composed)
    (hgroup : ∀ c ∈ group, c.Reachable) : (f.or group).Composed := by
  rw [or]
  split
  · exact all_composed
  · rename_i hempty
    -- The new group is the last one, and it is not empty.
    refine ⟨fun g hg => ?_, fun g hg => ?_⟩
    · rcases List.mem_append.1 hg with hg | hg
      · exact hf.ne_nil g hg
      · obtain rfl := List.mem_singleton.1 hg
        rintro rfl
        exact hempty (by simp)
    · rcases List.mem_append.1 hg with hg | hg
      · exact hf.conditions g hg
      · obtain rfl := List.mem_singleton.1 hg
        exact hgroup

/-- A group is read condition by condition. -/
theorem reachable_of_readGroup {v : Json} {group : List Condition} (h : readGroup v = .ok group) :
    ∀ c ∈ group, c.Reachable := by
  cases v with
  | arr conditions =>
    intro c hc
    obtain ⟨_, _, hread⟩ := exists_of_mem_mapM h hc
    exact .ofJson hread
  | null | bool _ | int _ | float _ | str _ | obj _ => cases h

/-- **A filter that is read is composed of conditions that were read.**  A group of blank conditions
alone is empty, and a filter with an empty group is the filter without any, so none is left. -/
theorem ofJson_composed {v : Json} {f : Filter} (h : ofJson v = .ok f) : f.Composed := by
  unfold ofJson at h
  split at h
  · obtain rfl := Except.ok.inj h
    exact all_composed
  · obtain ⟨parsed, hgroups, h⟩ := exists_of_bind_eq_ok h
    obtain rfl := Except.ok.inj h
    refine ofGroups_composed ?_
    intro group hgroup
    obtain ⟨_, _, hread⟩ := exists_of_mem_mapM hgroups hgroup
    exact reachable_of_readGroup hread
  · split at h
    · obtain rfl := Except.ok.inj h
      exact all_composed
    · cases h

/-- The fields of a map become conditions of one group. -/
theorem ofMap_composed {fields : List (String × Json)} {f : Filter} (h : ofMap fields = .ok f) :
    f.Composed := by
  obtain ⟨conditions, hfields, h⟩ := exists_of_bind_eq_ok h
  obtain rfl := Except.ok.inj h
  refine and_composed ?_
  intro c hc
  obtain ⟨⟨column, v⟩, _, hmake⟩ := exists_of_mem_mapM hfields hc
  unfold fieldCondition at hmake
  split at hmake
  · exact .make hmake
  · exact .make hmake

/-- Every group of a filter is longer when it is narrowed, so none becomes empty. -/
theorem narrowed_composed {base extra : Filter} (hbase : base.Composed)
    (hextra : extra.Composed) : (base.narrowed extra).Composed := by
  rw [narrowed]
  split
  · exact hextra
  · -- The other filter has one group, or none when it matches every row.
    have hhead : ∀ c ∈ extra.groups.headD [], c.Reachable := by
      cases hgroups : extra.groups with
      | nil => simp
      | cons group groups => exact hextra.conditions group (by simp [hgroups])
    refine ⟨fun group hgroup => ?_, fun group hgroup c hc => ?_⟩
    · obtain ⟨g, hg, rfl⟩ := List.mem_map.1 hgroup
      exact List.append_ne_nil_of_left_ne_nil (hbase.ne_nil g hg) _
    · obtain ⟨g, hg, rfl⟩ := List.mem_map.1 hgroup
      rcases List.mem_append.1 hc with hc | hc
      · exact hbase.conditions g hg c hc
      · exact hhead c hc

/-- A request is a primary key, a filter that is narrowed by fields, or fields alone. -/
theorem ofInput_composed {input : Json} {primaryKey : String} {f : Filter}
    (h : ofInput input primaryKey = .ok f) : f.Composed := by
  -- Texts and numbers are read as the primary key in the same way.
  have hkey : ∀ v, (do return and [← Condition.make primaryKey .equal v]) = Except.ok f →
      f.Composed := by
    intro v hv
    obtain ⟨c, hmake, hv⟩ := exists_of_bind_eq_ok hv
    obtain rfl := Except.ok.inj hv
    exact and_composed (List.forall_mem_singleton.2 (.make hmake))
  unfold ofInput at h
  split at h
  · exact hkey _ h
  · exact hkey _ h
  · exact hkey _ h
  · split at h
    · obtain ⟨base, hbase, h⟩ := exists_of_bind_eq_ok h
      obtain ⟨extra, hextra, h⟩ := exists_of_bind_eq_ok h
      obtain rfl := Except.ok.inj h
      exact narrowed_composed (ofJson_composed hbase) (ofMap_composed hextra)
    · exact ofMap_composed h
  · cases h

/-- **Every filter that a caller can come by is composed of such conditions,** and of no empty
group.  By induction on the ways to come by one: every constructor and every reader keeps both. -/
theorem Reachable.composed {f : Filter} (h : f.Reachable) : f.Composed := by
  induction h with
  | all => exact all_composed
  | and h => exact and_composed h
  | ofGroups h => exact ofGroups_composed h
  | or _ hgroup ih => exact or_composed ih hgroup
  | ofJson h => exact ofJson_composed h
  | ofMap h => exact ofMap_composed h
  | ofInput h => exact ofInput_composed h

/-- **Every filter that a caller can come by is well-formed.** -/
theorem Reachable.wellFormed {f : Filter} (h : f.Reachable) : f.WellFormed :=
  ⟨h.composed.ne_nil, fun g hg c hc => (h.composed.conditions g hg c hc).wellFormed⟩

end Filter
end Querysmith
