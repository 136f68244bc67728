/-
# Narrowed filters

A request may bring a filter and further fields beside it.  Its rows satisfy the filter and the
condition of every one of those fields: no branch, no empty group and no empty list of the filter
lets a row in that fails one of them.

A filter that every row matches is written without groups, so the conjunction is built in two ways:
the conditions go behind every group, or they stand alone where there is none.  What a filter means
is therefore said apart from how it is written (`Filter.Holds`), and collapsing an empty group is
shown to keep it (`holds_ofGroups`).
-/

import Querysmith.Filter
import Querysmith.Proofs.Success

namespace Querysmith
namespace Filter

/-- The filter is true when it has no groups, or when all conditions of one of its groups are. -/
def Holds (p : Condition → Prop) (f : Filter) : Prop :=
  f.groups = [] ∨ ∃ group ∈ f.groups, ∀ c ∈ group, p c

/-- **Collapsing an empty group changes nothing:** it is true of every row as it stands. -/
theorem holds_ofGroups (p : Condition → Prop) (groups : List (List Condition)) :
    (ofGroups groups).Holds p ↔ groups = [] ∨ ∃ group ∈ groups, ∀ c ∈ group, p c := by
  rw [ofGroups]
  split
  · rename_i hany
    obtain ⟨group, hgroup, hempty⟩ := List.any_eq_true.1 hany
    obtain rfl : group = [] := List.isEmpty_iff.1 hempty
    have hcollapsed : all.Holds p := .inl rfl
    have hvacuous : ∀ c ∈ ([] : List Condition), p c := fun _ hc => absurd hc List.not_mem_nil
    exact iff_of_true hcollapsed (.inr ⟨[], hgroup, hvacuous⟩)
  · exact Iff.rfl

/-- A filter of one group is true when all its conditions are. -/
theorem holds_and (p : Condition → Prop) (conditions : List Condition) :
    (and conditions).Holds p ↔ ∀ c ∈ conditions, p c := by
  rw [and, holds_ofGroups]
  simp

/-- The conditions of a filter of one group are its only group, or none. -/
theorem headD_groups_and (conditions : List Condition) :
    (and conditions).groups.headD [] = conditions := by
  cases conditions <;> rfl

/-- **A narrowed filter is the conjunction of the filter and the conditions.** -/
theorem holds_narrowed (p : Condition → Prop) (base : Filter) (extra : List Condition) :
    (base.narrowed (and extra)).Holds p ↔ base.Holds p ∧ ∀ c ∈ extra, p c := by
  rw [narrowed]
  split
  · rename_i hall
    -- A filter that matches everything is replaced by the conditions.
    have hbase : base.Holds p := .inl (List.isEmpty_iff.1 hall)
    rw [holds_and]
    exact (and_iff_right hbase).symm
  · rename_i hall
    -- Any other one gets the conditions in each of its groups.
    have hgroups : base.groups ≠ [] := fun hnil => hall (by rw [matchesAll, hnil]; rfl)
    rw [headD_groups_and]
    constructor
    · rintro (hnil | ⟨group, hgroup, hconditions⟩)
      · exact absurd (List.map_eq_nil_iff.1 hnil) hgroups
      · obtain ⟨g, hg, rfl⟩ := List.mem_map.1 hgroup
        rw [List.forall_mem_append] at hconditions
        exact ⟨.inr ⟨g, hg, hconditions.1⟩, hconditions.2⟩
    · rintro ⟨hnil | ⟨g, hg, hconditions⟩, hextra⟩
      · exact absurd hnil hgroups
      · have hboth : ∀ c ∈ g ++ extra, p c := List.forall_mem_append.2 ⟨hconditions, hextra⟩
        exact .inr ⟨g ++ extra, List.mem_map_of_mem hg, hboth⟩

/-! ### The wire form -/

/-- A group of the wire form is true when all its conditions are; an empty array is no condition. -/
def GroupHolds (p : Condition → Prop) : Json → Prop
  | .arr parts => ∀ part ∈ parts, part ≠ .arr [] → ∃ c, Condition.ofJson part = .ok c ∧ p c
  | _ => False

/-- An array of groups is true when it is empty, or when one of its groups is true. -/
def WireHolds (p : Condition → Prop) (groups : List Json) : Prop :=
  groups = [] ∨ ∃ group ∈ groups, GroupHolds p group

/-- Only the empty array is no condition. -/
theorem isBlankCondition_iff (v : Json) : isBlankCondition v = true ↔ v = .arr [] := by
  constructor
  · intro h
    unfold isBlankCondition at h
    split at h
    · rfl
    · cases h
  · rintro rfl
    rfl

/-- A group that is read means what its wire form means. -/
theorem holds_readGroup (p : Condition → Prop) {v : Json} {group : List Condition}
    (h : readGroup v = .ok group) : GroupHolds p v ↔ ∀ c ∈ group, p c := by
  cases v with
  | arr parts =>
    -- Only the blank conditions are left out, so every other part is a condition of the group.
    have hread : ∀ part ∈ parts, part ≠ .arr [] → ∃ c ∈ group, Condition.ofJson part = .ok c := by
      intro part hpart hblank
      have hkept : isBlankCondition part ≠ true := fun htrue =>
        hblank ((isBlankCondition_iff part).1 htrue)
      exact exists_mem_of_mapM h (List.mem_filter.2 ⟨hpart, by simpa using hkept⟩)
    constructor
    · intro hholds c hc
      obtain ⟨part, hpart, hcondition⟩ := exists_of_mem_mapM h hc
      obtain ⟨hmem, hkept⟩ := List.mem_filter.1 hpart
      have hne : part ≠ .arr [] := fun hblank => by
        simp [(isBlankCondition_iff part).2 hblank] at hkept
      obtain ⟨c', hc', hp⟩ := hholds part hmem hne
      obtain rfl : c' = c := Except.ok.inj (hc'.symm.trans hcondition)
      exact hp
    · intro hgroup part hpart hblank
      obtain ⟨c, hc, hcondition⟩ := hread part hpart hblank
      exact ⟨c, hcondition, hgroup c hc⟩
  | null | bool _ | int _ | float _ | str _ | obj _ => cases h

/-- **The filter of an array means what the array means.** -/
theorem holds_ofJson (p : Condition → Prop) {groups : List Json} {f : Filter}
    (h : ofJson (.arr groups) = .ok f) : f.Holds p ↔ WireHolds p groups := by
  obtain ⟨read, hread, hf⟩ := exists_of_bind_eq_ok h
  obtain rfl : f = ofGroups read := (Except.ok.inj hf).symm
  rw [holds_ofGroups]
  constructor
  · rintro (rfl | ⟨group, hgroup, hconditions⟩)
    · cases groups with
      | nil => exact .inl rfl
      | cons v rest =>
        obtain ⟨_, hmem, -⟩ := exists_mem_of_mapM hread List.mem_cons_self
        exact absurd hmem List.not_mem_nil
    · obtain ⟨v, hv, hg⟩ := exists_of_mem_mapM hread hgroup
      exact .inr ⟨v, hv, (holds_readGroup p hg).2 hconditions⟩
  · rintro (rfl | ⟨v, hv, hholds⟩)
    · exact .inl (Except.ok.inj hread).symm
    · obtain ⟨group, hgroup, hg⟩ := exists_mem_of_mapM hread hv
      exact .inr ⟨group, hgroup, (holds_readGroup p hg).1 hholds⟩

/-! ### Fields beside the filter -/

/-- What a field demands of a row: that its column is among the members of an array, or equal to
any other value. -/
def fieldDemand : String × Json → Condition
  | (column, .arr members) => .inList column members
  | (column, v) => ⟨column, .equal, .scalar v⟩

/-- Every value but an object makes a condition. -/
theorem fieldCondition_yields (field : String × Json) :
    Yields (fieldCondition field) (field.2.kind ≠ .object) (fieldDemand field) := by
  obtain ⟨column, v⟩ := field
  cases v with
  | obj fields =>
    intro c
    constructor
    · intro h
      cases h
    · rintro ⟨hobject, -⟩
      exact absurd rfl hobject
  | null | bool _ | int _ | float _ | str _ | arr _ =>
    exact (Yields.pure _).congr (iff_of_true trivial (by simp [Json.kind]))

/-- **A map is read when no value in it is an object,** and then every field is demanded. -/
theorem ofMap_yields (fields : List (String × Json)) :
    Yields (ofMap fields) (∀ field ∈ fields, field.2.kind ≠ .object)
      (and (fields.map fieldDemand)) :=
  (Yields.mapM fieldCondition_yields fields).bind_pure and

/-- The fields of a request besides its filter. -/
def besides (fields : List (String × Json)) : List (String × Json) :=
  fields.filter (·.1 ≠ "filter")

/-- A request with an array under `filter` succeeds when that array is a filter and no other field
holds an object, and then it is that filter narrowed by the other fields. -/
theorem ofInput_yields {fields : List (String × Json)} {groups : List Json}
    (h : fields.lookup "filter" = some (.arr groups)) (primaryKey : String) {base : Filter}
    (hbase : ofJson (.arr groups) = .ok base) :
    Yields (ofInput (.obj fields) primaryKey)
      (∀ field ∈ besides fields, field.2.kind ≠ .object)
      (base.narrowed (and ((besides fields).map fieldDemand))) := by
  have hmap := (ofMap_yields (besides fields)).bind_pure (narrowed base)
  have hbesides : ∀ p : String × Json → Bool, (∀ field, p field = (field.1 != "filter")) →
      fields.filter p = besides fields := fun p hp =>
    List.filter_congr fun field _ => by
      rw [hp]
      cases h : field.1 == "filter" <;> simp_all
  rw [ofInput, h]
  simp only [hbase, hbesides _ fun _ => rfl]
  exact hmap

/-- **Further fields of a request always narrow its filter.**  A request with an array under
`filter` is accepted when the array is a filter and no further field holds an object, and only then.
Its filter is true just where the filter of the array is true and the condition of every further
field is, and the filter of the array is true just where the array is. -/
theorem holds_ofInput {fields : List (String × Json)} {groups : List Json}
    (h : fields.lookup "filter" = some (.arr groups)) (primaryKey : String) :
    ((∃ f, ofInput (.obj fields) primaryKey = .ok f) ↔
      (∃ base, ofJson (.arr groups) = .ok base) ∧
        ∀ field ∈ besides fields, field.2.kind ≠ .object) ∧
    ∀ f, ofInput (.obj fields) primaryKey = .ok f →
      ∃ base, ofJson (.arr groups) = .ok base ∧
        ∀ p : Condition → Prop,
          (f.Holds p ↔ base.Holds p ∧ ∀ field ∈ besides fields, p (fieldDemand field)) ∧
          (base.Holds p ↔ WireHolds p groups) := by
  have hread : ∀ f, ofInput (.obj fields) primaryKey = .ok f →
      ∃ base, ofJson (.arr groups) = .ok base := by
    intro f hf
    rw [ofInput, h] at hf
    obtain ⟨base, hbase, -⟩ := exists_of_bind_eq_ok hf
    exact ⟨base, hbase⟩
  refine ⟨⟨?_, ?_⟩, fun f hf => ?_⟩
  · rintro ⟨f, hf⟩
    obtain ⟨base, hbase⟩ := hread f hf
    exact ⟨⟨base, hbase⟩, ((ofInput_yields h primaryKey hbase).eq_of_ok hf).1⟩
  · rintro ⟨⟨base, hbase⟩, hfields⟩
    exact ⟨_, (ofInput_yields h primaryKey hbase _).2 ⟨hfields, rfl⟩⟩
  · obtain ⟨base, hbase⟩ := hread f hf
    obtain ⟨-, rfl⟩ := (ofInput_yields h primaryKey hbase).eq_of_ok hf
    refine ⟨base, hbase, fun p => ⟨?_, holds_ofJson p hbase⟩⟩
    rw [holds_narrowed, List.forall_mem_map]

/-- Two branches, an empty condition in one of them, and two further fields. -/
theorem holds_ofInput_branches :
    ∃ f, ofInput (.obj [("tenant", .int 3),
        ("filter", .arr [.arr [.arr [.str "age", .str ">", .int 18], .arr []],
          .arr [.arr [.str "vip", .str "=", .int 1]]]),
        ("role", .arr [.str "owner"])]) "id" = .ok f ∧
      ∀ p : Condition → Prop, f.Holds p ↔
        (p ⟨"age", .greater, .scalar (.int 18)⟩ ∨ p ⟨"vip", .equal, .scalar (.int 1)⟩) ∧
          p ⟨"tenant", .equal, .scalar (.int 3)⟩ ∧ p (.inList "role" [.str "owner"]) := by
  have hage : Condition.ofJson (.arr [.str "age", .str ">", .int 18]) =
      .ok ⟨"age", .greater, .scalar (.int 18)⟩ := by
    rfl
  have hvip : Condition.ofJson (.arr [.str "vip", .str "=", .int 1]) =
      .ok ⟨"vip", .equal, .scalar (.int 1)⟩ := by
    rfl
  have hlookup : List.lookup "filter" [("tenant", Json.int 3),
      ("filter", .arr [.arr [.arr [.str "age", .str ">", .int 18], .arr []],
        .arr [.arr [.str "vip", .str "=", .int 1]]]),
      ("role", .arr [.str "owner"])] = some (.arr _) := rfl
  obtain ⟨haccepts, hmeans⟩ := holds_ofInput hlookup "id"
  obtain ⟨f, hf⟩ := haccepts.2 ⟨⟨_, rfl⟩, by decide⟩
  obtain ⟨base, -, hbase⟩ := hmeans f hf
  refine ⟨f, hf, fun p => ?_⟩
  obtain ⟨hholds, hwire⟩ := hbase p
  rw [hholds, hwire]
  simp [WireHolds, GroupHolds, hage, hvip, besides, fieldDemand]

end Filter
end Querysmith
