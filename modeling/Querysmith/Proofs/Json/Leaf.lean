/-
# The leaves of a value

A leaf is a scalar inside a value.  It stands under a name: the key of the nearest field around it,
or the name that the whole value has when there is no field around it.  A function of names and
scalars changes a value leaf by leaf (`mapLeaves`), and two functions change it alike exactly when
they agree on each of its leaves (`mapLeaves_eq_iff`).
-/

import Querysmith.Json

namespace Querysmith
namespace Json

/-- Values are built from scalars, arrays and objects. -/
theorem induct {motive : Json → Prop} (scalar : ∀ v, v.isStructured = false → motive v)
    (arr : ∀ items, (∀ v ∈ items, motive v) → motive (.arr items))
    (obj : ∀ fields, (∀ field ∈ fields, motive field.2) → motive (.obj fields)) (v : Json) :
    motive v :=
  Json.rec (motive_1 := motive) (motive_2 := fun items => ∀ v ∈ items, motive v)
    (motive_3 := fun fields => ∀ field ∈ fields, motive field.2)
    (motive_4 := fun field => motive field.2)
    (scalar _ rfl) (fun _ => scalar _ rfl) (fun _ => scalar _ rfl) (fun _ => scalar _ rfl)
    (fun _ => scalar _ rfl) arr obj (fun _ h => absurd h List.not_mem_nil)
    (fun _ _ hhead htail => List.forall_mem_cons.2 ⟨hhead, htail⟩)
    (fun _ h => absurd h List.not_mem_nil)
    (fun _ _ hhead htail => List.forall_mem_cons.2 ⟨hhead, htail⟩) (fun _ _ h => h) v

mutual

/-- The leaves of a value with a name, each with the name that it stands under. -/
def leaves (name : String) : Json → List (String × Json)
  | arr items => leavesOfItems name items
  | obj fields => leavesOfFields fields
  | v => [(name, v)]

/-- The leaves of the items of an array. -/
def leavesOfItems (name : String) : List Json → List (String × Json)
  | [] => []
  | v :: vs => leaves name v ++ leavesOfItems name vs

/-- The leaves of the fields of an object. -/
def leavesOfFields : List (String × Json) → List (String × Json)
  | [] => []
  | (key, v) :: rest => leaves key v ++ leavesOfFields rest

end

mutual

/-- The value with every leaf changed under its name. -/
def mapLeaves (f : String → Json → Json) (name : String) : Json → Json
  | arr items => arr (mapItems f name items)
  | obj fields => obj (mapFields f fields)
  | v => f name v

/-- The items of an array with their leaves changed. -/
def mapItems (f : String → Json → Json) (name : String) : List Json → List Json
  | [] => []
  | v :: vs => mapLeaves f name v :: mapItems f name vs

/-- The fields of an object with their leaves changed. -/
def mapFields (f : String → Json → Json) : List (String × Json) → List (String × Json)
  | [] => []
  | (key, v) :: rest => (key, mapLeaves f key v) :: mapFields f rest

end

variable {name : String} {f g : String → Json → Json}

/-- A scalar is its only leaf. -/
theorem leaves_scalar {v : Json} (h : v.isStructured = false) : leaves name v = [(name, v)] := by
  cases v with
  | arr _ | obj _ => cases h
  | null | bool _ | int _ | float _ | str _ => rfl

/-- A scalar is its own only leaf. -/
theorem mapLeaves_scalar {v : Json} (h : v.isStructured = false) :
    mapLeaves f name v = f name v := by
  cases v with
  | arr _ | obj _ => cases h
  | null | bool _ | int _ | float _ | str _ => rfl

/-- The leaves of the items are those of each item, under the name of the array. -/
theorem leavesOfItems_eq (items : List Json) :
    leavesOfItems name items = items.flatMap (leaves name) := by
  induction items with
  | nil => rfl
  | cons v vs ih => rw [leavesOfItems, ih, List.flatMap_cons]

/-- The leaves of the fields are those of each field, under the key of the field. -/
theorem leavesOfFields_eq (fields : List (String × Json)) :
    leavesOfFields fields = fields.flatMap fun field => leaves field.1 field.2 := by
  induction fields with
  | nil => rfl
  | cons field rest ih => rw [leavesOfFields, ih, List.flatMap_cons]

/-- The items are mapped one by one. -/
theorem mapItems_eq (items : List Json) : mapItems f name items = items.map (mapLeaves f name) := by
  induction items with
  | nil => rfl
  | cons v vs ih => rw [mapItems, ih, List.map_cons]

/-- The fields are mapped one by one, each under its key. -/
theorem mapFields_eq (fields : List (String × Json)) :
    mapFields f fields = fields.map fun field => (field.1, mapLeaves f field.1 field.2) := by
  induction fields with
  | nil => rfl
  | cons field rest ih => rw [mapFields, ih, List.map_cons]

/-- Leaves that stay as they are leave the value as it is. -/
theorem mapLeaves_self (v : Json) : mapLeaves (fun _ leaf => leaf) name v = v := by
  induction v using Json.induct generalizing name with
  | scalar v h => rw [mapLeaves_scalar h]
  | arr items ih =>
    rw [mapLeaves, mapItems_eq, List.map_congr_left fun v hv => ih v hv, List.map_id']
  | obj fields ih =>
    rw [mapLeaves, mapFields_eq,
      List.map_congr_left fun field hfield => congrArg (Prod.mk field.1) (ih field hfield),
      List.map_id']

/-- A leaf is a scalar. -/
theorem isStructured_of_mem_leaves {v : Json} {leaf : String × Json} (h : leaf ∈ leaves name v) :
    leaf.2.isStructured = false := by
  induction v using Json.induct generalizing name with
  | scalar v hv =>
    rw [leaves_scalar hv, List.mem_singleton] at h
    exact h ▸ hv
  | arr items ih =>
    rw [leaves, leavesOfItems_eq] at h
    obtain ⟨v, hv, h⟩ := List.mem_flatMap.1 h
    exact ih v hv h
  | obj fields ih =>
    rw [leaves, leavesOfFields_eq] at h
    obtain ⟨field, hfield, h⟩ := List.mem_flatMap.1 h
    exact ih field hfield h

/-- **Two functions change a value alike** when they agree on its leaves, and only then. -/
theorem mapLeaves_eq_iff (v : Json) :
    mapLeaves f name v = mapLeaves g name v ↔
      ∀ leaf ∈ leaves name v, f leaf.1 leaf.2 = g leaf.1 leaf.2 := by
  induction v using Json.induct generalizing name with
  | scalar v h => simp [mapLeaves_scalar h, leaves_scalar h]
  | arr items ih =>
    rw [mapLeaves, mapLeaves, arr.injEq, mapItems_eq, mapItems_eq, List.map_inj_left, leaves,
      leavesOfItems_eq, List.forall_mem_flatMap]
    exact forall₂_congr fun v hv => ih v hv
  | obj fields ih =>
    rw [mapLeaves, mapLeaves, obj.injEq, mapFields_eq, mapFields_eq, List.map_inj_left, leaves,
      leavesOfFields_eq, List.forall_mem_flatMap]
    refine forall₂_congr fun field hfield => ?_
    rw [Prod.mk.injEq, ih field hfield]
    simp

end Json
end Querysmith
