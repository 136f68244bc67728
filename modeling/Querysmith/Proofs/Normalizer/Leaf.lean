/-
# Normalization leaf by leaf

Arrays and objects are normalized part by part, so a value is normalized by what happens to its
leaves (`normalize_eq_mapLeaves`), each under the name that it stands under.  The same is true of a
value whose leaves were changed before (`normalize_mapLeaves`), so a further pass is a pass over
every changed leaf.
-/

import Querysmith.Normalizer
import Querysmith.Proofs.Json.Leaf

namespace Querysmith
namespace Normalizer

variable (n : Normalizer) (column : String)

/-- The items of an array are normalized one by one, under its column. -/
theorem normalizeItems_eq (items : List Json) :
    normalizeItems n column items = items.map (n.normalize column) := by
  induction items with
  | nil => rfl
  | cons v vs ih => rw [normalizeItems, ih, List.map_cons]

/-- The fields of an object are normalized one by one, each under its key. -/
theorem normalizeFields_eq (fields : List (String × Json)) :
    normalizeFields n fields = fields.map fun field => (field.1, n.normalize field.1 field.2) := by
  induction fields with
  | nil => rfl
  | cons field rest ih => rw [normalizeFields, ih, List.map_cons]

/-- A value whose leaves were changed is normalized by normalizing the changed leaves. -/
theorem normalize_mapLeaves (g : String → Json → Json) (v : Json) :
    n.normalize column (v.mapLeaves g column) =
      v.mapLeaves (fun name w => n.normalize name (g name w)) column := by
  induction v using Json.induct generalizing column with
  | scalar v h => rw [Json.mapLeaves_scalar h, Json.mapLeaves_scalar h]
  | arr items ih =>
    simp only [Json.mapLeaves, normalize, normalizeItems_eq, Json.mapItems_eq, List.map_map]
    exact congrArg Json.arr (List.map_congr_left fun v hv => ih v hv column)
  | obj fields ih =>
    simp only [Json.mapLeaves, normalize, normalizeFields_eq, Json.mapFields_eq, List.map_map]
    exact congrArg Json.obj (List.map_congr_left fun field hfield =>
      congrArg (Prod.mk field.1) (ih field hfield field.1))

/-- **A value is normalized by normalizing its leaves.** -/
theorem normalize_eq_mapLeaves (v : Json) :
    n.normalize column v = v.mapLeaves n.normalize column := by
  have h := n.normalize_mapLeaves column (fun _ leaf => leaf) v
  rwa [Json.mapLeaves_self] at h

end Normalizer
end Querysmith
