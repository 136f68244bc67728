/-
# Normalization as a list of rules

The normalizer has a rule for each of seven occasions, and the first rule of a list that applies to
a leaf decides what becomes of it (`firstOf`).  Taken with the text markers before the numbers of
ids, as the table of the normalizer lists them for texts, the rules are `markersFirst`.  The
normalizer handles texts in this order, but for a number it looks at the ids before the markers, so
it follows `idsFirst`.  The two lists part on a number under a name that is both, and there only
(`normalize_eq_firstOf`): the first keeps the number as a text, the second keeps it a number.
-/

import Querysmith.Proofs.Normalizer.Leaf

namespace Querysmith
namespace Normalizer

/-- What becomes of a leaf under a name, if the rule applies to it. -/
abbrev Rule := String → Json → Option Json

namespace Rule

/-- A boolean word is read as the boolean. -/
@[simp] def word : Rule
  | _, .str s => (booleanText? s).map .bool
  | _, _ => none

/-- A text that holds a document stays. -/
@[simp] def document : Rule
  | _, .str s => if Json.isDocumentText s then some (.str s) else none
  | _, _ => none

/-- Digits under a name of ids are read when they fit 64 bits, and stay when they do not. -/
@[simp] def idDigits : Rule
  | name, .str s =>
    if isIdColumn name && Text.isDigits s.toList then
      let i : Int := Text.readDecimal s.toList
      some (if i ≤ SqlValue.maxInt then .int i else .str s)
    else none
  | _, _ => none

/-- Texts, numbers and booleans are texts under a name with a text marker. -/
@[simp] def marked (n : Normalizer) (name : String) (leaf : Json) : Option Json :=
  if n.keepsText name then
    match leaf with
    | .str s => some (.str s)
    | .int i => some (.str (Text.ofInt i))
    | .float x => some (.str (x.text Json.numberLayout))
    | .bool b => some (.str (if b then "true" else "false"))
    | _ => none
  else none

/-- Digits, perhaps with a sign, are read when a double holds them exactly, and stay when none
does. -/
@[simp] def integer : Rule
  | _, .str s =>
    if Text.isSignedDigits s.toList then
      let i := Text.readSigned s.toList
      some (if -maxSafeInteger ≤ i ∧ i ≤ maxSafeInteger then .int i else .str s)
    else none
  | _, _ => none

/-- Digits with a fraction are read when the number is finite. -/
@[simp] def decimal : Rule
  | _, .str s =>
    if isDecimalText s.toList then
      some (match Binary64.ofText? s with
        | some x => if x.isFinite then .float x else .str s
        | none => .str s)
    else none
  | _, _ => none

/-- A number under a name of ids is rounded down when its floor fits 64 bits, and stays when it does
not. -/
@[simp] def floored : Rule
  | name, .int i => if isIdColumn name then some (.int i) else none
  | name, .float x =>
    if isIdColumn name then
      some (match floorInteger? x with
        | some i => .int i
        | none => .float x)
    else none
  | _, _ => none

end Rule

/-- What the first rule that applies makes of a leaf; without one the leaf stays. -/
def firstOf (rules : List Rule) (name : String) (leaf : Json) : Json :=
  (rules.findSome? fun rule => rule name leaf).getD leaf

variable (n : Normalizer) (name : String) (leaf : Json)

/-- Without a rule a leaf stays. -/
@[simp] theorem firstOf_nil : firstOf [] name leaf = leaf :=
  rfl

/-- The rules after the first are asked when it does not apply. -/
@[simp] theorem firstOf_cons (rule : Rule) (rules : List Rule) :
    firstOf (rule :: rules) name leaf = (rule name leaf).getD (firstOf rules name leaf) := by
  rw [firstOf, List.findSome?_cons]
  cases rule name leaf <;> rfl

/-- The rules with the text markers before the numbers of ids. -/
def markersFirst : List Rule :=
  [.word, .document, .idDigits, .marked n, .integer, .decimal, .floored]

/-- The rules with the numbers of ids before the text markers. -/
def idsFirst : List Rule :=
  [.word, .document, .idDigits, .floored, .marked n, .integer, .decimal]

/-- A number under a name of ids that holds a text marker as well. -/
def IsContested : Prop :=
  (leaf.kind = .integer ∨ leaf.kind = .float) ∧ isIdColumn name = true ∧ n.keepsText name = true

variable {n name leaf}

/-- A default behind a condition is the other branch. -/
@[simp] theorem getD_ite {p : Prop} [Decidable p] (a b : Json) :
    (if p then some a else none).getD b = if p then a else b := by
  split <;> rfl

/-- A leaf becomes what the first of the rules makes of it. -/
theorem normalize_leaf (h : leaf.isStructured = false) :
    n.normalize name leaf = firstOf n.idsFirst name leaf := by
  rw [idsFirst]
  cases leaf with
  | arr _ | obj _ => cases h
  | null => simp [normalize]
  | bool b => simp [normalize]
  | int i => simp [normalize, normalizeInt]
  | float x =>
    rw [normalize, normalizeFloat]
    cases hfloor : floorInteger? x <;> simp [hfloor]
  | str s =>
    rw [normalize, normalizeText]
    cases hword : booleanText? s <;> cases hread : Binary64.ofText? s <;> simp [hword, hread]

/-- The order of the rules matters to contested numbers alone. -/
theorem firstOf_idsFirst_iff (h : leaf.isStructured = false) :
    firstOf n.idsFirst name leaf = firstOf n.markersFirst name leaf ↔
      ¬n.IsContested name leaf := by
  rw [idsFirst, markersFirst, IsContested]
  cases leaf with
  | arr _ | obj _ => cases h
  | null => simp [Json.kind]
  | bool b => simp [Json.kind]
  | str s => simp [Json.kind]
  | int i =>
    cases hid : isIdColumn name <;> cases hname : n.keepsText name <;> simp [Json.kind, hid, hname]
  | float x =>
    cases hid : isIdColumn name <;> cases hname : n.keepsText name <;>
      cases hfloor : floorInteger? x <;> simp [Json.kind, hid, hname, hfloor]

/-- **The first rule that applies decides** what becomes of each leaf, with the ids before the
markers.  The markers may be put first exactly when no number is contested. -/
theorem normalize_eq_firstOf (n : Normalizer) (column : String) (v : Json) :
    n.normalize column v = v.mapLeaves (firstOf n.idsFirst) column ∧
      (n.normalize column v = v.mapLeaves (firstOf n.markersFirst) column ↔
        ∀ leaf ∈ v.leaves column, ¬n.IsContested leaf.1 leaf.2) := by
  have hrules : n.normalize column v = v.mapLeaves (firstOf n.idsFirst) column := by
    rw [n.normalize_eq_mapLeaves, Json.mapLeaves_eq_iff]
    exact fun leaf hleaf => normalize_leaf (Json.isStructured_of_mem_leaves hleaf)
  refine ⟨hrules, ?_⟩
  rw [hrules, Json.mapLeaves_eq_iff]
  exact forall₂_congr fun leaf hleaf =>
    firstOf_idsFirst_iff (Json.isStructured_of_mem_leaves hleaf)

example : ({} : Normalizer).normalize "phone_id" (.str "5.5") = .str "5.5" ∧
    ({} : Normalizer).normalize "phone_id" (.int 5) = .int 5 := ⟨rfl, rfl⟩

end Normalizer
end Querysmith
