/-
# The text of a value

The writer appends to what is written already and never looks at it (`appends`).  So the text
of an array is that of its items between brackets with commas in front of all but the first, and the
text of an object that of its fields between braces.
-/

import Querysmith.Proofs.Json.Leaf

namespace Querysmith
namespace Json

/-- The characters of a field of an object. -/
def fieldChars (field : String × Json) : List Char :=
  (stringText field.1).toList ++ ':' :: field.2.text.toList

/-- What is appended for a value is its text. -/
def Appends (v : Json) : Prop :=
  ∀ acc, (write acc v).toList = acc.toList ++ v.text.toList

/-- Items are written behind each other, each behind a comma. -/
theorem toList_writeItems {items : List Json} (h : ∀ v ∈ items, v.Appends) (acc : String) :
    (writeItems acc items).toList = acc.toList ++ items.flatMap fun v => ',' :: v.text.toList := by
  induction items generalizing acc with
  | nil => simp [writeItems]
  | cons v vs ih =>
    rw [List.forall_mem_cons] at h
    rw [writeItems, ih h.2, h.1, List.flatMap_cons]
    simp

/-- Fields are written behind each other, each behind a comma. -/
theorem toList_writeFields {fields : List (String × Json)} (h : ∀ field ∈ fields, field.2.Appends)
    (acc : String) :
    (writeFields acc fields).toList =
      acc.toList ++ fields.flatMap fun field => ',' :: fieldChars field := by
  induction fields generalizing acc with
  | nil => simp [writeFields]
  | cons field rest ih =>
    rw [List.forall_mem_cons] at h
    rw [writeFields, ih h.2, h.1, List.flatMap_cons]
    simp [fieldChars]

/-- The text of an array is that of its items between brackets, with commas between them. -/
theorem toList_write_arr {v : Json} {vs : List Json} (h : ∀ w ∈ v :: vs, w.Appends)
    (acc : String) :
    (write acc (arr (v :: vs))).toList = acc.toList ++
      '[' :: (v.text.toList ++ (vs.flatMap fun v => ',' :: v.text.toList) ++ [']']) := by
  rw [List.forall_mem_cons] at h
  rw [write, String.toList_append, toList_writeItems h.2, h.1]
  simp

/-- The text of an object is that of its fields between braces, with commas between them. -/
theorem toList_write_obj {field : String × Json} {rest : List (String × Json)}
    (h : ∀ f ∈ field :: rest, f.2.Appends) (acc : String) :
    (write acc (obj (field :: rest))).toList = acc.toList ++
      '\x7b' :: (fieldChars field ++ (rest.flatMap fun f => ',' :: fieldChars f) ++ ['\x7d']) := by
  rw [List.forall_mem_cons] at h
  rw [write, String.toList_append, toList_writeFields h.2, h.1]
  simp [fieldChars]

/-- **What is written already plays no part in what is appended.** -/
theorem appends (v : Json) : v.Appends := by
  induction v using Json.induct with
  | scalar v h =>
    cases v with
    | arr _ | obj _ => cases h
    | null | bool _ | int _ | float _ | str _ => intro acc; simp [text, write]
  | arr items ih =>
    intro acc
    cases items with
    | nil => simp [text, write]
    | cons v vs => rw [text, toList_write_arr ih, toList_write_arr ih]; rfl
  | obj fields ih =>
    intro acc
    cases fields with
    | nil => simp [text, write]
    | cons field rest => rw [text, toList_write_obj ih, toList_write_obj ih]; rfl

/-- The text of an array: its items between brackets, with commas between them. -/
theorem toList_text_arr (v : Json) (vs : List Json) :
    (arr (v :: vs)).text.toList =
      '[' :: (v.text.toList ++ (vs.flatMap fun v => ',' :: v.text.toList) ++ [']']) :=
  toList_write_arr (fun w _ => w.appends) ""

/-- The text of an object: its fields between braces, with commas between them. -/
theorem toList_text_obj (field : String × Json) (rest : List (String × Json)) :
    (obj (field :: rest)).text.toList =
      '\x7b' :: (fieldChars field ++ (rest.flatMap fun f => ',' :: fieldChars f) ++ ['\x7d']) :=
  toList_write_obj (fun f _ => f.2.appends) ""

end Json
end Querysmith
