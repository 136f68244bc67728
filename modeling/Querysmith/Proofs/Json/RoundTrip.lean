/-
# Reading what was written

Every value whose numbers are integers reads back from its text, its fields in order when no object
names a key twice (`IsIntegral.restores`).  The reader takes at most two steps for each character:
one for the value at hand and one for its place in the array or object around it.  An array or
object reads back by induction on its items or fields, each of which stands in front of a comma or
the closing bracket.
-/

import Querysmith.Proofs.Json.Document
import Querysmith.Proofs.Json.Scalar
import Querysmith.Proofs.Json.Writing

namespace Querysmith
namespace Json

mutual

/-- How deep the arrays and objects of a value nest. -/
def depth : Json → Nat
  | arr items => depthOfItems items + 1
  | obj fields => depthOfFields fields + 1
  | _ => 0

/-- How deep the deepest item nests. -/
def depthOfItems : List Json → Nat
  | [] => 0
  | v :: vs => max (depth v) (depthOfItems vs)

/-- How deep the deepest field nests. -/
def depthOfFields : List (String × Json) → Nat
  | [] => 0
  | (_, v) :: rest => max (depth v) (depthOfFields rest)

end

/-- The numbers of the value are integers of 64 bits, with a sign or without, and none of its
objects names a key twice. -/
inductive IsIntegral : Json → Prop
  | null : IsIntegral null
  | bool (b : Bool) : IsIntegral (bool b)
  | int {i : Int} : Int64.minValue.toInt ≤ i → i < UInt64.size → IsIntegral (int i)
  | str (s : String) : IsIntegral (str s)
  | arr {items : List Json} : (∀ v ∈ items, IsIntegral v) → IsIntegral (arr items)
  | obj {fields : List (String × Json)} : (fields.map (·.1)).Nodup →
      (∀ field ∈ fields, IsIntegral field.2) → IsIntegral (obj fields)

/-- The value reads back from its text in front of whatever closes it. -/
def Restores (v : Json) : Prop :=
  ∀ fuel depth rest, 2 * v.text.toList.length ≤ fuel → v.depth ≤ depth → Closes rest →
    value fuel depth (v.text.toList ++ rest) = some (v, rest)

/-- A field that is new goes to the end. -/
theorem setField_of_not_mem {key : String} {fields : List (String × Json)}
    (h : key ∉ fields.map (·.1)) (v : Json) : setField key v fields = fields ++ [(key, v)] := by
  induction fields with
  | nil => rfl
  | cons field rest ih =>
    rw [List.map_cons, List.mem_cons, not_or] at h
    rw [setField, if_neg (Ne.symm h.1), ih h.2, List.cons_append]

/-- **Fields with different keys are those of the object,** in their order. -/
theorem ofPairs_of_nodup {fields : List (String × Json)} (h : (fields.map (·.1)).Nodup) :
    ofPairs fields = fields := by
  -- A field goes behind those that are already in place, so these are what the fold starts from.
  have hfold : ∀ before : List (String × Json), ((before ++ fields).map (·.1)).Nodup →
      fields.foldl (fun fields field => setField field.1 field.2 fields) before =
        before ++ fields := by
    clear h
    induction fields with
    | nil =>
      intro before _
      rw [List.append_nil]
      rfl
    | cons field rest ih =>
      intro before hnodup
      have hnew : field.1 ∉ before.map (·.1) := by
        rw [List.map_append, List.map_cons, List.nodup_append] at hnodup
        intro hmem
        exact hnodup.2.2 _ hmem _ List.mem_cons_self rfl
      rw [List.append_cons] at hnodup ⊢
      rw [List.foldl_cons, setField_of_not_mem hnew]
      exact ih _ hnodup
  exact hfold [] h

/-- What an integer is written with is read as a number. -/
theorem exists_cons_ofInt (i : Int) :
    ∃ c cs, (Text.ofInt i).toList = c :: cs ∧ (c = '-' ∨ c.isDigit = true) := by
  rw [Text.ofInt]
  split
  · exact ⟨_, _, String.toList_ofList, .inl rfl⟩
  · obtain ⟨c, cs, hcs⟩ := List.exists_cons_of_ne_nil (Text.decimal_ne_nil i.natAbs)
    refine ⟨c, cs, ?_, .inr (Text.isDigit_of_mem_decimal (hcs ▸ List.mem_cons_self))⟩
    rw [Text.ofNat, String.toList_ofList, hcs]

/-- The text of a value begins neither with a space nor with the end of an array. -/
theorem exists_cons_text {v : Json} (h : v.IsIntegral) :
    ∃ c cs, v.text.toList = c :: cs ∧ isSpace c = false ∧ c ≠ ']' := by
  cases h with
  | null => exact ⟨_, _, rfl, by decide⟩
  | bool b => cases b <;> exact ⟨_, _, rfl, by decide⟩
  | int _ _ =>
    rename_i i _ _
    obtain ⟨c, cs, hcs, hc⟩ := exists_cons_ofInt i
    refine ⟨c, cs, ?_, ?_⟩
    · simpa [text, write] using hcs
    · have hdigits : "0123456789".toList.all (fun c => !isSpace c && c != ']') = true := by decide
      rcases hc with rfl | hc
      · decide
      · simpa using List.all_eq_true.1 hdigits c (Text.mem_of_isDigit hc)
  | str s =>
    refine ⟨'"', s.toList.flatMap escape ++ ['"'], ?_, by decide⟩
    simp [text, write, toList_stringText]
  | arr _ =>
    rename_i items _
    cases items with
    | nil => exact ⟨_, _, rfl, by decide⟩
    | cons v vs => exact ⟨_, _, toList_text_arr v vs, by decide⟩
  | obj _ _ =>
    rename_i fields _ _
    cases fields with
    | nil => exact ⟨_, _, rfl, by decide⟩
    | cons field rest => exact ⟨_, _, toList_text_obj field rest, by decide⟩

/-- Nothing is skipped in front of a character that is no space. -/
theorem skipSpace_cons {c : Char} (h : isSpace c = false) (cs : List Char) :
    skipSpace (c :: cs) = c :: cs :=
  List.dropWhile_cons_of_neg (by simp [h])

section

variable {fuel d : Nat} {v : Json} {field : String × Json} {rest : List Char}

/-- An item in front of a comma reads back, and the later items are read behind it. -/
theorem items_next (hv : v.Restores) (hfuel : 2 * v.text.toList.length ≤ fuel) (hd : v.depth ≤ d)
    (acc : List Json) (t : List Char) :
    items (fuel + 1) d acc (v.text.toList ++ ',' :: t) = items fuel d (v :: acc) t := by
  rw [items, hv _ _ _ hfuel hd (closes_cons (by simp) t)]
  simp only [skipSpace_cons (c := ',') rfl]

/-- An item in front of the closing bracket reads back, and the array ends there. -/
theorem items_last (hv : v.Restores) (hfuel : 2 * v.text.toList.length ≤ fuel) (hd : v.depth ≤ d)
    (acc : List Json) (t : List Char) :
    items (fuel + 1) d acc (v.text.toList ++ ']' :: t) = some (arr (v :: acc).reverse, t) := by
  rw [items, hv _ _ _ hfuel hd (closes_cons (by simp) t)]
  simp only [skipSpace_cons (c := ']') rfl]

/-- The characters of a field are its escaped key between quotes, a colon and the text of its
value. -/
theorem toList_fieldChars (field : String × Json) (t : List Char) :
    fieldChars field ++ t =
      '"' :: (field.1.toList.flatMap escape ++ '"' :: ':' :: (field.2.text.toList ++ t)) := by
  simp [fieldChars, toList_stringText]

/-- The text of a field is at least as long as that of its value. -/
theorem length_text_le_fieldChars (field : String × Json) :
    field.2.text.toList.length ≤ (fieldChars field).length := by
  rw [fieldChars, List.length_append, List.length_cons]
  omega

/-- A field in front of a comma reads back, and the later fields are read behind it. -/
theorem fields_next (hv : field.2.Restores) (hfuel : 2 * field.2.text.toList.length ≤ fuel)
    (hd : field.2.depth ≤ d) (acc : List (String × Json)) (t : List Char) :
    fields (fuel + 1) d acc (fieldChars field ++ ',' :: t) = fields fuel d (field :: acc) t := by
  have hread := hv fuel d (',' :: t) hfuel hd (closes_cons (by simp) t)
  rw [toList_fieldChars, fields]
  simp only [skipSpace_cons (c := '"') rfl, skipSpace_cons (c := ':') rfl,
    skipSpace_cons (c := ',') rfl, string_escape, hread]

/-- A field in front of the closing brace reads back, and the object ends there. -/
theorem fields_last (hv : field.2.Restores) (hfuel : 2 * field.2.text.toList.length ≤ fuel)
    (hd : field.2.depth ≤ d) (acc : List (String × Json)) (t : List Char) :
    fields (fuel + 1) d acc (fieldChars field ++ '\x7d' :: t) =
      some (obj (ofPairs (field :: acc).reverse), t) := by
  have hread := hv fuel d ('\x7d' :: t) hfuel hd (closes_cons (by simp) t)
  rw [toList_fieldChars, fields]
  simp only [skipSpace_cons (c := '"') rfl, skipSpace_cons (c := ':') rfl,
    skipSpace_cons (c := '\x7d') rfl, string_escape, hread]

/-- The items of an array read back up to its bracket. -/
theorem items_text {vs : List Json} (h : ∀ w ∈ v :: vs, w.Restores)
    (hfuel : 2 * (v.text.toList ++ vs.flatMap fun w => ',' :: w.text.toList).length < fuel)
    (hd : depthOfItems (v :: vs) ≤ d) (acc : List Json) :
    items fuel d acc (v.text.toList ++
      ((vs.flatMap fun w => ',' :: w.text.toList) ++ ']' :: rest)) =
        some (arr (acc.reverse ++ v :: vs), rest) := by
  -- Each item spends one step here and twice its text below, which the comma behind it pays for.
  induction vs generalizing v fuel acc with
  | nil =>
    obtain ⟨fuel, rfl⟩ := Nat.exists_eq_add_one_of_ne_zero (Nat.ne_zero_of_lt hfuel)
    rw [List.flatMap_nil, List.append_nil] at hfuel
    rw [depthOfItems] at hd
    rw [List.flatMap_nil, List.nil_append,
      items_last (List.forall_mem_singleton.1 h) (by omega) (by omega), List.reverse_cons]
  | cons w ws ih =>
    obtain ⟨fuel, rfl⟩ := Nat.exists_eq_add_one_of_ne_zero (Nat.ne_zero_of_lt hfuel)
    obtain ⟨hv, hvs⟩ := List.forall_mem_cons.1 h
    rw [depthOfItems] at hd
    rw [List.flatMap_cons, List.length_append, List.cons_append, List.length_cons] at hfuel
    rw [List.flatMap_cons, List.cons_append, List.cons_append, List.append_assoc,
      items_next hv (by omega) (by omega), ih hvs (by omega) (by omega), List.reverse_cons,
      List.append_assoc, List.singleton_append]

/-- The fields of an object read back up to its brace. -/
theorem fields_text {more : List (String × Json)} (h : ∀ f ∈ field :: more, f.2.Restores)
    (hfuel : 2 * (fieldChars field ++ more.flatMap fun f => ',' :: fieldChars f).length < fuel)
    (hd : depthOfFields (field :: more) ≤ d) (acc : List (String × Json)) :
    fields fuel d acc (fieldChars field ++
      ((more.flatMap fun f => ',' :: fieldChars f) ++ '\x7d' :: rest)) =
        some (obj (ofPairs (acc.reverse ++ field :: more)), rest) := by
  induction more generalizing field fuel acc with
  | nil =>
    have hfield := length_text_le_fieldChars field
    obtain ⟨fuel, rfl⟩ := Nat.exists_eq_add_one_of_ne_zero (Nat.ne_zero_of_lt hfuel)
    rw [List.flatMap_nil, List.append_nil] at hfuel
    rw [depthOfFields] at hd
    rw [List.flatMap_nil, List.nil_append,
      fields_last (h field List.mem_cons_self) (by omega) (by omega), List.reverse_cons]
  | cons next more ih =>
    have hfield := length_text_le_fieldChars field
    obtain ⟨fuel, rfl⟩ := Nat.exists_eq_add_one_of_ne_zero (Nat.ne_zero_of_lt hfuel)
    obtain ⟨hv, hvs⟩ := List.forall_mem_cons.1 h
    rw [depthOfFields] at hd
    rw [List.flatMap_cons, List.length_append, List.cons_append, List.length_cons] at hfuel
    rw [List.flatMap_cons, List.cons_append, List.cons_append, List.append_assoc,
      fields_next hv (by omega) (by omega), ih hvs (by omega) (by omega), List.reverse_cons,
      List.append_assoc, List.singleton_append]

end

/-- The text of a value is never empty, so that its reader takes a step. -/
theorem exists_step {v : Json} (h : v.IsIntegral) {fuel : Nat}
    (hfuel : 2 * v.text.toList.length ≤ fuel) : ∃ n, fuel = n + 1 := by
  obtain ⟨c, cs, hcs, -⟩ := exists_cons_text h
  rw [hcs, List.length_cons] at hfuel
  exact Nat.exists_eq_add_one_of_ne_zero (by omega)

/-- **An integer reads back** if it has 64 bits, signed or unsigned. -/
theorem restores_int {i : Int} (hlow : Int64.minValue.toInt ≤ i) (hhigh : i < UInt64.size) :
    (int i).Restores := by
  intro fuel d rest hfuel _ hrest
  obtain ⟨fuel, rfl⟩ := exists_step (.int hlow hhigh) hfuel
  obtain ⟨c, cs, hcs, hc⟩ := exists_cons_ofInt i
  have hchars : (int i).text.toList = (Text.ofInt i).toList := by
    simp [text, write]
  have hskip : skipSpace (c :: cs ++ rest) = c :: (cs ++ rest) := by
    obtain ⟨c', cs', hcs', hspace, -⟩ := exists_cons_text (.int hlow hhigh)
    rw [hchars, hcs] at hcs'
    obtain ⟨rfl, -⟩ := List.cons.inj hcs'
    exact skipSpace_cons hspace _
  rw [hchars, hcs, value_eq_number hc hskip, ← List.cons_append, ← hcs]
  exact number_ofInt hlow hhigh hrest

/-- **A string reads back.** -/
theorem restores_str (s : String) : (str s).Restores := by
  intro fuel d rest hfuel _ _
  obtain ⟨fuel, rfl⟩ := exists_step (.str s) hfuel
  have hchars : (str s).text.toList ++ rest =
      '"' :: (s.toList.flatMap escape ++ '"' :: rest) := by
    simp [text, write, toList_stringText]
  rw [hchars, value]
  simp only [skipSpace_cons (c := '"') rfl, string_escape, Option.map_some]

/-- What begins with another character than the closing one is not empty. -/
theorem openBody_cons {close c : Char} (hspace : isSpace c = false) (hc : c ≠ close) (empty : Json)
    (body : List Char → Option (Json × List Char)) (cs : List Char) :
    openBody close empty body (skipSpace (c :: cs)) = body (c :: cs) := by
  rw [skipSpace_cons hspace, openBody, if_neg (by simpa using hc)]

/-- **An array of integral values reads back** when its items do. -/
theorem restores_arr {items : List Json} (h : ∀ v ∈ items, v.IsIntegral)
    (hitems : ∀ v ∈ items, v.Restores) : (arr items).Restores := by
  intro fuel d rest hfuel hd _
  obtain ⟨fuel, rfl⟩ := exists_step (.arr h) hfuel
  obtain ⟨d, rfl⟩ := Nat.exists_eq_add_of_le' (Nat.le_of_add_left_le hd)
  cases items with
  | nil => rfl
  | cons v vs =>
    obtain ⟨c, cs, hcs, hspace, hc⟩ := exists_cons_text (h v List.mem_cons_self)
    have hread : items fuel d [] (v.text.toList ++
        ((vs.flatMap fun w => ',' :: w.text.toList) ++ ']' :: rest)) =
          some (arr (v :: vs), rest) := by
      refine items_text hitems ?_ (Nat.le_of_succ_le_succ hd) []
      rw [toList_text_arr, List.length_cons, List.length_append, List.length_singleton] at hfuel
      omega
    rw [hcs, List.cons_append] at hread
    rw [toList_text_arr, List.cons_append, value_array (skipSpace_cons rfl _), List.append_assoc,
      List.append_assoc, List.singleton_append, hcs, List.cons_append, openBody_cons hspace hc]
    exact hread

/-- **An object of integral values reads back** when its values do and no key stands in it twice. -/
theorem restores_obj {fields : List (String × Json)} (hnodup : (fields.map (·.1)).Nodup)
    (h : ∀ field ∈ fields, field.2.IsIntegral) (hfields : ∀ field ∈ fields, field.2.Restores) :
    (obj fields).Restores := by
  intro fuel d rest hfuel hd _
  obtain ⟨fuel, rfl⟩ := exists_step (.obj hnodup h) hfuel
  obtain ⟨d, rfl⟩ := Nat.exists_eq_add_of_le' (Nat.le_of_add_left_le hd)
  cases fields with
  | nil => rfl
  | cons field more =>
    -- The fields are gathered in reverse, and without a double key turning them round restores the
    -- object.
    have hread : Json.fields fuel d [] (fieldChars field ++
        ((more.flatMap fun f => ',' :: fieldChars f) ++ '\x7d' :: rest)) =
          some (obj (field :: more), rest) := by
      rw [fields_text hfields ?_ (Nat.le_of_succ_le_succ hd), List.reverse_nil, List.nil_append,
        ofPairs_of_nodup hnodup]
      rw [toList_text_obj, List.length_cons, List.length_append, List.length_singleton] at hfuel
      omega
    rw [toList_fieldChars] at hread
    rw [toList_text_obj, List.cons_append, value_object (skipSpace_cons rfl _), List.append_assoc,
      List.append_assoc, List.singleton_append, toList_fieldChars,
      openBody_cons (by decide) (by decide)]
    exact hread

/-- **A value with integers reads back from its text.** -/
theorem IsIntegral.restores {v : Json} (h : v.IsIntegral) : v.Restores := by
  induction h with
  | null =>
    intro fuel d rest hfuel _ _
    obtain ⟨fuel, rfl⟩ := exists_step .null hfuel
    rfl
  | bool b =>
    intro fuel d rest hfuel _ _
    obtain ⟨fuel, rfl⟩ := exists_step (.bool b) hfuel
    cases b <;> rfl
  | int hlow hhigh => exact restores_int hlow hhigh
  | str s => exact restores_str s
  | arr h ih => exact restores_arr h ih
  | obj hnodup h ih => exact restores_obj hnodup h ih

/-- **The reader takes the text of a value for that value,** when it nests no deeper than the
reader goes. -/
theorem parse?_text {v : Json} (h : v.IsIntegral) (hdepth : v.depth ≤ maxDepth) :
    parse? v.text = some v := by
  have hread := h.restores (2 * v.text.toList.length + 2) maxDepth [] (by omega) hdepth closes_nil
  rw [List.append_nil] at hread
  rw [parse?, hread]
  rfl

/-- The text of an array or object stands between its brackets. -/
theorem exists_brackets_text {v : Json} (h : v.isStructured = true) :
    ∃ opening inner closing, v.text.toList = opening :: (inner ++ [closing]) ∧
      (opening = '\x7b' ∧ closing = '\x7d' ∨ opening = '[' ∧ closing = ']') := by
  match v, h with
  | arr [], _ => exact ⟨'[', [], ']', rfl, by simp⟩
  | arr (v :: vs), _ => exact ⟨_, _, _, toList_text_arr v vs, by simp⟩
  | obj [], _ => exact ⟨'\x7b', [], '\x7d', rfl, by simp⟩
  | obj (field :: more), _ => exact ⟨_, _, _, toList_text_obj field more, by simp⟩

/-- **The text of an array or object is taken for a document.** -/
theorem isDocumentText_text {v : Json} (hstructured : v.isStructured = true) (h : v.IsIntegral)
    (hdepth : v.depth ≤ maxDepth) : isDocumentText v.text = true := by
  obtain ⟨opening, inner, closing, htext, hbrackets⟩ := exists_brackets_text hstructured
  have hblank : Text.isBlank opening = false ∧ Text.isBlank closing = false := by
    rcases hbrackets with ⟨rfl, rfl⟩ | ⟨rfl, rfl⟩ <;> decide
  have hlast : (opening :: (inner ++ [closing])).getLast? = some closing :=
    List.getLast?_concat (l := opening :: inner)
  have htrim : Text.trimChars v.text.toList = v.text.toList := by
    have hhead : ∀ c ∈ (opening :: (inner ++ [closing])).head?, Text.isBlank c = false := by
      simpa using hblank.1
    rw [htext]
    simpa using Text.trimChars_padded (List.forall_mem_nil _) (List.forall_mem_nil _) hhead
      (by simpa [hlast] using hblank.2)
  rw [isDocumentText, htrim, String.ofList_toList, parse?_text h hdepth, htext, isBracketed,
    isBracketed, hlast]
  rcases hbrackets with ⟨rfl, rfl⟩ | ⟨rfl, rfl⟩ <;> rfl

end Json
end Querysmith
