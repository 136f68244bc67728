/-
# The document of a written value

The text of a value is JSON, and the tree that it writes has the numeral of every number where the
number stands (`ofText?_text`).  So a value that was read from a text and is written again gives the
tree of that text once more, with its fields settled and every numeral in the place of another one
(`tree_toJson`): the numeral of the number that the reader took it for (`Numeral.reprint`).
-/

import Querysmith.Proofs.Json.RoundTrip
import Querysmith.Proofs.Json.Tree

namespace Querysmith
namespace Json

/-- The floating numbers of the value are finite numbers of the format. -/
inductive IsKept : Json → Prop
  | null : IsKept null
  | bool (b : Bool) : IsKept (bool b)
  | int (i : Int) : IsKept (int i)
  | float {x : Binary64} : x.IsKept → IsKept (float x)
  | str (s : String) : IsKept (str s)
  | arr {items : List Json} : (∀ v ∈ items, IsKept v) → IsKept (arr items)
  | obj {fields : List (String × Json)} : (∀ field ∈ fields, IsKept field.2) → IsKept (obj fields)

mutual

/-- The tree that the text of a value writes. -/
def tree : Json → Tree Numeral
  | null => .scalar .null
  | bool b => .scalar (.bool b)
  | int i => .scalar (.number (.ofInt i))
  | float x => .scalar (.number (.ofFloat x))
  | str s => .scalar (.str s)
  | arr items => .arr (treeOfItems items)
  | obj fields => .obj (treeOfFields fields)

/-- The trees of the items of an array. -/
def treeOfItems : List Json → List (Tree Numeral)
  | [] => []
  | v :: vs => tree v :: treeOfItems vs

/-- The trees of the fields of an object. -/
def treeOfFields : List (String × Json) → List (String × Tree Numeral)
  | [] => []
  | (key, v) :: rest => (key, tree v) :: treeOfFields rest

end

/-- The tree of an array is made of the trees of its items. -/
theorem tree_arr (items : List Json) : tree (arr items) = .arr (items.map tree) := by
  rw [tree]
  refine congrArg Tree.arr ?_
  induction items with
  | nil => rfl
  | cons v vs ih => rw [treeOfItems, ih, List.map_cons]

/-- The tree of an object is made of the trees of its fields. -/
theorem tree_obj (fields : List (String × Json)) :
    tree (obj fields) = .obj (fields.map fun f => (f.1, f.2.tree)) := by
  rw [tree]
  refine congrArg Tree.obj ?_
  induction fields with
  | nil => rfl
  | cons field rest ih => rw [treeOfFields, ih, List.map_cons]

/-! ### Values that were read -/

/-- The numeral of the number that the reader takes a numeral for. -/
def Numeral.reprint (n : Numeral) : Numeral :=
  match n.toJson? with
  | some (int i) => ofInt i
  | some (float x) => ofFloat x
  | _ => n

/-- A numeral in range is taken for a number. -/
theorem Numeral.toJson?_cases (n : Numeral) : n.toJson? = none ∨
    (∃ i, n.toJson? = some (int i)) ∨ ∃ x, n.toJson? = some (float x) := by
  have hfloat : ∀ x : Option Binary64, x.map float = none ∨
      (∃ i, x.map float = some (int i)) ∨ ∃ y, x.map float = some (float y) := by
    intro x
    cases x with
    | none => exact .inl rfl
    | some y => exact .inr (.inr ⟨y, rfl⟩)
  rw [toJson?]
  simp only
  split_ifs
  · rw [ofInteger]
    split_ifs
    · exact .inr (.inl ⟨_, rfl⟩)
    · exact .inr (.inr ⟨_, rfl⟩)
    · exact .inr (.inl ⟨_, rfl⟩)
  · exact hfloat _
  · exact hfloat _

namespace Tree

/-- What the reader makes of a tree has no floating numbers but those of the format. -/
theorem isKept_toJson (t : Tree Numeral) : t.toJson.IsKept := by
  induction t using Tree.induct with
  | scalar v =>
    cases v with
    | null => exact .null
    | bool b => exact .bool b
    | str s => exact .str s
    | number n =>
      show (n.toJson?.getD .null).IsKept
      -- Only a numeral could become a floating number, and reading rounds it to the format.
      rcases n.toJson?_cases with h | ⟨i, h⟩ | ⟨x, h⟩
      · rw [h]
        exact .null
      · rw [h]
        exact .int i
      · rw [h]
        exact .float (Numeral.isKept_of_toJson? h)
  | arr items ih =>
    rw [toJson, fold_arr]
    exact .arr (List.forall_mem_map.2 ih)
  | obj fields ih =>
    rw [toJson, fold_obj, ofPairs_eq_lastWins]
    refine .obj fun f hf => ?_
    obtain ⟨field, hfield, rfl⟩ := List.mem_map.1 (mem_of_mem_lastWins hf)
    exact ih field hfield

/-- **A value that was read writes the tree of its text,** with other numerals. -/
theorem tree_toJson {t : Tree Numeral} (h : ∀ n ∈ t.numbers, n.toJson?.isSome) :
    t.toJson.tree = t.settle Numeral.reprint := by
  induction t using Tree.induct with
  | scalar v =>
    cases v with
    | null | bool b | str s => rfl
    | number n =>
      show (n.toJson?.getD .null).tree = .scalar (.number n.reprint)
      rw [Numeral.reprint]
      rcases n.toJson?_cases with hjson | ⟨i, hjson⟩ | ⟨x, hjson⟩
      · have hrange : n.toJson?.isSome = true := h n (List.mem_singleton_self n)
        rw [hjson] at hrange
        cases hrange
      · rw [hjson]
        rfl
      · rw [hjson]
        rfl
  | arr items ih =>
    rw [numbers_arr, List.forall_mem_flatMap] at h
    rw [toJson, fold_arr, tree_arr, settle_arr, List.map_map]
    exact congrArg arr (List.map_congr_left fun t ht => ih t ht (h t ht))
  | obj fields ih =>
    rw [numbers_obj, List.forall_mem_flatMap] at h
    rw [toJson, fold_obj, tree_obj, settle_obj, ofPairs_eq_lastWins, lastWins_map, List.map_map]
    refine congrArg obj (List.map_congr_left fun field hfield => ?_)
    -- Of fields with one key the last one is kept, on either way.
    have hmem := mem_of_mem_lastWins hfield
    exact congrArg (Prod.mk field.1) (ih field hmem (h field hmem))

end Tree

/-! ### Reading a text back -/

/-- A numeral begins with its sign or a digit. -/
theorem Numeral.exists_cons_spelled {n : Numeral} (h : n.IsProper) :
    ∃ c cs, n.spelled = c :: cs ∧ (c = '-' ∨ c.isDigit = true) := by
  obtain ⟨d, ds, hds⟩ := List.exists_cons_of_ne_nil h.whole_ne_nil
  rw [spelled, hds]
  cases n.negative with
  | true => exact ⟨_, _, rfl, .inl rfl⟩
  | false => exact ⟨_, _, rfl, .inr (h.isDigit_whole d (hds ▸ List.mem_cons_self))⟩

/-- The first character of a number is neither a space nor the end of an array. -/
theorem isSpace_of_begins {c : Char} (hc : c = '-' ∨ c.isDigit = true) :
    isSpace c = false ∧ c ≠ ']' := by
  have hdigits : "0123456789".toList.all (fun c => !isSpace c && c != ']') = true := by decide
  rcases hc with rfl | hc
  · decide
  · simpa using List.all_eq_true.1 hdigits c (Text.mem_of_isDigit hc)

/-- The text of the value is read as its tree in front of whatever closes it. -/
def Rereads (v : Json) : Prop :=
  ∀ fuel rest, 2 * v.text.toList.length ≤ fuel → Closes rest →
    Tree.value fuel (v.text.toList ++ rest) = some (v.tree, rest)

/-- The text of the value begins neither with a space nor with the end of an array. -/
def Begins (v : Json) : Prop :=
  ∃ c cs, v.text.toList = c :: cs ∧ isSpace c = false ∧ c ≠ ']'

/-- Fuel for the text of a value is fuel for a step. -/
theorem Begins.exists_step {v : Json} (h : v.Begins) {fuel : Nat}
    (hfuel : 2 * v.text.toList.length ≤ fuel) : ∃ n, fuel = n + 1 := by
  obtain ⟨c, cs, hcs, -⟩ := h
  rw [hcs, List.length_cons] at hfuel
  exact Nat.exists_eq_add_one_of_ne_zero (by omega)

/-- What begins like a numeral is read as one. -/
theorem Tree.value_eq_read? {cs ds : List Char} {c : Char} (hc : c = '-' ∨ c.isDigit = true)
    (h : skipSpace cs = c :: ds) (fuel : Nat) : Tree.value (fuel + 1) cs =
      (Numeral.read? (c :: ds)).map fun p => (.scalar (.number p.1), p.2) := by
  rw [Tree.value, h]
  split
  case h_7 => rfl
  all_goals
    rename_i heq
    obtain ⟨rfl, -⟩ := List.cons.inj heq
    exact absurd hc (by decide)

/-- A number whose text is a numeral reads back. -/
theorem rereads_number {v : Json} {n : Numeral} (h : n.IsProper) (htext : v.text.toList = n.spelled)
    (htree : v.tree = .scalar (.number n)) : v.Begins ∧ v.Rereads := by
  obtain ⟨c, cs, hcs, hc⟩ := Numeral.exists_cons_spelled h
  have hspace := isSpace_of_begins hc
  have hbegins : v.Begins := ⟨c, cs, htext.trans hcs, hspace⟩
  refine ⟨hbegins, fun fuel rest hfuel hrest => ?_⟩
  obtain ⟨fuel, rfl⟩ := hbegins.exists_step hfuel
  have hskip : skipSpace (n.spelled ++ rest) = c :: (cs ++ rest) := by
    rw [hcs]
    exact skipSpace_cons hspace.1 _
  rw [htext, htree, Tree.value_eq_read? hc hskip, ← List.cons_append, ← hcs,
    Numeral.read?_spelled h hrest]
  rfl

section

variable {fuel : Nat} {v : Json} {field : String × Json} (rest : List Char)

/-- The items of an array read back up to its bracket. -/
theorem items_reread {vs : List Json} (h : ∀ w ∈ v :: vs, w.Rereads)
    (hfuel : 2 * (v.text.toList ++ vs.flatMap fun w => ',' :: w.text.toList).length < fuel) :
    Tree.items fuel (v.text.toList ++
      ((vs.flatMap fun w => ',' :: w.text.toList) ++ ']' :: rest)) =
        some ((v :: vs).map tree, rest) := by
  -- Each item spends one step here and twice its text below, which the comma behind it pays for.
  induction vs generalizing v fuel with
  | nil =>
    obtain ⟨fuel, rfl⟩ := Nat.exists_eq_add_one_of_ne_zero (Nat.ne_zero_of_lt hfuel)
    rw [List.flatMap_nil, List.append_nil] at hfuel
    rw [List.flatMap_nil, List.nil_append, Tree.items,
      List.forall_mem_singleton.1 h _ _ (by omega) (closes_cons (by simp) rest), Option.bind_some,
      skipSpace_cons rfl, Tree.behind_close (by decide)]
    rfl
  | cons w ws ih =>
    obtain ⟨fuel, rfl⟩ := Nat.exists_eq_add_one_of_ne_zero (Nat.ne_zero_of_lt hfuel)
    obtain ⟨hv, hvs⟩ := List.forall_mem_cons.1 h
    rw [List.flatMap_cons, List.length_append, List.cons_append, List.length_cons] at hfuel
    rw [List.flatMap_cons, List.cons_append, List.cons_append, List.append_assoc, Tree.items,
      hv _ _ (by omega) (closes_cons (by simp) _), Option.bind_some, skipSpace_cons rfl,
      Tree.behind_comma, ih hvs (by omega)]
    rfl

/-- The fields of an object read back up to its brace. -/
theorem fields_reread {more : List (String × Json)} (h : ∀ f ∈ field :: more, f.2.Rereads)
    (hfuel : 2 * (fieldChars field ++ more.flatMap fun f => ',' :: fieldChars f).length < fuel) :
    Tree.fields fuel (fieldChars field ++
      ((more.flatMap fun f => ',' :: fieldChars f) ++ '\x7d' :: rest)) =
        some ((field :: more).map fun f => (f.1, f.2.tree), rest) := by
  induction more generalizing field fuel with
  | nil =>
    have hfield := length_text_le_fieldChars field
    obtain ⟨fuel, rfl⟩ := Nat.exists_eq_add_one_of_ne_zero (Nat.ne_zero_of_lt hfuel)
    rw [List.flatMap_nil, List.append_nil] at hfuel
    have hread := List.forall_mem_singleton.1 h fuel ('\x7d' :: rest) (by omega)
      (closes_cons (by simp) rest)
    rw [List.flatMap_nil, List.nil_append, toList_fieldChars, Tree.fields, skipSpace_cons rfl,
      Tree.expect_cons, string_escape, Option.bind_some, skipSpace_cons rfl, Tree.expect_cons,
      hread, Option.bind_some, skipSpace_cons rfl, Tree.behind_close (by decide)]
    rfl
  | cons next more ih =>
    have hfield := length_text_le_fieldChars field
    obtain ⟨fuel, rfl⟩ := Nat.exists_eq_add_one_of_ne_zero (Nat.ne_zero_of_lt hfuel)
    obtain ⟨hv, hvs⟩ := List.forall_mem_cons.1 h
    rw [List.flatMap_cons, List.length_append, List.cons_append, List.length_cons] at hfuel
    -- The first value ends in front of the comma, and the other fields are read with what fuel is
    -- left.
    have hread := hv fuel (',' :: (fieldChars next ++
      ((more.flatMap fun f => ',' :: fieldChars f) ++ '\x7d' :: rest))) (by omega)
        (closes_cons (by simp) _)
    rw [List.flatMap_cons, List.cons_append, List.cons_append, List.append_assoc,
      toList_fieldChars, Tree.fields, skipSpace_cons rfl, Tree.expect_cons, string_escape,
      Option.bind_some, skipSpace_cons rfl, Tree.expect_cons, hread, Option.bind_some,
      skipSpace_cons rfl, Tree.behind_comma, ih hvs (by omega)]
    rfl

/-- **A string is read as its tree.** -/
theorem rereads_str (s : String) : (str s).Begins ∧ (str s).Rereads := by
  have hchars : ∀ rest, (str s).text.toList ++ rest =
      '"' :: (s.toList.flatMap escape ++ '"' :: rest) := by
    simp [text, write, toList_stringText]
  have hbegins : (str s).Begins :=
    ⟨'"', _, (List.append_nil _).symm.trans (hchars []), by decide⟩
  refine ⟨hbegins, fun fuel rest hfuel _ => ?_⟩
  obtain ⟨fuel, rfl⟩ := hbegins.exists_step hfuel
  rw [hchars, Tree.value]
  simp only [skipSpace_cons (c := '"') rfl, string_escape]
  rfl

/-- An array that is not closed at once is read item by item. -/
theorem Tree.value_items {c : Char} (hspace : isSpace c = false) (hc : c ≠ ']') (ds : List Char)
    (fuel : Nat) : Tree.value (fuel + 1) ('[' :: c :: ds) =
      (Tree.items fuel (c :: ds)).map fun p => (.arr p.1, p.2) := by
  rw [Tree.value, skipSpace_cons rfl]
  simp only [skipSpace_cons hspace]
  exact if_neg (mt Option.some.inj hc)

/-- An object that is not closed at once is read field by field. -/
theorem Tree.value_fields {c : Char} (hspace : isSpace c = false) (hc : c ≠ '\x7d')
    (ds : List Char) (fuel : Nat) : Tree.value (fuel + 1) ('\x7b' :: c :: ds) =
      (Tree.fields fuel (c :: ds)).map fun p => (.obj p.1, p.2) := by
  rw [Tree.value, skipSpace_cons rfl]
  simp only [skipSpace_cons hspace]
  exact if_neg (mt Option.some.inj hc)

/-- **An array is read as its tree** when its items are. -/
theorem rereads_arr {items : List Json} (h : ∀ v ∈ items, v.Begins ∧ v.Rereads) :
    (arr items).Begins ∧ (arr items).Rereads := by
  cases items with
  | nil =>
    have hbegins : (arr []).Begins := ⟨_, _, rfl, by decide⟩
    refine ⟨hbegins, fun fuel rest hfuel _ => ?_⟩
    obtain ⟨fuel, rfl⟩ := hbegins.exists_step hfuel
    rfl
  | cons v vs =>
    have hbegins : (arr (v :: vs)).Begins := ⟨_, _, toList_text_arr v vs, by decide⟩
    refine ⟨hbegins, fun fuel rest hfuel _ => ?_⟩
    obtain ⟨fuel, rfl⟩ := hbegins.exists_step hfuel
    rw [toList_text_arr, List.length_cons, List.length_append, List.length_singleton] at hfuel
    have hread := items_reread rest (fun w hw => (h w hw).2) (show _ < fuel by omega)
    -- The first item begins with neither a space nor a bracket, so the array is not taken for
    -- empty.
    obtain ⟨c, cs, hcs, hspace, hc⟩ := (h v List.mem_cons_self).1
    rw [hcs, List.cons_append] at hread
    rw [toList_text_arr, List.cons_append, List.append_assoc, List.append_assoc,
      List.singleton_append, hcs, List.cons_append, Tree.value_items hspace hc, hread, tree_arr]
    rfl

/-- **An object is read as its tree** when the values of its fields are. -/
theorem rereads_obj {fields : List (String × Json)} (h : ∀ f ∈ fields, f.2.Rereads) :
    (obj fields).Begins ∧ (obj fields).Rereads := by
  cases fields with
  | nil =>
    have hbegins : (obj []).Begins := ⟨_, _, rfl, by decide⟩
    refine ⟨hbegins, fun fuel rest hfuel _ => ?_⟩
    obtain ⟨fuel, rfl⟩ := hbegins.exists_step hfuel
    rfl
  | cons field more =>
    have hbegins : (obj (field :: more)).Begins := ⟨_, _, toList_text_obj field more, by decide⟩
    refine ⟨hbegins, fun fuel rest hfuel _ => ?_⟩
    obtain ⟨fuel, rfl⟩ := hbegins.exists_step hfuel
    rw [toList_text_obj, List.length_cons, List.length_append, List.length_singleton] at hfuel
    have hread := fields_reread rest h (show _ < fuel by omega)
    rw [toList_fieldChars] at hread
    rw [toList_text_obj, List.cons_append, List.append_assoc, List.append_assoc,
      List.singleton_append, toList_fieldChars, Tree.value_fields (by decide) (by decide), hread,
      tree_obj]
    rfl

end

/-- The text of a value reads back as its tree. -/
theorem IsKept.rereads {v : Json} (h : v.IsKept) : v.Begins ∧ v.Rereads := by
  induction h with
  | null =>
    have hbegins : Begins Json.null := ⟨_, _, rfl, by decide⟩
    refine ⟨hbegins, fun fuel rest hfuel _ => ?_⟩
    obtain ⟨fuel, rfl⟩ := hbegins.exists_step hfuel
    rfl
  | bool b =>
    have hbegins : Begins (Json.bool b) := by cases b <;> exact ⟨_, _, rfl, by decide⟩
    refine ⟨hbegins, fun fuel rest hfuel _ => ?_⟩
    obtain ⟨fuel, rfl⟩ := hbegins.exists_step hfuel
    cases b <;> rfl
  | int i =>
    refine rereads_number (Numeral.isProper_ofInt i) ?_ rfl
    rw [Numeral.spelled_ofInt, text, write, String.empty_append]
  | float hx =>
    -- Only finite numbers have a text that is a numeral.
    rename_i x
    refine rereads_number (Numeral.isProper_ofFloat hx) ?_ rfl
    rw [text, write, String.empty_append]
    cases x with
    | finite negative m e => exact Numeral.text_eq_spelled negative m e
    | infinity _ | nan => cases hx
  | str s => exact rereads_str s
  | arr h ih => exact rereads_arr ih
  | obj h ih => exact rereads_obj fun f hf => (ih f hf).2

/-- **The text of a value is JSON, and writes the tree of the value.** -/
theorem ofText?_text {v : Json} (h : v.IsKept) : Tree.ofText? v.text = some v.tree := by
  have hread := h.rereads.2 (2 * v.text.toList.length + 2) [] (by omega) closes_nil
  rw [List.append_nil] at hread
  rw [Tree.ofText?, hread]
  rfl

end Json
end Querysmith
