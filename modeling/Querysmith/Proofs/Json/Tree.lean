/-
# Documents with their numerals

A text that is JSON as a tree: its numbers are the numerals that stand there and its objects have
all the fields that are written, a key twice if need be.  Nothing is out of range here and nothing
too deep.  What such a tree means is its document (`Tree.document`): every numeral is worth its
rational value, and of fields with one key the last one counts.

The reader of values is the reader of trees followed by a step that builds a value from the tree
(`parse?_eq_bind`).  The step fails only for a tree that is too deep or has a numeral that is out of
range.  It settles the fields of objects, and it makes numbers of numerals, which is where a
document may become another one (`settle_eq_settle_iff`).
-/

import Querysmith.Proofs.Json.FloatText

namespace Querysmith
namespace Json

/-! ### Fields of which the last counts -/

section

variable {α β : Type}

/-- Sets a field: a key that is there keeps its place, a new one goes to the end. -/
def setLast (field : String × α) : List (String × α) → List (String × α)
  | [] => [field]
  | other :: rest => if other.1 = field.1 then field :: rest else other :: setLast field rest

/-- The fields as they are set one after another. -/
def lastWins (fields : List (String × α)) : List (String × α) :=
  fields.foldl (fun before field => setLast field before) []

/-- Setting a field of a value is setting it in a list of pairs. -/
theorem setField_eq_setLast (key : String) (v : Json) (fields : List (String × Json)) :
    setField key v fields = setLast (key, v) fields := by
  induction fields with
  | nil => rfl
  | cons field rest ih =>
    rw [setField, setLast, ih]
    grind

/-- **An object has the fields that count** of the pairs that it is made of: a key stands where it
was first written, with the value that was written last. -/
theorem ofPairs_eq_lastWins (pairs : List (String × Json)) : ofPairs pairs = lastWins pairs := by
  simp only [ofPairs, lastWins, setField_eq_setLast]

/-- The place of a field depends on its key alone. -/
theorem setLast_map (g : α → β) (field : String × α) (fields : List (String × α)) :
    setLast (field.1, g field.2) (fields.map fun f => (f.1, g f.2)) =
      (setLast field fields).map fun f => (f.1, g f.2) := by
  induction fields with
  | nil => rfl
  | cons other rest ih =>
    rw [List.map_cons, setLast, setLast, ih]
    split <;> rfl

/-- The last field of a list is set after all others. -/
theorem lastWins_append_singleton (fields : List (String × α)) (field : String × α) :
    lastWins (fields ++ [field]) = setLast field (lastWins fields) := by
  rw [lastWins, List.foldl_append]
  rfl

/-- Which fields count does not depend on what they hold. -/
theorem lastWins_map (g : α → β) (fields : List (String × α)) :
    lastWins (fields.map fun f => (f.1, g f.2)) = (lastWins fields).map fun f => (f.1, g f.2) := by
  induction fields using List.reverseRecOn with
  | nil => rfl
  | append_singleton fields field ih =>
    rw [List.map_append, List.map_singleton, lastWins_append_singleton, ih, setLast_map,
      lastWins_append_singleton]

/-- Setting a field brings no other one in. -/
theorem mem_of_mem_setLast {field f : String × α} {fields : List (String × α)}
    (h : f ∈ setLast field fields) : f = field ∨ f ∈ fields := by
  induction fields with
  | nil => exact .inl (List.mem_singleton.1 h)
  | cons other rest ih =>
    rw [setLast] at h
    grind

/-- No field is made up. -/
theorem mem_of_mem_lastWins {f : String × α} {fields : List (String × α)}
    (h : f ∈ lastWins fields) : f ∈ fields := by
  induction fields using List.reverseRecOn with
  | nil => exact h
  | append_singleton fields field ih =>
    rw [lastWins_append_singleton] at h
    rcases mem_of_mem_setLast h with rfl | h
    · exact List.mem_append_right _ (List.mem_singleton_self f)
    · exact List.mem_append_left _ (ih h)

/-- Setting a field keeps keys different: it takes the place of its namesake, or none has its
key. -/
theorem nodup_setLast {field : String × α} {fields : List (String × α)}
    (h : (fields.map (·.1)).Nodup) : ((setLast field fields).map (·.1)).Nodup := by
  induction fields with
  | nil => simp [setLast]
  | cons other rest ih =>
    obtain ⟨hother, hrest⟩ : other.1 ∉ rest.map (·.1) ∧ (rest.map (·.1)).Nodup :=
      List.nodup_cons.1 h
    rw [setLast]
    split
    · -- The field takes the place of its namesake, whose key was nowhere else.
      rename_i hkey
      rw [hkey] at hother
      exact List.nodup_cons.2 ⟨hother, hrest⟩
    · rename_i hkey
      refine List.nodup_cons.2 ⟨fun hmem => ?_, ih hrest⟩
      obtain ⟨f, hf, hfkey⟩ := List.mem_map.1 hmem
      rcases mem_of_mem_setLast hf with rfl | hf
      · exact hkey hfkey.symm
      · exact hother (List.mem_map.2 ⟨f, hf, hfkey⟩)

/-- **No key counts twice.**  A field with a key that is there already takes the place of the old
one and adds no key. -/
theorem nodup_lastWins (fields : List (String × α)) : ((lastWins fields).map (·.1)).Nodup := by
  induction fields using List.reverseRecOn with
  | nil => exact List.nodup_nil
  | append_singleton fields field ih =>
    rw [lastWins_append_singleton]
    exact nodup_setLast ih

/-- A field with a new key goes to the end. -/
theorem setLast_of_not_mem {field : String × α} {fields : List (String × α)}
    (h : field.1 ∉ fields.map (·.1)) : setLast field fields = fields ++ [field] := by
  induction fields with
  | nil => rfl
  | cons other rest ih =>
    rw [List.map_cons, List.mem_cons, not_or] at h
    rw [setLast, if_neg (Ne.symm h.1), ih h.2, List.cons_append]

/-- Fields with different keys stay as they are. -/
theorem lastWins_of_nodup {fields : List (String × α)} (h : (fields.map (·.1)).Nodup) :
    lastWins fields = fields := by
  induction fields using List.reverseRecOn with
  | nil => rfl
  | append_singleton fields field ih =>
    rw [List.map_append, List.map_singleton, List.nodup_append] at h
    have hnew : field.1 ∉ fields.map (·.1) := fun hmem =>
      h.2.2 _ hmem _ (List.mem_singleton_self _) rfl
    rw [lastWins_append_singleton, ih h.1, setLast_of_not_mem hnew]

/-- Of fields that count all count. -/
theorem lastWins_lastWins (fields : List (String × α)) :
    lastWins (lastWins fields) = lastWins fields :=
  lastWins_of_nodup (nodup_lastWins fields)

end

/-! ### Trees -/

/-- A value without parts, its numbers of any kind. -/
inductive Scalar (α : Type) where
  | null
  | bool (b : Bool)
  | number (n : α)
  | str (s : String)
  deriving DecidableEq, Repr

/-- A value as a text writes it, its numbers of any kind.  An object has its fields in the order of
the text, all of them. -/
inductive Tree (α : Type) where
  | scalar (v : Scalar α)
  | arr (items : List (Tree α))
  | obj (fields : List (String × Tree α))

namespace Scalar

variable {α β γ : Type}

/-- The scalar with its number changed. -/
def map (f : α → β) : Scalar α → Scalar β
  | null => null
  | bool b => bool b
  | number n => number (f n)
  | str s => str s

/-- The number, if there is one. -/
def numbers : Scalar α → List α
  | number n => [n]
  | _ => []

/-- The value that the reader makes of a scalar; a number out of range has none. -/
def toJson : Scalar Numeral → Json
  | null => .null
  | bool b => .bool b
  | number n => n.toJson?.getD .null
  | str s => .str s

/-- The number of a scalar may be changed in two steps. -/
theorem map_map (f : α → β) (g : β → γ) (v : Scalar α) : (v.map f).map g = v.map (g ∘ f) := by
  cases v <;> rfl

/-- Two changes give one scalar when they agree on its number. -/
theorem map_eq_map_iff {f g : α → β} (v : Scalar α) :
    v.map f = v.map g ↔ ∀ n ∈ v.numbers, f n = g n := by
  cases v <;> simp [map, numbers]

end Scalar

namespace Tree

variable {α β γ : Type}

section

variable (scalar : Scalar α → β) (arr : List β → β) (obj : List (String × β) → β)

mutual

/-- What is made of a tree, from its scalars up. -/
def fold : Tree α → β
  | .scalar v => scalar v
  | .arr items => arr (foldItems items)
  | .obj fields => obj (foldFields fields)

/-- What is made of the items of an array. -/
def foldItems : List (Tree α) → List β
  | [] => []
  | t :: ts => fold t :: foldItems ts

/-- What is made of the fields of an object. -/
def foldFields : List (String × Tree α) → List (String × β)
  | [] => []
  | (key, t) :: rest => (key, fold t) :: foldFields rest

end

/-- The items of an array are folded one by one. -/
theorem foldItems_eq (items : List (Tree α)) :
    foldItems scalar arr obj items = items.map (fold scalar arr obj) := by
  induction items with
  | nil => rfl
  | cons t ts ih => rw [foldItems, ih, List.map_cons]

/-- The fields of an object are folded one by one, each under its key. -/
theorem foldFields_eq (fields : List (String × Tree α)) :
    foldFields scalar arr obj fields = fields.map fun f => (f.1, fold scalar arr obj f.2) := by
  induction fields with
  | nil => rfl
  | cons field rest ih => rw [foldFields, ih, List.map_cons]

/-- A fold of an array is made of the folds of its items. -/
theorem fold_arr (items : List (Tree α)) :
    fold scalar arr obj (.arr items) = arr (items.map (fold scalar arr obj)) := by
  rw [fold, foldItems_eq]

/-- A fold of an object is made of the folds of its fields. -/
theorem fold_obj (fields : List (String × Tree α)) : fold scalar arr obj (.obj fields) =
    obj (fields.map fun f => (f.1, fold scalar arr obj f.2)) := by
  rw [fold, foldFields_eq]

end

/-- Trees are built from scalars, arrays and objects. -/
theorem induct {motive : Tree α → Prop} (scalar : ∀ v, motive (.scalar v))
    (arr : ∀ items, (∀ t ∈ items, motive t) → motive (.arr items))
    (obj : ∀ fields, (∀ field ∈ fields, motive field.2) → motive (.obj fields)) (t : Tree α) :
    motive t :=
  Tree.rec (motive_1 := motive) (motive_2 := fun items => ∀ t ∈ items, motive t)
    (motive_3 := fun fields => ∀ field ∈ fields, motive field.2)
    (motive_4 := fun field => motive field.2)
    scalar arr obj (fun _ h => absurd h List.not_mem_nil)
    (fun _ _ hhead htail => List.forall_mem_cons.2 ⟨hhead, htail⟩)
    (fun _ h => absurd h List.not_mem_nil)
    (fun _ _ hhead htail => List.forall_mem_cons.2 ⟨hhead, htail⟩) (fun _ _ h => h) t

/-- The tree is an array or an object. -/
def isStructured : Tree α → Bool
  | .scalar _ => false
  | _ => true

/-- How deep the arrays and objects nest. -/
def depth : Tree α → Nat :=
  fold (fun _ => 0) (fun parts => parts.foldr max 0 + 1)
    fun parts => (parts.map (·.2)).foldr max 0 + 1

/-- The numbers, in the order of the text. -/
def numbers : Tree α → List α :=
  fold Scalar.numbers List.flatten fun parts => (parts.map (·.2)).flatten

/-- The tree with its numbers changed and with the fields that count. -/
def settle (f : α → β) : Tree α → Tree β :=
  fold (fun v => .scalar (v.map f)) .arr fun fields => .obj (lastWins fields)

/-- The numbers that count: those of the fields that are the last with their key. -/
def settledNumbers (t : Tree α) : List α :=
  (t.settle id).numbers

/-- An array is settled item by item. -/
theorem settle_arr (f : α → β) (items : List (Tree α)) :
    settle f (.arr items) = .arr (items.map (settle f)) :=
  fold_arr ..

/-- Which fields count does not depend on what they hold. -/
theorem settle_obj (f : α → β) (fields : List (String × Tree α)) : settle f (.obj fields) =
    .obj ((lastWins fields).map fun field => (field.1, settle f field.2)) :=
  (fold_obj ..).trans (congrArg obj (lastWins_map (settle f) fields))

/-- The numbers of an array are those of its items. -/
theorem numbers_arr (items : List (Tree α)) : numbers (.arr items) = items.flatMap numbers :=
  fold_arr ..

/-- The numbers of an object are those of all its fields, whether they count or not. -/
theorem numbers_obj (fields : List (String × Tree α)) :
    numbers (.obj fields) = fields.flatMap fun field => field.2.numbers := by
  rw [numbers, fold_obj, List.map_map]
  rfl

/-- **What is settled stays so,** and its numbers may be changed one after another.  Settling twice
drops no further field, since no key is left twice. -/
theorem settle_settle (f : α → β) (g : β → γ) (t : Tree α) :
    (t.settle f).settle g = t.settle (g ∘ f) := by
  induction t using Tree.induct with
  | scalar v => exact congrArg scalar (v.map_map f g)
  | arr items ih =>
    rw [settle_arr, settle_arr, settle_arr, List.map_map]
    exact congrArg arr (List.map_congr_left ih)
  | obj fields ih =>
    -- The fields that count are settled already, so settling them again drops none.
    rw [settle_obj, settle_obj, settle_obj, lastWins_map, lastWins_lastWins, List.map_map]
    refine congrArg obj (List.map_congr_left fun field hfield => ?_)
    exact congrArg (Prod.mk field.1) (ih field (mem_of_mem_lastWins hfield))

/-- Settling makes no scalar of an array or object, and none of these of a scalar. -/
theorem isStructured_settle (f : α → β) (t : Tree α) :
    (t.settle f).isStructured = t.isStructured := by
  cases t <;> rfl

/-- The numbers that count in an array are those that count in its items. -/
theorem settledNumbers_arr (items : List (Tree α)) :
    settledNumbers (.arr items) = items.flatMap settledNumbers := by
  rw [settledNumbers, settle_arr, numbers_arr, List.flatMap_map]
  rfl

/-- The numbers that count in an object stand in the fields that count. -/
theorem settledNumbers_obj (fields : List (String × Tree α)) : settledNumbers (.obj fields) =
    (lastWins fields).flatMap fun field => field.2.settledNumbers := by
  rw [settledNumbers, settle_obj, numbers_obj, List.flatMap_map]
  rfl

/-- **Two changes give one tree exactly when they agree on the numbers that count.**  A number in a
field that a later one replaces is not in the settled tree, so there they may differ. -/
theorem settle_eq_settle_iff {f g : α → β} (t : Tree α) :
    t.settle f = t.settle g ↔ ∀ n ∈ t.settledNumbers, f n = g n := by
  induction t using Tree.induct with
  | scalar v =>
    have hnumbers : settledNumbers (.scalar v) = v.numbers := by
      cases v <;> rfl
    rw [hnumbers, ← v.map_eq_map_iff]
    exact Tree.scalar.injEq .. ▸ Iff.rfl
  | arr items ih =>
    rw [settle_arr, settle_arr, arr.injEq, List.map_inj_left, settledNumbers_arr,
      List.forall_mem_flatMap]
    exact forall₂_congr ih
  | obj fields ih =>
    -- Both changes keep the same fields, so the trees agree when each of these does.
    rw [settle_obj, settle_obj, obj.injEq, List.map_inj_left, settledNumbers_obj,
      List.forall_mem_flatMap]
    refine forall₂_congr fun field hfield => ?_
    rw [Prod.mk.injEq, ih field (mem_of_mem_lastWins hfield)]
    exact and_iff_right rfl

/-! ### From trees to values -/

/-- What a text means: numbers by their values, and fields that count. -/
def document (t : Tree Numeral) : Tree ℚ := t.settle Numeral.value

/-- The value that the reader makes of a tree whose numbers are in range. -/
def toJson : Tree Numeral → Json :=
  fold Scalar.toJson .arr fun fields => .obj (ofPairs fields)

/-- The tree nests no deeper than this, and its numbers are in range. -/
def Fits (limit : Nat) (t : Tree Numeral) : Prop :=
  t.depth ≤ limit ∧ ∀ n ∈ t.numbers, n.toJson?.isSome

instance (limit : Nat) (t : Tree Numeral) : Decidable (t.Fits limit) :=
  inferInstanceAs (Decidable (_ ∧ _))

/-- A greatest number is within a limit when all are. -/
theorem foldr_max_le {limits : List Nat} {limit : Nat} :
    limits.foldr max 0 ≤ limit ↔ ∀ n ∈ limits, n ≤ limit := by
  induction limits with
  | nil => simp
  | cons n rest ih => rw [List.foldr_cons, Nat.max_le, ih, List.forall_mem_cons]

/-- An array fits when its items fit one level below. -/
theorem fits_arr {limit : Nat} {items : List (Tree Numeral)} :
    Fits (limit + 1) (.arr items) ↔ ∀ t ∈ items, t.Fits limit := by
  rw [Fits, depth, fold_arr, Nat.add_le_add_iff_right, foldr_max_le, List.forall_mem_map,
    numbers_arr, List.forall_mem_flatMap]
  exact forall₂_and.symm

/-- An object fits when all its fields fit one level below, also those that do not count: the reader
has to take them. -/
theorem fits_obj {limit : Nat} {fields : List (String × Tree Numeral)} :
    Fits (limit + 1) (.obj fields) ↔ ∀ field ∈ fields, field.2.Fits limit := by
  rw [Fits, depth, fold_obj, Nat.add_le_add_iff_right, foldr_max_le, List.map_map,
    List.forall_mem_map, numbers_obj, List.forall_mem_flatMap]
  exact forall₂_and.symm

/-- Where nothing may nest there is no array. -/
theorem not_fits_arr {items : List (Tree Numeral)} : ¬Fits 0 (.arr items) := fun h => by
  rw [Fits, depth, fold_arr] at h
  exact absurd h.1 (Nat.not_succ_le_zero _)

/-- Where nothing may nest there is no object. -/
theorem not_fits_obj {fields : List (String × Tree Numeral)} : ¬Fits 0 (.obj fields) := fun h => by
  rw [Fits, depth, fold_obj] at h
  exact absurd h.1 (Nat.not_succ_le_zero _)

/-! ### The reader -/

section

variable {δ : Type}

/-- What is read behind one character. -/
def expect (c : Char) (next : List Char → Option γ) (cs : List Char) : Option γ :=
  if cs.head? = some c then next cs.tail else none

/-- What is read behind an item or a field: more of them behind a comma, or the closing bracket. -/
def behind (close : Char) (more done : List Char → Option γ) (cs : List Char) : Option γ :=
  if cs.head? = some ',' then more cs.tail else expect close done cs

/-- The expected character is taken off. -/
theorem expect_cons (c : Char) (next : List Char → Option γ) (cs : List Char) :
    expect c next (c :: cs) = next cs :=
  if_pos rfl

/-- A comma leads to more parts. -/
theorem behind_comma (close : Char) (more done : List Char → Option γ) (cs : List Char) :
    behind close more done (',' :: cs) = more cs :=
  if_pos rfl

/-- The closing bracket ends the parts. -/
theorem behind_close {close : Char} (h : close ≠ ',') (more done : List Char → Option γ)
    (cs : List Char) : behind close more done (close :: cs) = done cs := by
  rw [behind, List.head?_cons, if_neg (mt Option.some.inj h), expect_cons]

/-- Nothing is read where another character stands than the expected one. -/
theorem expect_of_ne {c : Char} {cs : List Char} (h : ∀ rest, cs ≠ c :: rest)
    (next : List Char → Option γ) : expect c next cs = none :=
  if_neg fun hc => (List.head?_eq_some_iff.1 hc).elim h

/-- Nothing is read where neither a comma nor the closing bracket stands. -/
theorem behind_of_ne {close : Char} {cs : List Char} (hcomma : ∀ rest, cs ≠ ',' :: rest)
    (hclose : ∀ rest, cs ≠ close :: rest) (more done : List Char → Option γ) :
    behind close more done cs = none :=
  (if_neg fun hc => (List.head?_eq_some_iff.1 hc).elim hcomma).trans (expect_of_ne hclose done)

/-- What is done with the parts behind a bracket may be done to what reads them. -/
theorem openBody_bind_eq {close : Char} {empty : γ} {other : δ}
    {body : List Char → Option (γ × List Char)} {others : List Char → Option (δ × List Char)}
    {f : γ × List Char → Option (δ × List Char)}
    (hempty : ∀ rest, f (empty, rest) = some (other, rest))
    (hbody : ∀ cs, (body cs).bind f = others cs) (cs : List Char) :
    (openBody close empty body cs).bind f = openBody close other others cs := by
  rw [openBody, openBody]
  split_ifs
  · exact hempty _
  · exact hbody cs

/-- Where nothing is made of any parts, nothing is read behind the bracket. -/
theorem openBody_bind_none {close : Char} {empty : γ} {body : List Char → Option (γ × List Char)}
    {f : γ × List Char → Option δ} (hempty : ∀ rest, f (empty, rest) = none)
    (hbody : ∀ cs, (body cs).bind f = none) (cs : List Char) :
    (openBody close empty body cs).bind f = none := by
  rw [openBody]
  split_ifs
  · exact hempty _
  · exact hbody cs

/-- What is done with a result behind a character may be done to what reads it. -/
theorem expect_bind (c : Char) (next : List Char → Option γ) (cs : List Char)
    (f : γ → Option δ) :
    (expect c next cs).bind f = expect c (fun rest => (next rest).bind f) cs := by
  rw [expect, expect]
  split_ifs <;> rfl

/-- What is done with a result behind a part may be done on both ways on. -/
theorem behind_bind (close : Char) (more done : List Char → Option γ) (cs : List Char)
    (f : γ → Option δ) : (behind close more done cs).bind f =
      behind close (fun rest => (more rest).bind f) (fun rest => (done rest).bind f) cs := by
  rw [behind, behind, ← expect_bind]
  split_ifs <;> rfl

/-- Nothing is read where nothing can follow. -/
theorem behind_none (close : Char) (cs : List Char) :
    behind close (fun _ => none) (fun _ => none) cs = (none : Option γ) := by
  rw [behind, expect, ite_self, ite_self]

end

mutual

/-- A tree at the head of the text. -/
def value : Nat → List Char → Option (Tree Numeral × List Char)
  | 0, _ => none
  | fuel + 1, cs =>
    match skipSpace cs with
    | 'n' :: 'u' :: 'l' :: 'l' :: rest => some (scalar .null, rest)
    | 't' :: 'r' :: 'u' :: 'e' :: rest => some (scalar (.bool true), rest)
    | 'f' :: 'a' :: 'l' :: 's' :: 'e' :: rest => some (scalar (.bool false), rest)
    | '"' :: rest => (string rest).map fun p => (scalar (.str p.1), p.2)
    | '[' :: rest =>
      openBody ']' (arr []) (fun cs => (items fuel cs).map fun p => (arr p.1, p.2)) (skipSpace rest)
    | '\x7b' :: rest =>
      openBody '\x7d' (obj []) (fun cs => (fields fuel cs).map fun p => (obj p.1, p.2))
        (skipSpace rest)
    | rest => (Numeral.read? rest).map fun p => (scalar (.number p.1), p.2)

/-- The items of an array up to its bracket. -/
def items : Nat → List Char → Option (List (Tree Numeral) × List Char)
  | 0, _ => none
  | fuel + 1, cs => (value fuel cs).bind fun t =>
    behind ']' (fun rest => (items fuel rest).map fun p => (t.1 :: p.1, p.2))
      (fun rest => some ([t.1], rest)) (skipSpace t.2)

/-- The fields of an object up to its brace. -/
def fields : Nat → List Char → Option (List (String × Tree Numeral) × List Char)
  | 0, _ => none
  | fuel + 1, cs => expect '"' (fun rest => (string rest).bind fun key =>
    expect ':' (fun rest => (value fuel rest).bind fun t =>
      behind '\x7d' (fun rest => (fields fuel rest).map fun p => ((key.1, t.1) :: p.1, p.2))
        (fun rest => some ([(key.1, t.1)], rest)) (skipSpace t.2)) (skipSpace key.2))
          (skipSpace cs)

end

/-- The tree that a whole text writes. -/
def ofText? (s : String) : Option (Tree Numeral) :=
  match value (2 * s.toList.length + 2) s.toList with
  | some (t, rest) => if (skipSpace rest).isEmpty then some t else none
  | none => none

/-- What the reader of values makes of what the reader of trees has taken. -/
def accept (limit : Nat) (p : Tree Numeral × List Char) : Option (Json × List Char) :=
  if p.1.Fits limit then some (p.1.toJson, p.2) else none

/-- A tree that fits becomes its value. -/
theorem accept_of_fits {limit : Nat} {t : Tree Numeral} (h : t.Fits limit) (rest : List Char) :
    accept limit (t, rest) = some (t.toJson, rest) :=
  if_pos h

/-- **A number is read as its numeral,** and refused when the numeral is out of range.  A number has
no depth, so it is accepted at any limit. -/
theorem number_eq_accept (limit : Nat) (cs : List Char) : number cs =
    ((Numeral.read? cs).map fun p => (scalar (.number p.1), p.2)).bind (accept limit) := by
  rw [Numeral.number_eq_bind, Option.bind_map]
  refine Option.bind_congr fun p _ => ?_
  have hfits : Fits limit (scalar (.number p.1)) ↔ p.1.toJson?.isSome = true := by
    simp [Fits, depth, numbers, fold, Scalar.numbers]
  rw [Function.comp_apply, accept, if_congr hfits rfl rfl]
  cases hjson : p.1.toJson? with
  | none => rfl
  | some v => simp [toJson, fold, Scalar.toJson, hjson]

/-! ### The reader of values in the same steps -/

/-- The items of a value are read in the steps in which those of a tree are.  The reader matches on
the results of its parts one inside another, so its cases are gone through once, here. -/
theorem items_eq_bind (fuel limit : Nat) (acc : List Json) (cs : List Char) :
    Json.items (fuel + 1) limit acc cs = (Json.value fuel limit cs).bind fun v =>
      behind ']' (fun rest => Json.items fuel limit (v.1 :: acc) rest)
        (fun rest => some (.arr (v.1 :: acc).reverse, rest)) (skipSpace v.2) := by
  rw [Json.items]
  cases Json.value fuel limit cs with
  | none => rfl
  | some v =>
    rw [Option.bind_some]
    simp only
    split
    · rename_i hcomma
      rw [hcomma, behind_comma]
    · rename_i hclose
      rw [hclose, behind_close (by decide)]
    · rename_i hcomma hclose
      rw [behind_of_ne hcomma hclose]

/-- The fields of a value are read in the steps in which those of a tree are. -/
theorem fields_eq_bind (fuel limit : Nat) (acc : List (String × Json)) (cs : List Char) :
    Json.fields (fuel + 1) limit acc cs = expect '"' (fun rest => (string rest).bind fun key =>
      expect ':' (fun rest => (Json.value fuel limit rest).bind fun v =>
        behind '\x7d' (fun rest => Json.fields fuel limit ((key.1, v.1) :: acc) rest)
          (fun rest => some (.obj (ofPairs ((key.1, v.1) :: acc).reverse), rest)) (skipSpace v.2))
            (skipSpace key.2)) (skipSpace cs) := by
  rw [Json.fields]
  split
  case h_2 =>
    rename_i hquote
    rw [expect_of_ne hquote]
  -- Both readers go step by step through quote, key, colon, value and separator, and fail together.
  rename_i rest hquote
  rw [hquote, expect_cons]
  cases string rest with
  | none => rfl
  | some key =>
    rw [Option.bind_some]
    simp only
    split
    case h_2 =>
      rename_i hcolon
      rw [expect_of_ne hcolon]
    rename_i rest hcolon
    rw [hcolon, expect_cons]
    cases Json.value fuel limit rest with
    | none => rfl
    | some v =>
      rw [Option.bind_some]
      simp only
      split
      · rename_i hcomma
        rw [hcomma, behind_comma]
      · rename_i hclose
        rw [hclose, behind_close (by decide)]
      · rename_i hcomma hclose
        rw [behind_of_ne hcomma hclose]

/-- Behind a part that fits both readers go on the same, and one that does not fit is refused now or
when all parts are there. -/
theorem accept_bind_behind {α : Type} (fits : α → Prop) [DecidablePred fits] {limit : Nat}
    {t : Tree Numeral × List Char} {part : α} (hpart : fits part ↔ t.1.Fits limit) (close : Char)
    (make : List α → Json) {parts : List Char → Option (List α × List Char)}
    (more done : Json → List Char → Option (Json × List Char))
    (hmore : ∀ rest, more t.1.toJson rest = (parts rest).bind fun p =>
      if ∀ q ∈ p.1, fits q then some (make (part :: p.1), p.2) else none)
    (hdone : ∀ rest, done t.1.toJson rest = some (make [part], rest)) :
    ((accept limit t).bind fun v => behind close (more v.1) (done v.1) (skipSpace v.2)) =
      (behind close (fun rest => (parts rest).map fun p => (part :: p.1, p.2))
        (fun rest => some ([part], rest)) (skipSpace t.2)).bind fun p =>
          if ∀ q ∈ p.1, fits q then some (make p.1, p.2) else none := by
  rw [behind_bind]
  simp only [Option.bind_map, Option.bind_some, List.forall_mem_singleton]
  -- The reader of values stops at a part that does not fit; the reader of trees goes on, and the
  -- condition on all parts fails behind it.
  by_cases hfits : t.1.Fits limit
  · have hall : ∀ ps, (∀ q ∈ part :: ps, fits q) ↔ ∀ q ∈ ps, fits q :=
      fun ps => List.forall_mem_cons.trans (and_iff_right (hpart.2 hfits))
    rw [accept_of_fits hfits, Option.bind_some]
    refine congrArg₂ (behind close · · _) (funext fun rest => ?_) (funext fun rest => ?_)
    · rw [hmore]
      exact Option.bind_congr fun p _ => if_congr (hall p.1).symm rfl rfl
    · rw [hdone, if_pos (hpart.2 hfits)]
  · rw [accept, if_neg hfits, Option.bind_none]
    simp [mt hpart.1 hfits, behind_none]

/-- The reader of values is the reader of trees and what it makes of them. -/
structure Agrees (fuel : Nat) : Prop where
  value : ∀ limit cs, Json.value fuel limit cs = (Tree.value fuel cs).bind (accept limit)
  items : ∀ limit acc cs, Json.items fuel limit acc cs = (Tree.items fuel cs).bind fun p =>
    if ∀ t ∈ p.1, t.Fits limit then some (.arr (acc.reverse ++ p.1.map toJson), p.2) else none
  fields : ∀ limit acc cs, Json.fields fuel limit acc cs = (Tree.fields fuel cs).bind fun p =>
    if ∀ f ∈ p.1, f.2.Fits limit then
      some (.obj (ofPairs (acc.reverse ++ p.1.map fun f => (f.1, f.2.toJson))), p.2)
    else none

namespace Agrees

variable {fuel : Nat} (h : Agrees fuel) (limit : Nat)

include h

/-- Behind the bracket of an array both readers do the same. -/
theorem value_array {cs ds : List Char} (hcs : skipSpace cs = '[' :: ds) :
    Json.value (fuel + 1) limit cs = (Tree.value (fuel + 1) cs).bind (accept limit) := by
  have htree : Tree.value (fuel + 1) cs = openBody ']' (arr [])
      (fun cs => (Tree.items fuel cs).map fun p => (arr p.1, p.2)) (skipSpace ds) := by
    rw [Tree.value, hcs]
    rfl
  rw [htree]
  cases limit with
  | zero =>
    -- No bracket is allowed here; a tree that was read behind one is refused afterwards.
    have hdeep : Json.value (fuel + 1) 0 cs = none := by
      rw [Json.value, hcs]
      rfl
    have hreject : ∀ (parts : List (Tree Numeral)) (rest : List Char),
        accept 0 (arr parts, rest) = none := fun _ _ => if_neg not_fits_arr
    refine hdeep.trans (openBody_bind_none (hreject []) (fun cs => ?_) _).symm
    rw [Option.bind_map]
    exact Option.bind_eq_none_iff.2 fun p _ => hreject p.1 p.2
  | succ limit =>
    rw [Json.value_array hcs]
    refine (openBody_bind_eq (accept_of_fits (fits_arr.2 (List.forall_mem_nil _)))
      (fun cs => ?_) _).symm
    rw [h.items, Option.bind_map]
    exact Option.bind_congr fun p _ => if_congr fits_arr (by simp [toJson, fold_arr]) rfl

/-- Behind the brace of an object both readers do the same. -/
theorem value_object {cs ds : List Char} (hcs : skipSpace cs = '\x7b' :: ds) :
    Json.value (fuel + 1) limit cs = (Tree.value (fuel + 1) cs).bind (accept limit) := by
  have htree : Tree.value (fuel + 1) cs = openBody '\x7d' (obj [])
      (fun cs => (Tree.fields fuel cs).map fun p => (obj p.1, p.2)) (skipSpace ds) := by
    rw [Tree.value, hcs]
    rfl
  rw [htree]
  cases limit with
  | zero =>
    -- Without depth left the reader of values fails, and the tree is too deep to be accepted.
    have hdeep : Json.value (fuel + 1) 0 cs = none := by
      rw [Json.value, hcs]
      rfl
    have hreject : ∀ (parts : List (String × Tree Numeral)) (rest : List Char),
        accept 0 (obj parts, rest) = none := fun _ _ => if_neg not_fits_obj
    refine hdeep.trans (openBody_bind_none (hreject []) (fun cs => ?_) _).symm
    rw [Option.bind_map]
    exact Option.bind_eq_none_iff.2 fun p _ => hreject p.1 p.2
  | succ limit =>
    rw [Json.value_object hcs]
    refine (openBody_bind_eq (accept_of_fits (fits_obj.2 (List.forall_mem_nil _)))
      (fun cs => ?_) _).symm
    rw [h.fields, Option.bind_map]
    exact Option.bind_congr fun p _ => if_congr fits_obj (by simp [toJson, fold_obj]) rfl

/-- A value is read as its tree: scalars at once, and arrays and objects by their parts. -/
theorem value_succ (cs : List Char) :
    Json.value (fuel + 1) limit cs = (Tree.value (fuel + 1) cs).bind (accept limit) := by
  have hscalar : ∀ (v : Scalar Numeral) (rest : List Char), v.numbers = [] →
      some (v.toJson, rest) = accept limit (scalar v, rest) := by
    intro v rest hv
    have hfits : Fits limit (scalar v) := by
      refine ⟨Nat.zero_le _, fun n hn => ?_⟩
      rw [numbers, fold, hv] at hn
      cases hn
    exact (accept_of_fits hfits rest).symm
  -- Both readers look at the same first characters, so the cases of one are those of the other.
  rw [Json.value]
  split
  case h_1 hcs =>
    rw [Tree.value, hcs]
    exact hscalar .null _ rfl
  case h_2 hcs =>
    rw [Tree.value, hcs]
    exact hscalar (.bool true) _ rfl
  case h_3 hcs =>
    rw [Tree.value, hcs]
    exact hscalar (.bool false) _ rfl
  case h_4 rest hcs =>
    rw [Tree.value, hcs]
    simp only
    rw [Option.bind_map]
    cases string rest with
    | none => rfl
    | some p => exact hscalar (.str p.1) p.2 rfl
  case h_5 hcs =>
    have harray := h.value_array limit hcs
    rw [Json.value, hcs] at harray
    exact harray
  case h_6 hcs =>
    have hobject := h.value_object limit hcs
    rw [Json.value, hcs] at hobject
    exact hobject
  case h_7 hnull htrue hfalse hquote hbracket hbrace =>
    -- What begins like nothing else is a number for both.
    rw [Tree.value]
    split
    case h_1 hcs => exact (hnull _ hcs).elim
    case h_2 hcs => exact (htrue _ hcs).elim
    case h_3 hcs => exact (hfalse _ hcs).elim
    case h_4 hcs => exact (hquote _ hcs).elim
    case h_5 hcs => exact (hbracket _ hcs).elim
    case h_6 hcs => exact (hbrace _ hcs).elim
    case h_7 => exact number_eq_accept limit _

/-- With items that agree, one more item agrees. -/
theorem items_succ (acc : List Json) (cs : List Char) :
    Json.items (fuel + 1) limit acc cs = (Tree.items (fuel + 1) cs).bind fun p =>
      if ∀ t ∈ p.1, t.Fits limit then some (.arr (acc.reverse ++ p.1.map toJson), p.2)
      else none := by
  rw [items_eq_bind, Tree.items, h.value, Option.bind_assoc, Option.bind_assoc]
  refine Option.bind_congr fun t _ => accept_bind_behind (Fits limit) Iff.rfl ']'
    (fun ts => .arr (acc.reverse ++ ts.map toJson))
    (fun v => Json.items fuel limit (v :: acc)) (fun v rest => some (.arr (v :: acc).reverse, rest))
    (fun rest => ?_) (fun rest => by simp)
  rw [h.items]
  simp

/-- With fields that agree, one more field agrees. -/
theorem fields_succ (acc : List (String × Json)) (cs : List Char) :
    Json.fields (fuel + 1) limit acc cs = (Tree.fields (fuel + 1) cs).bind fun p =>
      if ∀ f ∈ p.1, f.2.Fits limit then
        some (.obj (ofPairs (acc.reverse ++ p.1.map fun f => (f.1, f.2.toJson))), p.2)
      else none := by
  rw [fields_eq_bind, Tree.fields, expect_bind]
  refine congrArg (expect '"' · _) (funext fun rest => ?_)
  rw [Option.bind_assoc]
  refine Option.bind_congr fun key _ => ?_
  rw [expect_bind]
  refine congrArg (expect ':' · _) (funext fun rest => ?_)
  rw [h.value, Option.bind_assoc, Option.bind_assoc]
  refine Option.bind_congr fun t _ => accept_bind_behind
    (fun f : String × Tree Numeral => f.2.Fits limit) Iff.rfl '\x7d'
    (fun fs => .obj (ofPairs (acc.reverse ++ fs.map fun f => (f.1, f.2.toJson))))
    (fun v => Json.fields fuel limit ((key.1, v) :: acc))
    (fun v rest => some (.obj (ofPairs ((key.1, v) :: acc).reverse), rest))
    (fun rest => ?_) (fun rest => by simp)
  rw [h.fields]
  simp

end Agrees

/-- **Both readers take the same steps,** with any fuel: the reader of values is the reader of
trees, followed by a step that makes a value or refuses.  A value is refused as soon as a part of it
is, and a tree when all of it has been read, which gives the same answer. -/
theorem agrees (fuel : Nat) : Agrees fuel := by
  induction fuel with
  | zero => exact ⟨fun _ _ => rfl, fun _ _ _ => rfl, fun _ _ _ => rfl⟩
  | succ fuel ih =>
    exact ⟨fun limit => ih.value_succ limit, fun limit => ih.items_succ limit,
      fun limit => ih.fields_succ limit⟩

/-- **The reader of values takes the trees that fit,** and makes a value of each: the trees that are
not too deep and have no numeral out of range. -/
theorem parse?_eq_bind (s : String) :
    parse? s = (ofText? s).bind fun t => if t.Fits maxDepth then some t.toJson else none := by
  -- Both give the whole text the same fuel and want nothing but blanks behind the value.
  rw [parse?, ofText?, (agrees _).value]
  cases Tree.value _ s.toList with
  | none => rfl
  | some p =>
    rw [Option.bind_some, accept]
    split_ifs with hfits
    · simp only
      split <;> simp [hfits]
    · simp only
      split <;> simp [hfits]

end Tree
end Json
end Querysmith
