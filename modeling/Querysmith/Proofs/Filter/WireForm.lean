/-
# The wire form of filters

A filter is read from null, from the empty text, or from an array of groups.  A group is an array of
conditions `[column, operator, operand]`, and an empty array among them is none.  What has this form
is said without the reader (`Filter.IsWire`), and so is what a value spells (`Filter.Spells`).  The
reader accepts just the values of this form and stops at the first part that offends against it; the
kind of its error is decided by that part alone (`Decides`).

| value | groups | filter |
| --- | --- | --- |
| null, `""`, `[]` | none | matches all |
| `[[c], []]`, `[[[]]]` | one of them empty | matches all |
| `[[c, []], [d]]` | `c`; `d` | `c` or `d` |
-/

import Querysmith.Proofs.Filter.Meaning

namespace Querysmith

/-! ### What a reader decides -/

/-- The outcome of a reader: it succeeds on what is accepted, names an identifier when a column
offends, and faults the filter otherwise. -/
inductive Decides {α : Type} (accepted columnOffends : Prop) : Except Error α → Prop
  | ok (a : α) : accepted → ¬columnOffends → Decides accepted columnOffends (.ok a)
  | identifier (fault : NameFault) : ¬accepted → columnOffends →
      Decides accepted columnOffends (.error (.invalidIdentifier fault))
  | filter (fault : FilterFault) : ¬accepted → ¬columnOffends →
      Decides accepted columnOffends (.error (.invalidFilter fault))

/-- The first member that is not good is bad. -/
def FirstOffends {α : Type} (good bad : α → Prop) (xs : List α) : Prop :=
  ∃ before x after, xs = before ++ x :: after ∧ (∀ y ∈ before, good y) ∧ bad x

/-- In an empty list nothing offends. -/
theorem not_firstOffends_nil {α : Type} (good bad : α → Prop) : ¬FirstOffends good bad [] := by
  rintro ⟨before, x, after, h, -⟩
  simp at h

/-- Something offends in front, or behind a part that is good. -/
theorem firstOffends_cons {α : Type} {good bad : α → Prop} {x : α} {xs : List α} :
    FirstOffends good bad (x :: xs) ↔ bad x ∨ good x ∧ FirstOffends good bad xs := by
  constructor
  · rintro ⟨before, y, after, h, hbefore, hy⟩
    cases before with
    | nil =>
      obtain ⟨rfl, -⟩ := List.cons.inj h
      exact .inl hy
    | cons b before =>
      obtain ⟨rfl, hxs⟩ := List.cons.inj h
      rw [List.forall_mem_cons] at hbefore
      exact .inr ⟨hbefore.1, before, y, after, hxs, hbefore.2, hy⟩
  · rintro (hx | ⟨hx, before, y, after, rfl, hbefore, hy⟩)
    · exact ⟨[], x, xs, rfl, by simp, hx⟩
    · exact ⟨x :: before, y, after, rfl, List.forall_mem_cons.2 ⟨hx, hbefore⟩, hy⟩

namespace Decides

variable {α β : Type} {p : Except Error α} {accepted offends : Prop}

/-- What decides a condition decides one that is equivalent to it. -/
theorem congr {accepted' offends' : Prop} (h : Decides accepted offends p)
    (haccepted : accepted ↔ accepted') (hoffends : offends ↔ offends') :
    Decides accepted' offends' p := by
  rwa [← propext haccepted, ← propext hoffends]

/-- **A sequence of readers decides in the second one what the first one accepts.** -/
theorem bind {accepted' offends' : Prop} {f : α → Except Error β} (h : Decides accepted offends p)
    (hf : ∀ a, p = .ok a → Decides accepted' offends' (f a)) :
    Decides (accepted ∧ accepted') (offends ∨ accepted ∧ offends') (p >>= f) := by
  cases h with
  | ok a haccepted hoffends =>
    refine (hf a rfl).congr (and_iff_right haccepted).symm ?_
    rw [or_iff_right hoffends, and_iff_right haccepted]
  | identifier fault haccepted hoffends =>
    exact .identifier fault (fun h => haccepted h.1) (.inl hoffends)
  | filter fault haccepted hoffends =>
    refine .filter fault (fun h => haccepted h.1) ?_
    rintro (h | ⟨h, -⟩)
    · exact hoffends h
    · exact haccepted h

/-- What is done with the result of a reader changes nothing of its decision. -/
theorem bind_pure (h : Decides accepted offends p) (g : α → β) :
    Decides accepted offends (p >>= fun a => pure (g a)) :=
  (h.bind fun a _ => .ok (g a) trivial not_false).congr (by simp) (by simp)

/-- **A list of readers decides at the first member that is not accepted.** -/
theorem mapM {f : α → Except Error β} {good bad : α → Prop}
    (h : ∀ x, Decides (good x) (bad x) (f x)) (xs : List α) :
    Decides (∀ x ∈ xs, good x) (FirstOffends good bad xs) (xs.mapM f) := by
  induction xs with
  | nil => exact .ok [] (by simp) (not_firstOffends_nil good bad)
  | cons x xs ih =>
    rw [List.mapM_cons, List.forall_mem_cons]
    exact ((h x).bind fun y _ => ih.bind_pure fun ys => y :: ys).congr .rfl firstOffends_cons.symm

/-- Members that are left out neither offend nor matter. -/
theorem mapM_filter {f : α → Except Error β} {good bad blank : α → Prop} {keep : α → Bool}
    (hkeep : ∀ x, keep x = false ↔ blank x) (hblank : ∀ x, blank x → ¬bad x)
    (h : ∀ x, Decides (good x) (bad x) (f x)) (xs : List α) :
    Decides (∀ x ∈ xs, blank x ∨ good x) (FirstOffends (fun x => blank x ∨ good x) bad xs)
      ((xs.filter keep).mapM f) := by
  refine (Decides.mapM h (xs.filter keep)).congr ?_ ?_
  · rw [List.forall_mem_filter]
    refine forall₂_congr fun x _ => ?_
    rw [← hkeep x]
    cases keep x <;> simp
  -- Members that are left out may stand anywhere in front of the first one that offends.
  · induction xs with
    | nil => exact iff_of_false (not_firstOffends_nil _ _) (not_firstOffends_nil _ _)
    | cons x xs ih =>
      rw [firstOffends_cons, ← ih, List.filter_cons]
      split
      · rename_i hx
        have hx' : ¬blank x := by simp [← hkeep, hx]
        rw [firstOffends_cons, or_iff_right hx']
      · rename_i hx
        have hx' : blank x := (hkeep x).1 (Bool.eq_false_iff.2 hx)
        simp [hx', hblank x hx']

/-- **A reader succeeds just where its input is accepted.** -/
theorem ok_iff (h : Decides accepted offends p) : (∃ a, p = .ok a) ↔ accepted := by
  cases h with
  | ok a haccepted _ => exact iff_of_true ⟨a, rfl⟩ haccepted
  | identifier _ haccepted _ | filter _ haccepted _ =>
    refine iff_of_false ?_ haccepted
    rintro ⟨a, ha⟩
    cases ha

/-- A reader fails on a name just where one offends. -/
theorem identifier_iff (h : Decides accepted offends p) :
    (∃ fault, p = .error (.invalidIdentifier fault)) ↔ offends := by
  cases h with
  | identifier fault _ hoffends => exact iff_of_true ⟨fault, rfl⟩ hoffends
  | ok _ _ hoffends | filter _ _ hoffends =>
    refine iff_of_false ?_ hoffends
    rintro ⟨fault, hfault⟩
    cases hfault

/-- A reader fails on the filter where its input is not accepted for another reason. -/
theorem filter_iff (h : Decides accepted offends p) :
    (∃ fault, p = .error (.invalidFilter fault)) ↔ ¬accepted ∧ ¬offends := by
  cases h with
  | filter fault haccepted hoffends => exact iff_of_true ⟨fault, rfl⟩ ⟨haccepted, hoffends⟩
  | ok _ haccepted _ =>
    refine iff_of_false ?_ fun h => h.1 haccepted
    rintro ⟨fault, hfault⟩
    cases hfault
  | identifier _ _ hoffends =>
    refine iff_of_false ?_ fun h => h.2 hoffends
    rintro ⟨fault, hfault⟩
    cases hfault

end Decides

/-! ### Conditions -/

namespace Operator

/-- An operator is named by its own text, with blanks around it or in capitals. -/
theorem ofText?_eq_some_iff {text : String} {op : Operator} :
    ofText? text = some op ↔ folded text = op.sql := by
  constructor
  · intro h
    have hfound := List.find?_some h
    exact (beq_iff_eq.1 hfound).symm
  · intro h
    rw [ofText?, h]
    cases op <;> rfl

/-- The text of an operator is folded already. -/
theorem folded_sql (op : Operator) : folded op.sql = op.sql := by
  cases op <;> decide

/-- What the operator takes for its operand: an array for `in` and `not in`, and anything but an
array or object elsewhere. -/
def Takes (op : Operator) (v : Json) : Prop :=
  match op with
  | isIn | notIn => ∃ members, v = .arr members
  | _ => v.isStructured = false

/-- An operator that takes a list takes every array. -/
theorem takes_of_takesList {op : Operator} (h : op.takesList = true) (v : Json) :
    op.Takes v ↔ ∃ members, v = .arr members := by
  rcases op.takesList_iff.1 h with rfl | rfl <;> rfl

/-- Every other operator takes anything but an array or object. -/
theorem takes_of_not_takesList {op : Operator} (h : op.takesList = false) (v : Json) :
    op.Takes v ↔ v.isStructured = false := by
  cases op with
  | isIn | notIn => cases h
  | equal | notEqual | less | greater | lessOrEqual | greaterOrEqual | like | notLike => rfl

/-- Two operators have two texts. -/
theorem sql_injective : Function.Injective sql := by
  intro op op' h
  have hread : ofText? op.sql = some op' := ofText?_eq_some_iff.2 ((folded_sql op).trans h)
  exact Option.some.inj ((ofText?_eq_some_iff.2 (folded_sql op)).symm.trans hread)

end Operator

/-- The JSON value of an operand. -/
def Operand.json : Operand → Json
  | scalar v => v
  | list members => .arr members

namespace Condition

/-- The condition in wire form. -/
def toJson (c : Condition) : Json := .arr [.str c.column, .str c.operator.sql, c.operand.json]

/-- The value is a condition in wire form: a column, a text that names an operator, and an operand
that this operator takes. -/
def IsWire (v : Json) : Prop :=
  ∃ (column text : String) (operand : Json) (op : Operator),
    v = .arr [.str column, .str text, operand] ∧ Operator.folded text = op.sql ∧ op.Takes operand

/-- The value spells the condition: its column, a text that names its operator, and its operand,
which is a list where the operator takes one. -/
def Spells (v : Json) (c : Condition) : Prop :=
  c.OperandFits ∧ ∃ text : String, v = .arr [.str c.column, .str text, c.operand.json] ∧
    Operator.folded text = c.operator.sql

/-- The value has the parts of a condition, and its column is no text. -/
def ColumnOffends (v : Json) : Prop :=
  ∃ column op operand, v = .arr [column, op, operand] ∧ ∀ s, column ≠ .str s

/-- **An operator is read from its text,** with blanks around it and letters of either case. -/
theorem readOperator_eq_ok_iff {text : String} {op : Operator} :
    readOperator text = .ok op ↔ Operator.folded text = op.sql := by
  rw [← Operator.ofText?_eq_some_iff, readOperator]
  cases Operator.ofText? text <;> simp

/-- A text that names no operator is at fault itself, not a name. -/
theorem readOperator_decides (text : String) :
    Decides (∃ op : Operator, Operator.folded text = op.sql) False (readOperator text) := by
  cases h : readOperator text with
  | ok op => exact .ok op ⟨op, readOperator_eq_ok_iff.1 h⟩ not_false
  | error err =>
    have hnone : ¬∃ op : Operator, Operator.folded text = op.sql := by
      rintro ⟨op, hop⟩
      rw [readOperator_eq_ok_iff.2 hop] at h
      cases h
    unfold readOperator at h
    split at h
    · cases h
    · obtain rfl := Except.error.inj h
      exact .filter _ hnone not_false

/-- An operand that its operator does not take is at fault itself, not the column. -/
theorem make_decides (column : String) (op : Operator) (v : Json) :
    Decides (op.Takes v) False (make column op v) := by
  unfold make
  split
  · rename_i hop
    rw [Operator.takes_of_takesList hop]
    split
    · rename_i members
      exact .ok _ ⟨members, rfl⟩ not_false
    · rename_i hother
      refine .filter _ ?_ not_false
      rintro ⟨members, rfl⟩
      exact hother members rfl
  · rename_i hop
    rw [Operator.takes_of_not_takesList (Bool.eq_false_iff.2 hop)]
    split
    · rename_i hv
      exact .filter _ (by simp [hv]) not_false
    · rename_i hv
      exact .ok _ (Bool.eq_false_iff.2 hv) not_false

/-- A text in the place of the column and one in that of the operator leave the two to be read. -/
theorem ofJson_parts (column text : String) (operand : Json) :
    ofJson (.arr [.str column, .str text, operand]) =
      readOperator text >>= fun op => make column op operand := by
  -- By rewriting: unfolding both sides goes into the texts of the operators.
  simp only [ofJson, pure_bind]

/-- Of three parts in place the operator is looked at first and then the operand. -/
theorem ofJson_parts_decides (column text : String) (operand : Json) :
    Decides (IsWire (.arr [.str column, .str text, operand])) False
      (ofJson (.arr [.str column, .str text, operand])) := by
  have hmake : ∀ op, readOperator text = .ok op → Decides
      (∃ op' : Operator, Operator.folded text = op'.sql ∧ op'.Takes operand) False
      (make column op operand) := by
    intro op hop
    rw [readOperator_eq_ok_iff] at hop
    refine (make_decides column op operand).congr ⟨fun h => ⟨op, hop, h⟩, ?_⟩ .rfl
    rintro ⟨op', hop', h⟩
    obtain rfl : op = op' := Operator.sql_injective (hop.symm.trans hop')
    exact h
  rw [ofJson_parts]
  refine ((readOperator_decides text).bind hmake).congr ⟨?_, ?_⟩ (by simp)
  · rintro ⟨-, op, hop, h⟩
    exact ⟨column, text, operand, op, rfl, hop, h⟩
  · rintro ⟨_, _, _, op, hv, hop, h⟩
    simp only [Json.arr.injEq, List.cons.injEq, Json.str.injEq, and_true] at hv
    obtain ⟨rfl, rfl, rfl⟩ := hv
    exact ⟨⟨op, hop⟩, op, hop, h⟩

/-- **A condition is read just where it has the wire form.**  Its column is looked at first, once
there are three parts. -/
theorem ofJson_decides (v : Json) : Decides (IsWire v) (ColumnOffends v) (ofJson v) := by
  unfold ofJson
  split
  · rename_i column op operand
    cases column with
    | str column =>
      have hcolumn : ¬ColumnOffends (.arr [.str column, op, operand]) := by
        rintro ⟨_, _, _, h, hcolumn⟩
        simp only [Json.arr.injEq, List.cons.injEq] at h
        exact hcolumn column h.1.symm
      cases op with
      | str text =>
        exact (ofJson_parts_decides column text operand).congr .rfl (iff_of_false not_false hcolumn)
      | null | bool _ | int _ | float _ | arr _ | obj _ =>
        refine .filter _ ?_ hcolumn
        rintro ⟨_, _, _, _, h, -⟩
        simp at h
    | null | bool _ | int _ | float _ | arr _ | obj _ =>
      refine .identifier _ ?_ ⟨_, op, operand, rfl, by simp⟩
      rintro ⟨_, _, _, _, h, -⟩
      simp at h
  · rename_i parts hparts
    refine .filter _ ?_ ?_
    · rintro ⟨column, text, operand, _, h, -⟩
      exact hparts (.str column) (.str text) operand (Json.arr.inj h)
    · rintro ⟨column, op, operand, h, -⟩
      exact hparts column op operand (Json.arr.inj h)
  · rename_i hparts
    refine .filter _ ?_ ?_
    · rintro ⟨_, _, _, _, rfl, -⟩
      exact hparts _ rfl
    · rintro ⟨_, _, _, rfl, -⟩
      exact hparts _ rfl

/-- A condition has the parts that it was made of. -/
theorem parts_of_make {column : String} {op : Operator} {v : Json} {c : Condition}
    (h : make column op v = .ok c) : c.column = column ∧ c.operator = op ∧ c.operand.json = v := by
  unfold make at h
  split at h
  · split at h
    · obtain rfl := Except.ok.inj h
      exact ⟨rfl, rfl, rfl⟩
    · cases h
  · split at h
    · cases h
    · obtain rfl := Except.ok.inj h
      exact ⟨rfl, rfl, rfl⟩

/-- **What is read as a condition spells it.** -/
theorem spells_of_ofJson {v : Json} {c : Condition} (h : ofJson v = .ok c) : Spells v c := by
  obtain ⟨column, text, operand, op, rfl, hop, hmake⟩ := exists_parts_of_ofJson h
  have hfits := make_operandFits hmake
  obtain ⟨rfl, rfl, rfl⟩ := parts_of_make hmake
  exact ⟨hfits, text, rfl, readOperator_eq_ok_iff.1 hop⟩

/-- A condition is built again from its own parts. -/
theorem OperandFits.make_eq {c : Condition} (h : c.OperandFits) :
    make c.column c.operator c.operand.json = .ok c := by
  obtain ⟨column, op, operand⟩ := c
  cases operand with
  | list members =>
    have hop : op.takesList = true := h.wellFormed
    simp [make, hop, Operand.json]
  | scalar v =>
    have hop : op.takesList = false := h.wellFormed
    simp [make, hop, h.scalar v rfl, Operand.json]

/-- **A condition with a fitting operand is read back from its wire form.** -/
theorem ofJson_toJson {c : Condition} (h : c.OperandFits) : ofJson c.toJson = .ok c := by
  have hop : readOperator c.operator.sql = .ok c.operator :=
    readOperator_eq_ok_iff.2 (Operator.folded_sql c.operator)
  rw [toJson, ofJson_parts, hop, ok_bind, h.make_eq]

end Condition

/-! ### Groups and filters -/

/-- Only a string has a text. -/
theorem Json.str?_eq_some_iff {v : Json} {s : String} : v.str? = some s ↔ v = .str s := by
  cases v <;> simp [Json.str?]

namespace Filter

/-- The value is a group in wire form: an array of conditions, and of empty arrays for none. -/
def IsWireGroup (v : Json) : Prop :=
  ∃ parts, v = .arr parts ∧ ∀ part ∈ parts, part = .arr [] ∨ Condition.IsWire part

/-- The first part of the group that offends does so by its column. -/
def GroupOffends (v : Json) : Prop :=
  ∃ parts, v = .arr parts ∧
    FirstOffends (fun part => part = .arr [] ∨ Condition.IsWire part) Condition.ColumnOffends parts

/-- The value is a filter in wire form: null, the empty text, or an array of groups. -/
def IsWire (v : Json) : Prop :=
  v = .null ∨ v = .str "" ∨ ∃ groups, v = .arr groups ∧ ∀ group ∈ groups, IsWireGroup group

/-- The first part of the filter that offends does so by its column. -/
def ColumnOffends (v : Json) : Prop :=
  ∃ groups, v = .arr groups ∧ FirstOffends IsWireGroup GroupOffends groups

/-- The parts spell the conditions of a group, in their order; an empty array spells none. -/
inductive PartsSpell : List Json → List Condition → Prop
  | nil : PartsSpell [] []
  | blank {parts : List Json} {group : List Condition} :
      PartsSpell parts group → PartsSpell (.arr [] :: parts) group
  | condition {part : Json} {c : Condition} {parts : List Json} {group : List Condition} :
      Condition.Spells part c → PartsSpell parts group → PartsSpell (part :: parts) (c :: group)

/-- The value spells the conditions of a group. -/
def GroupSpells (v : Json) (group : List Condition) : Prop :=
  ∃ parts, v = .arr parts ∧ PartsSpell parts group

/-- The value spells the groups, in their order. -/
inductive Spells : Json → List (List Condition) → Prop
  | null : Spells .null []
  | empty : Spells (.str "") []
  | groups {vs : List Json} {groups : List (List Condition)} :
      List.Forall₂ GroupSpells vs groups → Spells (.arr vs) groups

/-- The filter in wire form. -/
def toJson (f : Filter) : Json := .arr (f.groups.map fun group => .arr (group.map Condition.toJson))

/-- A group is read up to the first condition that is none. -/
theorem readGroup_decides (v : Json) : Decides (IsWireGroup v) (GroupOffends v) (readGroup v) := by
  cases v with
  | arr parts =>
    have hblank : ∀ part, (!isBlankCondition part) = false ↔ part = .arr [] := by
      intro part
      rw [Bool.not_eq_false', isBlankCondition_iff]
    have hcolumn : ∀ part, part = .arr [] → ¬Condition.ColumnOffends part := by
      rintro _ rfl ⟨_, _, _, h, -⟩
      cases h
    refine (Decides.mapM_filter hblank hcolumn Condition.ofJson_decides parts).congr ?_ ?_
    · simp [IsWireGroup]
    · simp [GroupOffends]
  | null | bool _ | int _ | float _ | str _ | obj _ =>
    refine .filter _ ?_ ?_
    · rintro ⟨_, h, -⟩
      cases h
    · rintro ⟨_, h, -⟩
      cases h

/-- **A filter is read just where it has the wire form.** -/
theorem ofJson_decides (v : Json) : Decides (IsWire v) (ColumnOffends v) (ofJson v) := by
  unfold ofJson
  split
  · refine .ok _ (.inl rfl) ?_
    rintro ⟨_, h, -⟩
    cases h
  · rename_i groups
    refine ((Decides.mapM readGroup_decides groups).bind_pure ofGroups).congr ?_ ?_
    · simp [IsWire]
    · simp [ColumnOffends]
  · rename_i hnull harr
    have hcolumn : ¬ColumnOffends v := by
      rintro ⟨groups, rfl, -⟩
      exact harr groups rfl
    split
    · rename_i hempty
      obtain rfl := Json.str?_eq_some_iff.1 hempty
      exact .ok _ (.inr (.inl rfl)) hcolumn
    · rename_i hempty
      refine .filter _ ?_ hcolumn
      rintro (rfl | rfl | ⟨groups, rfl, -⟩)
      · exact hnull rfl
      · exact hempty rfl
      · exact harr groups rfl

/-- **What is read as a group spells it,** with empty conditions left out. -/
theorem groupSpells_of_readGroup {v : Json} {group : List Condition}
    (h : readGroup v = .ok group) : GroupSpells v group := by
  cases v with
  | arr parts =>
    refine ⟨parts, rfl, ?_⟩
    have hread := mapM_eq_ok_iff.1 h
    clear h
    -- By induction on the parts: a blank one is passed over, and any other one is a condition.
    induction parts generalizing group with
    | nil =>
      cases hread
      exact .nil
    | cons part parts ih =>
      rw [List.filter_cons] at hread
      split at hread
      · cases hread with
        | cons hpart hparts => exact .condition (Condition.spells_of_ofJson hpart) (ih hparts)
      · rename_i hblank
        rw [Bool.not_eq_true, Bool.not_eq_false', isBlankCondition_iff] at hblank
        rw [hblank]
        exact .blank (ih hread)
  | null | bool _ | int _ | float _ | str _ | obj _ => cases h

/-- **A filter is made of the groups that its wire form spells.** -/
theorem spells_of_ofJson {v : Json} {f : Filter} (h : ofJson v = .ok f) :
    ∃ groups, Spells v groups ∧ f = ofGroups groups := by
  unfold ofJson at h
  split at h
  · exact ⟨[], .null, (Except.ok.inj h).symm⟩
  · obtain ⟨groups, hgroups, h⟩ := exists_of_bind_eq_ok h
    have hspells := (mapM_eq_ok_iff.1 hgroups).imp fun _ _ => groupSpells_of_readGroup
    exact ⟨groups, .groups hspells, (Except.ok.inj h).symm⟩
  · split at h
    · rename_i hempty
      obtain rfl := Json.str?_eq_some_iff.1 hempty
      exact ⟨[], .empty, (Except.ok.inj h).symm⟩
    · cases h

/-- Groups with conditions stay as they are. -/
theorem ofGroups_of_forall_ne_nil {groups : List (List Condition)}
    (h : ∀ group ∈ groups, group ≠ []) : ofGroups groups = ⟨groups⟩ := by
  rw [ofGroups, if_neg]
  intro hany
  obtain ⟨group, hgroup, hempty⟩ := List.any_eq_true.1 hany
  exact h group hgroup (List.isEmpty_iff.1 hempty)

/-- An empty group makes the filter match every row. -/
theorem ofGroups_of_nil_mem {groups : List (List Condition)} (h : [] ∈ groups) :
    ofGroups groups = all := by
  rw [ofGroups, if_pos (List.any_eq_true.2 ⟨[], h, rfl⟩)]

/-- **A filter of groups matches all when there is none, or an empty one among them,** and keeps
them otherwise. -/
theorem ofGroups_matchesAll_iff (groups : List (List Condition)) :
    ((ofGroups groups).matchesAll = true ↔ groups = [] ∨ [] ∈ groups) ∧
    ((ofGroups groups).matchesAll = false → (ofGroups groups).groups = groups) := by
  by_cases hnil : [] ∈ groups
  · rw [ofGroups_of_nil_mem hnil]
    exact ⟨iff_of_true rfl (.inr hnil), fun h => by cases h⟩
  · have hne : ∀ group ∈ groups, group ≠ [] := fun group hgroup hempty => hnil (hempty ▸ hgroup)
    rw [ofGroups_of_forall_ne_nil hne, or_iff_left hnil]
    exact ⟨List.isEmpty_iff, fun _ => rfl⟩

/-- **A group reads back from its wire form.** -/
theorem readGroup_toJson {group : List Condition} (h : ∀ c ∈ group, c.OperandFits) :
    readGroup (.arr (group.map Condition.toJson)) = .ok group := by
  have hkept : (group.map Condition.toJson).filter (!isBlankCondition ·) =
      group.map Condition.toJson := by
    rw [List.filter_eq_self, List.forall_mem_map]
    intro c _
    rfl
  rw [readGroup, hkept, mapM_eq_ok_iff, List.forall₂_map_left_iff, List.forall₂_same]
  exact fun c hc => Condition.ofJson_toJson (h c hc)

/-- **A filter without empty groups is read back from its wire form,** when its conditions have
fitting operands. -/
theorem ofJson_toJson {f : Filter} (hne : ∀ group ∈ f.groups, group ≠ [])
    (hfits : ∀ group ∈ f.groups, ∀ c ∈ group, c.OperandFits) : ofJson f.toJson = .ok f := by
  have hread : (f.groups.map fun group => Json.arr (group.map Condition.toJson)).mapM readGroup =
      .ok f.groups := by
    rw [mapM_eq_ok_iff, List.forall₂_map_left_iff, List.forall₂_same]
    exact fun group hgroup => readGroup_toJson (hfits group hgroup)
  rw [toJson, ofJson, hread, ok_bind, ofGroups_of_forall_ne_nil hne]
  rfl

/-- **The wire form of filters is read exactly, and filters come back from it.**  A value is read
just where it has the wire form.  Where it is not, the error names an identifier just where the
first part that offends does so by its column, and faults the filter everywhere else.  A filter that
is read is made of the groups that the value spells: it matches all when there is no group or an
empty one, and has these groups otherwise.  Every filter that a caller can come by is read back from
its own wire form. -/
theorem wire_form_exact :
    (∀ v : Json,
      ((∃ f, ofJson v = .ok f) ↔ IsWire v) ∧
      ((∃ fault, ofJson v = .error (.invalidIdentifier fault)) ↔ ColumnOffends v) ∧
      ((∃ fault, ofJson v = .error (.invalidFilter fault)) ↔ ¬IsWire v ∧ ¬ColumnOffends v) ∧
      ∀ f, ofJson v = .ok f → ∃ groups, Spells v groups ∧
        (f.matchesAll = true ↔ groups = [] ∨ [] ∈ groups) ∧
        (f.matchesAll = false → f.groups = groups)) ∧
    ∀ f : Filter, f.Reachable → ofJson f.toJson = .ok f := by
  refine ⟨fun v => ?_, fun f hf => ?_⟩
  · have hdecides := ofJson_decides v
    refine ⟨hdecides.ok_iff, hdecides.identifier_iff, hdecides.filter_iff, fun f hf => ?_⟩
    obtain ⟨groups, hspells, rfl⟩ := spells_of_ofJson hf
    exact ⟨groups, hspells, ofGroups_matchesAll_iff groups⟩
  · exact ofJson_toJson hf.composed.ne_nil fun group hgroup c hc =>
      (hf.composed.conditions group hgroup c hc).operandFits

/-- An operator in capitals and blanks with an empty part behind its condition, and a group that is
none behind one whose column is no text. -/
theorem wire_form_exact_spellings :
    ∃ f, ofJson (.arr [.arr [.arr [.str "a", .str " NOT In\t", .arr [.int 1]], .arr []]]) = .ok f ∧
      f.matchesAll = false ∧ ofJson f.toJson = .ok f ∧
      ∃ fault, ofJson (.arr [.arr [.arr [.int 1, .str "?", .null]], .null]) =
        .error (.invalidIdentifier fault) := by
  have hf : ofJson (.arr [.arr [.arr [.str "a", .str " NOT In\t", .arr [.int 1]], .arr []]]) =
      .ok ⟨[[.notInList "a" [.int 1]]]⟩ := by
    rfl
  have hcolumn : Condition.ColumnOffends (.arr [.int 1, .str "?", .null]) :=
    ⟨_, _, _, rfl, by simp⟩
  obtain ⟨hread, hback⟩ := wire_form_exact
  obtain ⟨-, hidentifier, -⟩ := hread (.arr [.arr [.arr [.int 1, .str "?", .null]], .null])
  refine ⟨_, hf, rfl, hback _ (.ofJson hf), hidentifier.2 ?_⟩
  exact ⟨_, rfl, [], _, _, rfl, by simp, _, rfl, [], _, _, rfl, by simp, hcolumn⟩

end Filter
end Querysmith
