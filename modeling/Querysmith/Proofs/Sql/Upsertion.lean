/-
# What an upsert leaves in a table

The meaning of

    INSERT INTO t (columns) VALUES tuple, ..., tuple
    ON CONFLICT (target) DO UPDATE SET a = EXCLUDED.a, ...

over the rows of a table.  The tuples are taken in order: where a row agrees with the tuple on the
target, the listed columns are overwritten in it, and where none does, the tuple is appended
(`put`).  What a database makes of a bound value, and what a new row holds in the columns that are
not named, is left open (`Storage`).

When every named column is in the target or is overwritten (`Upsertion.IsFull`), a row with the
target of a tuple holds the whole tuple after it was put (`put_holds`), and rows with another target
stay as they are (`mem_of_mem_put`).  Tuples with the same target overwrite each other on the way,
so a second run changes rows, and changes them back: it gives every row the columns of the last
tuple with its target, which the row has already (`run_run`).
-/

import Mathlib.Data.Finset.Card
import Querysmith.Proofs.Lists
import Querysmith.Proofs.Sql.Insertion

namespace Querysmith
namespace Sql

/-- An insert with an `ON CONFLICT` clause. -/
structure Upsertion extends Insertion where
  /-- The columns on which rows conflict. -/
  target : List String
  /-- The columns that a conflict overwrites with the values of the tuple. -/
  updates : List String
  deriving DecidableEq, Repr

/-- A row: what it holds in each column, nothing for null. -/
abbrev Row (ω : Type) := String → Option ω

/-- What a database stores. -/
structure Storage (ω : Type) where
  /-- What becomes of a bound value in a column, perhaps with a cast. -/
  store : String → SqlValue → Option String → ω
  /-- What a new row holds in the columns that are not named; it may depend on the table. -/
  standard : List (Row ω) → Row ω

namespace Storage

variable {ω : Type} (st : Storage ω)

/-- What a cell leaves in a column. -/
def value (column : String) : Written → Option ω
  | .null => none
  | .value v cast => some (st.store column v cast)

/-- What a tuple leaves in the columns. -/
def given (columns : List String) (tuple : List Written) : Row ω :=
  fun column => ((columns.zip tuple).lookup column).bind (st.value column)

/-- The row that a tuple asks for. -/
def row (columns : List String) (tuple : List Written) (table : List (Row ω)) : Row ω :=
  fun column =>
    if column ∈ columns then st.given columns tuple column else st.standard table column

end Storage

/-- Two rows have the same values in the columns.  Null is no value. -/
def Agree {ω : Type} (target : List String) (a b : Row ω) : Prop :=
  ∀ column ∈ target, a column ≠ none ∧ a column = b column

instance {ω : Type} [DecidableEq ω] (target : List String) (a b : Row ω) :
    Decidable (Agree target a b) :=
  inferInstanceAs (Decidable (∀ column ∈ target, _))

/-- No two rows agree on the columns. -/
def Unique {ω : Type} (target : List String) (table : List (Row ω)) : Prop :=
  table.Pairwise fun a b => ¬Agree target a b

/-- The row with the columns of another one. -/
def overwrite {ω : Type} (columns : List String) (new old : Row ω) : Row ω :=
  fun column => if column ∈ columns then new column else old column

/-- What records that conflict on a target leave of a table. -/
structure Settled {ω : Type} [DecidableEq ω] (target columns : List String)
    (records initial final : List (Row ω)) : Prop where
  /-- Still no two rows agree on the target. -/
  unique : Unique target final
  /-- A row joins for every value of the target that is new. -/
  length : final.length = initial.length +
    ((records.map fun record => target.map record).toFinset \
      (initial.map fun row => target.map row).toFinset).card
  /-- A row has the value of the target, and it holds the last record with that value. -/
  last : ∀ before record after, records = before ++ record :: after →
    (∀ later ∈ after, target.map later ≠ target.map record) →
      (∃ row ∈ final, target.map row = target.map record) ∧
        ∀ row ∈ final, target.map row = target.map record →
          ∀ column ∈ columns, row column = record column

namespace Upsertion

variable {ω : Type} [DecidableEq ω]

/-- Puts a tuple into a table. -/
def put (u : Upsertion) (st : Storage ω) (table : List (Row ω)) (tuple : List Written) :
    List (Row ω) :=
  let new := st.row u.columns tuple table
  if ∃ row ∈ table, Agree u.target new row then
    table.map fun row => if Agree u.target new row then overwrite u.updates new row else row
  else table ++ [new]

/-- Puts the tuples into a table, one after another. -/
def run (u : Upsertion) (st : Storage ω) (table : List (Row ω)) : List (Row ω) :=
  u.tuples.foldl (u.put st) table

/-- Runs upserts one after another. -/
def runAll (us : List Upsertion) (st : Storage ω) (table : List (Row ω)) : List (Row ω) :=
  us.foldl (fun table u => u.run st table) table

/-- It does not matter how the tuples are spread over upserts. -/
theorem runAll_eq_run (u : Upsertion) (tuples : List (List (List Written))) (st : Storage ω)
    (table : List (Row ω)) :
    runAll (tuples.map fun part => { u with tuples := part }) st table =
      { u with tuples := tuples.flatten }.run st table := by
  rw [runAll, List.foldl_map, run, List.foldl_flatten]
  rfl

/-- Every named column is in the target or is overwritten, and no others are. -/
structure IsFull (u : Upsertion) : Prop where
  target_subset : u.target ⊆ u.columns
  updates_subset : u.updates ⊆ u.columns
  covered : ∀ column ∈ u.columns, column ∈ u.target ∨ column ∈ u.updates

/-- What a tuple leaves in the target. -/
def key (u : Upsertion) (st : Storage ω) (tuple : List Written) : List (Option ω) :=
  u.target.map (st.given u.columns tuple)

/-- What the rows hold in the target. -/
def keys (u : Upsertion) (table : List (Row ω)) : List (List (Option ω)) :=
  table.map fun row => u.target.map row

/-- What a tuple makes of a row that is there. -/
def revise (u : Upsertion) (st : Storage ω) (row : Row ω) (tuple : List Written) : Row ω :=
  if u.key st tuple = u.target.map row then overwrite u.updates (st.given u.columns tuple) row
  else row

variable {u : Upsertion} {st : Storage ω} {table : List (Row ω)} {row : Row ω}
  {tuple : List Written}

omit [DecidableEq ω] in
/-- Rows agree on a target without NULL when they have the same cells there. -/
theorem agree_iff {target : List String} {a b : Row ω} (h : none ∉ target.map a) :
    Agree target a b ↔ target.map a = target.map b := by
  rw [List.map_inj_left]
  refine forall₂_congr fun column hcolumn => and_iff_right fun hnone => h ?_
  exact List.mem_map.2 ⟨column, hcolumn, hnone⟩

omit [DecidableEq ω] in
/-- Whether rows agree is seen from what they hold in the target. -/
theorem unique_iff :
    Unique u.target table ↔ (u.keys table).Pairwise fun a b => none ∈ a ∨ a ≠ b := by
  rw [Unique, keys, List.pairwise_map]
  refine List.Pairwise.iff fun a b => ?_
  by_cases hnone : none ∈ u.target.map a
  · obtain ⟨column, hcolumn, hnull⟩ := List.mem_map.1 hnone
    exact iff_of_true (fun h => (h column hcolumn).1 hnull) (.inl hnone)
  · rw [agree_iff hnone, or_iff_right hnone]

/-! ### A single tuple -/

/-- A revised row keeps its target, even where columns of the target are overwritten. -/
theorem map_revise (u : Upsertion) (st : Storage ω) (row : Row ω) (tuple : List Written) :
    u.target.map (u.revise st row tuple) = u.target.map row := by
  rw [revise]
  split
  · rename_i hkey
    rw [key, List.map_inj_left] at hkey
    refine List.map_congr_left fun column hcolumn => ?_
    rw [overwrite]
    split
    · exact hkey column hcolumn
    · rfl
  · rfl

/-- A tuple with another key leaves the row as it is. -/
theorem revise_of_ne (h : u.key st tuple ≠ u.target.map row) : u.revise st row tuple = row :=
  if_neg h

/-- A column that is not updated keeps its cell. -/
theorem revise_of_not_mem {column : String} (h : column ∉ u.updates) :
    u.revise st row tuple column = row column := by
  rw [revise]
  split
  · exact if_neg h
  · rfl

/-- A revised row holds the tuple. -/
theorem revise_holds (hu : u.IsFull) (h : u.key st tuple = u.target.map row) {column : String}
    (hcolumn : column ∈ u.columns) :
    u.revise st row tuple column = st.given u.columns tuple column := by
  rw [revise, if_pos h, overwrite]
  split
  · rfl
  · rename_i hupdates
    have htarget := (hu.covered column hcolumn).resolve_right hupdates
    exact (List.map_inj_left.1 h column htarget).symm

omit [DecidableEq ω] in
/-- The row that a tuple asks for has its target. -/
theorem map_row (hu : u.IsFull) (st : Storage ω) (tuple : List Written) (table : List (Row ω)) :
    u.target.map (st.row u.columns tuple table) = u.key st tuple :=
  List.map_congr_left fun _ hcolumn => if_pos (hu.target_subset hcolumn)

/-- **A tuple with a whole target revises the rows that have it,** or else is appended. -/
theorem put_eq (hu : u.IsFull) (hkey : none ∉ u.key st tuple) (table : List (Row ω)) :
    u.put st table tuple =
      if u.key st tuple ∈ u.keys table then table.map fun row => u.revise st row tuple
      else table ++ [st.row u.columns tuple table] := by
  have hgiven : ∀ column ∈ u.columns,
      st.row u.columns tuple table column = st.given u.columns tuple column :=
    fun column hcolumn => if_pos hcolumn
  -- Without NULL in the key, agreeing on the target is having the key.
  have hagree : ∀ row, Agree u.target (st.row u.columns tuple table) row ↔
      u.key st tuple = u.target.map row := fun row => by
    rw [← map_row hu st tuple table] at hkey ⊢
    exact agree_iff hkey
  have hrevise : ∀ row, (if u.key st tuple = u.target.map row then
      overwrite u.updates (st.row u.columns tuple table) row else row) =
        u.revise st row tuple := fun row => by
    rw [revise]
    refine if_congr Iff.rfl (funext fun column => ?_) rfl
    exact ite_congr rfl (fun hcolumn => hgiven column (hu.updates_subset hcolumn)) fun _ => rfl
  have hmem : (∃ row ∈ table, u.key st tuple = u.target.map row) ↔
      u.key st tuple ∈ u.keys table := by
    simp only [keys, List.mem_map, eq_comm]
  simp only [put, hagree, hrevise]
  exact if_congr hmem rfl rfl

/-- The targets of the rows: that of the tuple joins them when it is new. -/
theorem keys_put (hu : u.IsFull) (hkey : none ∉ u.key st tuple) (table : List (Row ω)) :
    u.keys (u.put st table tuple) =
      if u.key st tuple ∈ u.keys table then u.keys table
      else u.keys table ++ [u.key st tuple] := by
  rw [put_eq hu hkey]
  split
  · rw [keys, List.map_map]
    exact List.map_congr_left fun row _ => map_revise u st row tuple
  · rw [keys, List.map_append, List.map_singleton, map_row hu]
    rfl

/-- Rows with another target stay as they are. -/
theorem mem_of_mem_put (hu : u.IsFull) (hkey : none ∉ u.key st tuple)
    (hrow : row ∈ u.put st table tuple) (hne : u.target.map row ≠ u.key st tuple) :
    row ∈ table := by
  rw [put_eq hu hkey] at hrow
  split at hrow
  · obtain ⟨old, hold, rfl⟩ := List.mem_map.1 hrow
    rw [map_revise] at hne
    rwa [revise_of_ne (Ne.symm hne)]
  · rcases List.mem_append.1 hrow with hrow | hrow
    · exact hrow
    · obtain rfl := List.mem_singleton.1 hrow
      exact absurd (map_row hu st tuple table) hne

/-- **The rows with the target of the tuple hold the tuple.** -/
theorem put_holds (hu : u.IsFull) (hkey : none ∉ u.key st tuple)
    (hrow : row ∈ u.put st table tuple) (heq : u.target.map row = u.key st tuple)
    {column : String} (hcolumn : column ∈ u.columns) :
    row column = st.given u.columns tuple column := by
  rw [put_eq hu hkey] at hrow
  split at hrow
  · obtain ⟨old, -, rfl⟩ := List.mem_map.1 hrow
    rw [map_revise] at heq
    exact revise_holds hu heq.symm hcolumn
  · rename_i hnew
    rcases List.mem_append.1 hrow with hrow | hrow
    · exact absurd (List.mem_map.2 ⟨row, hrow, heq⟩) hnew
    · obtain rfl := List.mem_singleton.1 hrow
      exact if_pos hcolumn

/-- **A tuple keeps the key of the table unique.** -/
theorem unique_put (hu : u.IsFull) (hkey : none ∉ u.key st tuple)
    (h : Unique u.target table) : Unique u.target (u.put st table tuple) := by
  rw [unique_iff] at h ⊢
  rw [keys_put hu hkey]
  split
  · exact h
  · rename_i hnew
    refine List.pairwise_append.2 ⟨h, List.pairwise_singleton _ _, fun a ha b hb => .inr ?_⟩
    rintro rfl
    exact hnew (List.mem_singleton.1 hb ▸ ha)

/-! ### All tuples -/

section Run

variable {tuples : List (List Written)}

/-- **Tuples keep the key of the table unique,** one after the other. -/
theorem unique_foldl (hu : u.IsFull) (hkeys : ∀ tuple ∈ tuples, none ∉ u.key st tuple)
    (h : Unique u.target table) : Unique u.target (tuples.foldl (u.put st) table) := by
  induction tuples generalizing table with
  | nil => exact h
  | cons tuple tuples ih =>
    rw [List.forall_mem_cons] at hkeys
    exact ih hkeys.2 (unique_put hu hkeys.1 h)

/-- The targets of the rows are the old ones and those of the tuples. -/
theorem mem_keys_foldl (hu : u.IsFull) (hkeys : ∀ tuple ∈ tuples, none ∉ u.key st tuple)
    (k : List (Option ω)) :
    k ∈ u.keys (tuples.foldl (u.put st) table) ↔
      k ∈ u.keys table ∨ k ∈ tuples.map (u.key st) := by
  induction tuples generalizing table with
  | nil => simp
  | cons tuple tuples ih =>
    rw [List.forall_mem_cons] at hkeys
    rw [List.foldl_cons, ih hkeys.2, keys_put hu hkeys.1, List.map_cons, List.mem_cons]
    split
    · rename_i hold
      refine ⟨Or.imp_right .inr, ?_⟩
      rintro (h | rfl | h)
      · exact .inl h
      · exact .inl hold
      · exact .inr h
    · rw [List.mem_append, List.mem_singleton, or_assoc]

/-- **A row joins for every new target.** -/
theorem length_foldl (hu : u.IsFull) (hkeys : ∀ tuple ∈ tuples, none ∉ u.key st tuple) :
    (tuples.foldl (u.put st) table).length =
      table.length + ((tuples.map (u.key st)).toFinset \ (u.keys table).toFinset).card := by
  induction tuples generalizing table with
  | nil => simp
  | cons tuple tuples ih =>
    rw [List.forall_mem_cons] at hkeys
    have hkeysput := keys_put hu hkeys.1 table
    have hlength : (u.put st table tuple).length = (u.keys (u.put st table tuple)).length :=
      (List.length_map _).symm
    have hold : (u.keys table).length = table.length := List.length_map _
    rw [List.foldl_cons, ih hkeys.2, hlength, List.map_cons, List.toFinset_cons, hkeysput]
    split
    · -- A key that is there already adds no row.
      rename_i hmem
      rw [hold, Finset.insert_sdiff_of_mem _ (List.mem_toFinset.2 hmem)]
    · -- A new key is counted once, and it is among the old ones from there on.
      rename_i hnew
      have hfresh : u.key st tuple ∉ (u.keys table).toFinset :=
        fun h => hnew (List.mem_toFinset.1 h)
      have hcard := Finset.card_erase_add_one (Finset.mem_insert_self (u.key st tuple)
        ((tuples.map (u.key st)).toFinset \ (u.keys table).toFinset))
      rw [Finset.erase_insert_eq_erase] at hcard
      rw [List.length_append, List.length_singleton, hold, List.toFinset_append,
        List.toFinset_cons, List.toFinset_nil, insert_empty_eq, Finset.union_singleton,
        Finset.sdiff_insert, Finset.insert_sdiff_of_notMem _ hfresh, ← hcard]
      omega

/-- Rows with none of the targets stay as they are. -/
theorem mem_of_mem_foldl (hu : u.IsFull) (hkeys : ∀ tuple ∈ tuples, none ∉ u.key st tuple)
    (hrow : row ∈ tuples.foldl (u.put st) table)
    (hne : ∀ tuple ∈ tuples, u.target.map row ≠ u.key st tuple) : row ∈ table := by
  induction tuples generalizing table with
  | nil => exact hrow
  | cons tuple tuples ih =>
    rw [List.forall_mem_cons] at hkeys hne
    exact mem_of_mem_put hu hkeys.1 (ih hkeys.2 hrow hne.2) hne.1

/-- **The rows with the target of a tuple hold the last tuple with it.** -/
theorem foldl_holds {before after : List (List Written)} (hu : u.IsFull)
    (hkeys : ∀ other ∈ before ++ tuple :: after, none ∉ u.key st other)
    (hlast : ∀ later ∈ after, u.key st later ≠ u.key st tuple)
    (hrow : row ∈ (before ++ tuple :: after).foldl (u.put st) table)
    (heq : u.target.map row = u.key st tuple) {column : String} (hcolumn : column ∈ u.columns) :
    row column = st.given u.columns tuple column := by
  have hafter : ∀ later ∈ after, none ∉ u.key st later := fun later hlater =>
    hkeys later (List.mem_append_right _ (List.mem_cons_of_mem _ hlater))
  rw [List.foldl_append, List.foldl_cons] at hrow
  have hmem := mem_of_mem_foldl hu hafter hrow fun later hlater =>
    heq ▸ Ne.symm (hlast later hlater)
  exact put_holds hu (hkeys tuple (by simp)) hmem heq hcolumn

/-- What tuples make of a row, one after another, leaves its target and the columns that are not
listed. -/
theorem foldl_revise (u : Upsertion) (st : Storage ω) (tuples : List (List Written))
    (row : Row ω) :
    u.target.map (tuples.foldl (u.revise st) row) = u.target.map row ∧
      ∀ column ∉ u.updates, tuples.foldl (u.revise st) row column = row column := by
  induction tuples generalizing row with
  | nil => exact ⟨rfl, fun _ _ => rfl⟩
  | cons tuple tuples ih =>
    obtain ⟨htarget, hothers⟩ := ih (u.revise st row tuple)
    refine ⟨htarget.trans (map_revise u st row tuple), fun column hcolumn => ?_⟩
    exact (hothers column hcolumn).trans (revise_of_not_mem hcolumn)

/-- Tuples with other keys leave the row as it is. -/
theorem foldl_revise_of_ne (h : ∀ tuple ∈ tuples, u.key st tuple ≠ u.target.map row) :
    tuples.foldl (u.revise st) row = row := by
  induction tuples with
  | nil => rfl
  | cons tuple tuples ih =>
    rw [List.forall_mem_cons] at h
    rw [List.foldl_cons, revise_of_ne h.1, ih h.2]

/-- Tuples whose targets are all there revise the rows, each on its own. -/
theorem foldl_put_eq_map (hu : u.IsFull) (hkeys : ∀ tuple ∈ tuples, none ∉ u.key st tuple)
    (hold : ∀ tuple ∈ tuples, u.key st tuple ∈ u.keys table) :
    tuples.foldl (u.put st) table = table.map (tuples.foldl (u.revise st)) := by
  induction tuples generalizing table with
  | nil => exact (List.map_id table).symm
  | cons tuple tuples ih =>
    rw [List.forall_mem_cons] at hkeys hold
    have hput := put_eq hu hkeys.1 table
    have hsame := keys_put hu hkeys.1 table
    rw [if_pos hold.1] at hput hsame
    rw [← hsame] at hold
    rw [List.foldl_cons, ih hkeys.2 hold.2, hput, List.map_map]
    rfl

/-- **A row that holds the last tuple with its target gets nothing new** from all of them. -/
theorem foldl_revise_eq {row : Row ω}
    (hlast : ∀ before tuple after, tuples = before ++ tuple :: after →
      (∀ later ∈ after, u.key st later ≠ u.key st tuple) → u.target.map row = u.key st tuple →
        ∀ column ∈ u.updates, row column = st.given u.columns tuple column) :
    tuples.foldl (u.revise st) row = row := by
  by_cases hmeets : ∃ tuple ∈ tuples, u.key st tuple = u.target.map row
  · obtain ⟨before, tuple, after, rfl, hkey, hafter⟩ := exists_last hmeets
    have hholds := hlast before tuple after rfl (fun later hlater => hkey ▸ hafter later hlater)
      hkey.symm
    -- The tuples before it leave the target and the columns that are not listed.
    obtain ⟨htarget, hothers⟩ := foldl_revise u st before row
    have hrevised : u.revise st (before.foldl (u.revise st) row) tuple = row := by
      rw [revise, htarget, if_pos hkey]
      funext column
      rw [overwrite]
      split
      · rename_i hcolumn
        exact (hholds column hcolumn).symm
      · rename_i hcolumn
        exact hothers column hcolumn
    rw [List.foldl_append, List.foldl_cons, hrevised, foldl_revise_of_ne hafter]
  · exact foldl_revise_of_ne fun tuple htuple hkey => hmeets ⟨tuple, htuple, hkey⟩

/-- **A second run changes nothing.** -/
theorem run_run (hu : u.IsFull) (hkeys : ∀ tuple ∈ u.tuples, none ∉ u.key st tuple)
    (table : List (Row ω)) : u.run st (u.run st table) = u.run st table := by
  have hold : ∀ tuple ∈ u.tuples, u.key st tuple ∈ u.keys (u.run st table) :=
    fun tuple htuple => (mem_keys_foldl hu hkeys _).2 (.inr (List.mem_map_of_mem htuple))
  calc u.run st (u.run st table) = (u.run st table).map (u.tuples.foldl (u.revise st)) :=
        foldl_put_eq_map hu hkeys hold
    _ = (u.run st table).map id := List.map_congr_left fun row hrow => by
        refine foldl_revise_eq fun before tuple after heq hlast hkey column hcolumn => ?_
        rw [run, heq] at hrow
        rw [heq] at hkeys
        exact foldl_holds hu hkeys hlast hrow hkey (hu.updates_subset hcolumn)
    _ = u.run st table := List.map_id _

section Records

variable {α : Type} {xs : List α} {cells : α → List Written} {record : α → Row ω}

omit [DecidableEq ω] in
/-- The key of a tuple is that of its record. -/
theorem key_eq (hu : u.IsFull)
    (hrecord : ∀ x ∈ xs, ∀ column ∈ u.columns,
      st.given u.columns (cells x) column = record x column)
    {x : α} (hx : x ∈ xs) : u.key st (cells x) = u.target.map (record x) :=
  List.map_congr_left fun column hcolumn => hrecord x hx column (hu.target_subset hcolumn)

omit [DecidableEq ω] in
/-- Records with a value in every column of the target give keys without NULL. -/
theorem none_not_mem_key (hu : u.IsFull) (htuples : u.tuples = xs.map cells)
    (hrecord : ∀ x ∈ xs, ∀ column ∈ u.columns,
      st.given u.columns (cells x) column = record x column)
    (hvalues : ∀ x ∈ xs, ∀ column ∈ u.target, record x column ≠ none) :
    ∀ tuple ∈ u.tuples, none ∉ u.key st tuple := by
  rw [htuples, List.forall_mem_map]
  intro x hx hnone
  rw [key_eq hu hrecord hx] at hnone
  obtain ⟨column, hcolumn, hnull⟩ := List.mem_map.1 hnone
  exact hvalues x hx column hcolumn hnull

/-- **What a run leaves** when every tuple writes a record that is not null in the target. -/
theorem settled_run (hu : u.IsFull) (htuples : u.tuples = xs.map cells)
    (hrecord : ∀ x ∈ xs, ∀ column ∈ u.columns,
      st.given u.columns (cells x) column = record x column)
    (hvalues : ∀ x ∈ xs, ∀ column ∈ u.target, record x column ≠ none)
    (h : Unique u.target table) :
    Settled u.target u.columns (xs.map record) table (u.run st table) := by
  have hkeys := none_not_mem_key hu htuples hrecord hvalues
  have hmap : u.tuples.map (u.key st) = (xs.map record).map fun row => u.target.map row := by
    rw [htuples, List.map_map, List.map_map]
    exact List.map_congr_left fun x hx => key_eq hu hrecord hx
  refine ⟨unique_foldl hu hkeys h, ?_, ?_⟩
  · rw [← hmap]
    exact length_foldl hu hkeys
  · -- The last record with a key decides: later tuples have other keys and leave its row as it is.
    intro before row after heq hlast
    obtain ⟨front, rest, rfl, rfl, hrest⟩ := List.map_eq_append_iff.1 heq
    obtain ⟨x, back, rfl, rfl, rfl⟩ := List.map_eq_cons_iff.1 hrest
    have hx : x ∈ front ++ x :: back := by simp
    rw [← key_eq hu hrecord hx]
    refine ⟨?_, fun row hrow hsame column hcolumn => ?_⟩
    · have hmem : u.key st (cells x) ∈ u.keys (u.run st table) :=
        (mem_keys_foldl hu hkeys _).2 (.inr (by rw [htuples]; simp))
      exact List.mem_map.1 hmem
    · rw [List.map_append, List.map_cons] at htuples
      rw [htuples] at hkeys
      rw [run, htuples] at hrow
      rw [← hrecord x hx column hcolumn]
      refine foldl_holds hu hkeys ?_ hrow hsame hcolumn
      rw [List.forall_mem_map] at hlast ⊢
      intro later hlater
      rw [key_eq hu hrecord (by simp [hlater]), key_eq hu hrecord hx]
      exact hlast later hlater

end Records

end Run

end Upsertion
end Sql
end Querysmith
