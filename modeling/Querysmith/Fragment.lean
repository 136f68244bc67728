/-
# SQL fragments

The text of a statement before it is written: pieces of fixed text, names that are still to be
quoted, and holes that hold the values to bind.  Writing a fragment numbers its holes in reading
order, so the numbers of the placeholders and the order of the bound values agree whatever the
statement looks like, and a fragment that stands behind others only counts on from them
(`sql_append`).
-/

import Querysmith.Dialect
import Querysmith.Value

namespace Querysmith

/-- A piece of a statement. -/
inductive Piece where
  /-- Text written as it is. -/
  | text (s : String)
  /-- A name, written between the quotes of the dialect. -/
  | name (s : String)
  /-- A bound value, written as its placeholder, perhaps with a cast. -/
  | hole (v : SqlValue) (cast : Option String)
  deriving DecidableEq, Repr

/-- Pieces in reading order. -/
abbrev Fragment := List Piece

namespace Fragment

/-- Appends the text of a fragment to what is written, counting holes on from `bound`. -/
def write (d : Dialect) (acc : String) (bound : Nat) : Fragment → String
  | [] => acc
  | .text s :: rest => write d (acc ++ s) bound rest
  | .name s :: rest => write d (acc ++ d.quoteIdentifier s) bound rest
  | .hole _ cast :: rest => write d (acc ++ d.castPlaceholder (bound + 1) cast) (bound + 1) rest

/-- The SQL text of a fragment that stands behind `bound` bound values. -/
def sql (d : Dialect) (bound : Nat) (f : Fragment) : String :=
  write d "" bound f

/-- The bound values in reading order. -/
def values (f : Fragment) : List SqlValue :=
  f.filterMap fun
    | .hole v _ => some v
    | _ => none

/-- What a fragment binds is what its parts bind. -/
@[simp] theorem values_append (f g : Fragment) : values (f ++ g) = values f ++ values g :=
  List.filterMap_append

/-- Writing goes on where the part before has stopped, in the text and in the numbers. -/
theorem write_append (d : Dialect) (acc : String) (bound : Nat) (f g : Fragment) :
    write d acc bound (f ++ g) = write d (write d acc bound f) (bound + (values f).length) g := by
  induction f generalizing acc bound with
  | nil => rfl
  | cons p f ih =>
    cases p with
    | text s => exact ih _ _
    | name s => exact ih _ _
    | hole v cast =>
      rw [List.cons_append, write, write, ih]
      simp only [values, List.filterMap_cons, List.length_cons]
      rw [Nat.add_right_comm, Nat.add_assoc]

/-- What is written already is never looked at. -/
theorem write_eq (d : Dialect) (acc : String) (bound : Nat) (f : Fragment) :
    write d acc bound f = acc ++ sql d bound f := by
  induction f generalizing acc bound with
  | nil => simp [sql, write]
  | cons p f ih =>
    cases p <;> simp only [sql, write] <;> rw [ih, ih ("" ++ _)] <;> simp [String.append_assoc]

/-- **The text of a fragment is the text of its parts,** the second one counting on from the values
of the first. -/
theorem sql_append (d : Dialect) (bound : Nat) (f g : Fragment) :
    sql d bound (f ++ g) = sql d bound f ++ sql d (bound + (values f).length) g := by
  rw [sql, write_append, write_eq]
  rfl

/-- Fragments one after another with a text between two neighbours. -/
def joined (sep : String) (fs : List Fragment) : Fragment :=
  List.intercalate [.text sep] fs

/-- The placeholders of the holes of a fragment. -/
def placeholders (d : Dialect) (bound : Nat) (f : Fragment) : List String :=
  (f.filterMap fun
    | .hole _ cast => some cast
    | _ => none).zipIdx.map fun (cast, i) => d.castPlaceholder (bound + i + 1) cast

end Fragment
end Querysmith
