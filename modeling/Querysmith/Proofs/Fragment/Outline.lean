/-
# Outlines

The outline of a fragment is what is left when the values in its holes are forgotten: the texts, the
names, and where a hole stands with which cast.  The text of a fragment and the number of its values
depend on its outline alone (`sql_outline`), so fragments of the same outline are written alike
whatever they bind.
-/

import Mathlib.Data.List.Forall2
import Querysmith.Statement

namespace Querysmith

/-- The piece without its value. -/
def Piece.outline : Piece → Piece
  | .hole _ cast => .hole .null cast
  | p => p

namespace Fragment

/-- The fragment without its values. -/
def outline (f : Fragment) : Fragment :=
  f.map Piece.outline

/-- The fragments differ in the values of their holes only. -/
def SameOutline (f g : Fragment) : Prop :=
  f.outline = g.outline

/-- **What is written does not depend on the values in the holes.** -/
theorem sql_outline (d : Dialect) (bound : Nat) (f : Fragment) :
    f.outline.sql d bound = f.sql d bound := by
  rw [sql, sql]
  induction f generalizing bound with
  | nil => rfl
  | cons p f ih =>
    have hwrite : ∀ acc bound, write d acc bound (outline f) = write d acc bound f := by
      intro acc bound
      rw [write_eq, write_eq d acc, sql, sql, ih]
    cases p with
    | text s => exact hwrite _ _
    | name s => exact hwrite _ _
    | hole v cast => exact hwrite _ _

/-- An outline has a place for every value. -/
theorem length_values_outline (f : Fragment) : f.outline.values.length = f.values.length := by
  induction f with
  | nil => rfl
  | cons p f ih =>
    cases p with
    | text s => exact ih
    | name s => exact ih
    | hole v cast => exact congrArg (· + 1) ih

namespace SameOutline

variable {f f' g g' : Fragment}

/-- A fragment has the outline of itself. -/
theorem refl (f : Fragment) : SameOutline f f :=
  rfl

/-- Fragments of one outline stay so with others behind them. -/
theorem append (hf : SameOutline f g) (hf' : SameOutline f' g') :
    SameOutline (f ++ f') (g ++ g') := by
  rw [SameOutline, outline, outline, List.map_append, List.map_append]
  exact congrArg₂ (· ++ ·) hf hf'

/-- A piece in front that both fragments share. -/
theorem cons (p : Piece) (h : SameOutline f g) : SameOutline (p :: f) (p :: g) :=
  congrArg (p.outline :: ·) h

/-- Holes with the same cast. -/
theorem hole (v w : SqlValue) (cast : Option String) :
    SameOutline [.hole v cast] [.hole w cast] :=
  rfl

/-- Parts of the same outlines with a text between two neighbours. -/
theorem joined (sep : String) {fs gs : List Fragment} (h : List.Forall₂ SameOutline fs gs) :
    SameOutline (Fragment.joined sep fs) (Fragment.joined sep gs) := by
  rw [Fragment.joined, Fragment.joined]
  induction h with
  | nil => exact refl []
  | cons hhead htail ih =>
    cases htail with
    | nil =>
      rw [List.intercalate_singleton, List.intercalate_singleton]
      exact hhead
    | cons _ _ =>
      rw [List.intercalate_cons_cons, List.intercalate_cons_cons]
      exact (hhead.append (refl _)).append ih

/-- Two fragments of one outline are empty together. -/
theorem isEmpty_eq (h : SameOutline f g) : f.isEmpty = g.isEmpty := by
  simpa [outline] using congrArg List.isEmpty h

/-- Parts of the same outlines are left out together where they are empty. -/
theorem filter_isEmpty {fs gs : List Fragment} (h : List.Forall₂ SameOutline fs gs) :
    List.Forall₂ SameOutline (fs.filter (!·.isEmpty)) (gs.filter (!·.isEmpty)) := by
  induction h with
  | nil => exact .nil
  | @cons f g _ _ hhead _ ih =>
    rw [List.filter_cons, List.filter_cons, hhead.isEmpty_eq]
    split
    · exact .cons hhead ih
    · exact ih

/-- **Fragments of one outline are written alike.** -/
theorem sql_eq (h : SameOutline f g) (d : Dialect) (bound : Nat) :
    f.sql d bound = g.sql d bound := by
  rw [← sql_outline, h, sql_outline]

/-- Fragments of one outline bind equally many values. -/
theorem length_values_eq (h : SameOutline f g) : f.values.length = g.values.length := by
  rw [← length_values_outline, h, length_values_outline]

end SameOutline
end Fragment

/-- The statements have the same text, bind the same number of values, and both yield rows or
both do not. -/
def Statement.SameText (s t : Statement) : Prop :=
  s.sql = t.sql ∧ s.params.length = t.params.length ∧ s.returnsRows = t.returnsRows

/-- Fragments of the same outline are written as statements of the same text. -/
theorem Fragment.SameOutline.sameText {f g : Fragment} (h : f.SameOutline g) (d : Dialect)
    (returnsRows : Bool) :
    (Statement.ofFragment d f returnsRows).SameText (.ofFragment d g returnsRows) :=
  ⟨h.sql_eq d 0, h.length_values_eq, rfl⟩

end Querysmith
