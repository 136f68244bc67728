/-
# Legible fragments

A statement is written piece after piece without anything in between, so a reader of the text has to
find where a piece ends.  It can when the fixed texts hold none of the characters that begin a name
or a placeholder, and when what follows a piece cannot be taken for a part of it: a name or a
placeholder is followed by a text, a placeholder by one that begins with a separator, and between
two texts there is a separator (`Meets`).  Both together are `Legible`, which is built up along a
fragment: `Legible.append_text`, `Legible.text_cons`, `Legible.joined`.
-/

import Querysmith.Fragment
import Mathlib.Data.List.Chain

namespace Querysmith

/-- A character that ends whatever stands before it. -/
def isSeparator (c : Char) : Bool := c = ' ' || c = ',' || c = '(' || c = ')'

/-- The text begins with a separator. -/
def opens (s : String) : Bool := s.toList.head?.any isSeparator

/-- The text ends with a separator. -/
def closes (s : String) : Bool := s.toList.getLast?.any isSeparator

/-- The character begins no quote and no placeholder. -/
def isPlainChar (c : Char) : Bool := c != '"' && c != '\'' && c != '$' && c != '?'

/-- The text holds no quote and no sign of a placeholder. -/
def isPlain (s : String) : Bool := s.toList.all isPlainChar

/-- Two plain texts are plain together. -/
theorem isPlain_append {s t : String} (hs : isPlain s = true) (ht : isPlain t = true) :
    isPlain (s ++ t) = true := by
  rw [isPlain, String.toList_append, List.all_append, Bool.and_eq_true]
  exact ⟨hs, ht⟩

/-- Four characters are separators. -/
theorem isSeparator_iff {c : Char} :
    isSeparator c = true ↔ c = ' ' ∨ c = ',' ∨ c = '(' ∨ c = ')' := by
  simp [isSeparator, or_assoc]

/-- A text that opens with a separator has one in front. -/
theorem exists_cons_of_opens {s : String} (hs : opens s = true) :
    ∃ c cs, s.toList = c :: cs ∧ isSeparator c = true := by
  rw [opens] at hs
  cases h : s.toList with
  | nil => simp [h] at hs
  | cons c cs => exact ⟨c, cs, rfl, by simpa [h] using hs⟩

/-- What begins with a separator begins with it whatever is added. -/
theorem opens_append {s : String} (hs : opens s = true) (t : String) : opens (s ++ t) = true := by
  obtain ⟨c, cs, hcs, hc⟩ := exists_cons_of_opens hs
  simpa [opens, hcs] using hc

/-- What ends with a separator ends with it whatever stands before. -/
theorem closes_append (s : String) {t : String} (ht : closes t = true) :
    closes (s ++ t) = true := by
  rw [closes] at ht ⊢
  rw [String.toList_append, List.getLast?_append]
  cases h : t.toList.getLast? with
  | none => simp [h] at ht
  | some c => simpa [h] using ht

/-- The second piece cannot be taken for a part of the first. -/
def Meets : Piece → Piece → Prop
  | .text s, .text t => closes s = true ∨ opens t = true
  | .text _, _ => True
  | .name _, .text s => s ≠ ""
  | .hole _ _, .text s => opens s = true
  | _, _ => False

/-- The text of a piece is plain, and its cast is one of the targets. -/
def Piece.IsPlain (targets : List String) : Piece → Prop
  | .text s => isPlain s = true
  | .name _ => True
  | .hole _ cast => ∀ target ∈ cast, target ∈ targets

namespace Fragment

/-- The names of a fragment in reading order. -/
def names (f : Fragment) : List String :=
  f.filterMap fun
    | .name s => some s
    | _ => none

@[simp] theorem names_nil : names [] = [] := rfl

/-- A text brings no name. -/
@[simp] theorem names_text (s : String) (f : Fragment) : names (.text s :: f) = names f := rfl

/-- A name is in its place. -/
@[simp] theorem names_name (s : String) (f : Fragment) : names (.name s :: f) = s :: names f := rfl

/-- A hole brings no name. -/
@[simp] theorem names_hole (v : SqlValue) (cast : Option String) (f : Fragment) :
    names (.hole v cast :: f) = names f := rfl

/-- The names of two fragments stand in order. -/
@[simp] theorem names_append (f g : Fragment) : names (f ++ g) = names f ++ names g :=
  List.filterMap_append

@[simp] theorem values_nil : values [] = [] := rfl

/-- A text binds nothing. -/
@[simp] theorem values_text (s : String) (f : Fragment) : values (.text s :: f) = values f := rfl

/-- A name binds nothing. -/
@[simp] theorem values_name (s : String) (f : Fragment) : values (.name s :: f) = values f := rfl

/-- A hole binds its value. -/
@[simp] theorem values_hole (v : SqlValue) (cast : Option String) (f : Fragment) :
    values (.hole v cast :: f) = v :: values f := rfl

/-- A single part has no separator. -/
@[simp] theorem joined_singleton (sep : String) (f : Fragment) : joined sep [f] = f :=
  List.intercalate_singleton

/-- Between two parts stands the separator. -/
@[simp] theorem joined_cons_cons (sep : String) (f g : Fragment) (fs : List Fragment) :
    joined sep (f :: g :: fs) = f ++ .text sep :: joined sep (g :: fs) := by
  rw [joined, List.intercalate_cons_cons, List.append_assoc]
  rfl

/-- The pieces of joined fragments. -/
theorem mem_joined {sep : String} {fs : List Fragment} {p : Piece} (h : p ∈ joined sep fs) :
    p = .text sep ∨ ∃ f ∈ fs, p ∈ f := by
  induction fs with
  | nil => cases h
  | cons f fs ih =>
    cases fs with
    | nil => exact .inr ⟨f, List.mem_cons_self, by simpa using h⟩
    | cons g fs =>
      rw [joined_cons_cons, List.mem_append, List.mem_cons] at h
      rcases h with h | h | h
      · exact .inr ⟨f, List.mem_cons_self, h⟩
      · exact .inl h
      · obtain hsep | ⟨f', hf', hp⟩ := ih h
        · exact .inl hsep
        · exact .inr ⟨f', List.mem_cons_of_mem f hf', hp⟩

/-- **A view that passes over texts sees the parts of a joined fragment.** -/
theorem filterMap_joined {β : Type} {view : Piece → Option β} (hview : ∀ s, view (.text s) = none)
    (sep : String) (fs : List Fragment) :
    (joined sep fs).filterMap view = fs.flatMap (·.filterMap view) := by
  induction fs with
  | nil => rfl
  | cons f fs ih =>
    cases fs with
    | nil => simp
    | cons g fs =>
      rw [joined_cons_cons, List.filterMap_append, List.filterMap_cons_none (hview sep), ih,
        ← List.flatMap_cons]

/-- The separator of joined fragments brings no name. -/
theorem names_joined (sep : String) (fs : List Fragment) :
    names (joined sep fs) = fs.flatMap names :=
  filterMap_joined (fun _ => rfl) sep fs

/-- The separator of joined fragments binds nothing. -/
theorem values_joined (sep : String) (fs : List Fragment) :
    values (joined sep fs) = fs.flatMap values :=
  filterMap_joined (fun _ => rfl) sep fs

/-- A reader can tell the pieces apart; every cast is one of the targets. -/
structure Legible (targets : List String) (f : Fragment) : Prop where
  plain : ∀ p ∈ f, p.IsPlain targets
  spaced : f.IsChain Meets

namespace Legible

variable {targets : List String} {f g : Fragment} {s : String}

/-- Nothing is legible. -/
theorem nil : Legible targets [] := ⟨by simp, .nil⟩

/-- A name is legible alone. -/
theorem name (s : String) : Legible targets [.name s] := ⟨by simp [Piece.IsPlain], .singleton _⟩

/-- A plain text is legible alone. -/
theorem text (hs : isPlain s = true) : Legible targets [.text s] :=
  ⟨by simpa [Piece.IsPlain] using hs, .singleton _⟩

/-- A hole is legible alone, if its cast is one of the targets. -/
theorem hole (v : SqlValue) {cast : Option String} (h : ∀ target ∈ cast, target ∈ targets) :
    Legible targets [.hole v cast] :=
  ⟨by simpa [Piece.IsPlain] using h, .singleton _⟩

/-- A fragment behind another one, when the last piece of that one and the first of this one can be
told apart. -/
theorem append (hf : Legible targets f) (hg : Legible targets g)
    (h : ∀ p ∈ f.getLast?, ∀ q ∈ g.head?, Meets p q) : Legible targets (f ++ g) := by
  refine ⟨fun p hp => ?_, List.isChain_append.2 ⟨hf.spaced, hg.spaced, h⟩⟩
  rcases List.mem_append.1 hp with hp | hp
  · exact hf.plain p hp
  · exact hg.plain p hp

/-- The part of a fragment behind its first piece. -/
theorem tail {p : Piece} (h : Legible targets (p :: f)) : Legible targets f :=
  ⟨fun q hq => h.plain q (List.mem_cons_of_mem p hq), h.spaced.tail⟩

/-- A text that begins with a separator can follow everything. -/
theorem append_text (hf : Legible targets f) (hs : opens s = true)
    (hg : Legible targets (.text s :: g)) : Legible targets (f ++ .text s :: g) := by
  refine hf.append hg ?_
  intro p _ q hq
  obtain rfl : Piece.text s = q := by simpa using hq
  cases p with
  | text t => exact Or.inr hs
  | name t => rintro rfl; simp [opens] at hs
  | hole v cast => exact hs

/-- A text that ends with a separator can be followed by everything. -/
theorem text_cons (hs : isPlain s = true) (hc : closes s = true) (hg : Legible targets g) :
    Legible targets (.text s :: g) := by
  refine (text hs).append hg ?_
  intro p hp q _
  obtain rfl : Piece.text s = p := by simpa using hp
  cases q with
  | text t => exact Or.inl hc
  | name t => trivial
  | hole v cast => trivial

/-- Any text can be followed by a name. -/
theorem text_name (hs : isPlain s = true) {n : String} (hg : Legible targets (.name n :: g)) :
    Legible targets (.text s :: .name n :: g) := by
  refine (text hs).append hg ?_
  intro p hp q hq
  obtain rfl : Piece.text s = p := by simpa using hp
  obtain rfl : Piece.name n = q := by simpa using hq
  trivial

/-- **Legible parts with a separating text between them are legible together.** -/
theorem joined {sep : String} (hp : isPlain sep = true) (ho : opens sep = true)
    (hc : closes sep = true) {fs : List Fragment} (h : ∀ f ∈ fs, Legible targets f) :
    Legible targets (Fragment.joined sep fs) := by
  induction fs with
  | nil => exact nil
  | cons f fs ih =>
    have hf := h f List.mem_cons_self
    have hfs := ih fun g hg => h g (List.mem_cons_of_mem f hg)
    cases fs with
    | nil => simpa using hf
    | cons g fs =>
      rw [joined_cons_cons]
      exact hf.append_text ho (text_cons hp hc hfs)

end Legible
end Fragment
end Querysmith
