/-
# Renderings of fragments

A reader of statements sees every piece as a run of its own items, characters or tokens, and counts
the holes.  What it sees of a fragment is what it sees of the pieces, one after another
(`render_append`), and of joined fragments the fragments with the separator between them
(`render_joined`).

Such a run can be read together with the bound values, a placeholder as the value that it numbers.
A fragment reads as something where it stands (`ReadsAs`): the values bound before it belong to the
pieces before it, so its placeholders find its own values, and what is bound behind does not matter.
-/

import Querysmith.Proofs.Fragment.Legible
import Querysmith.Proofs.Lists

namespace Querysmith

/-- What a reader sees of every kind of piece; a hole has a number. -/
structure Rendering (β : Type) where
  text : String → List β
  name : String → List β
  hole : Nat → Option String → List β

namespace Fragment

variable {β γ ι : Type} {r : Rendering β}

/-- What a reader sees of a fragment that stands behind `bound` bound values. -/
def render (r : Rendering β) (bound : Nat) : Fragment → List β
  | [] => []
  | .text s :: f => r.text s ++ render r bound f
  | .name s :: f => r.name s ++ render r bound f
  | .hole _ cast :: f => r.hole (bound + 1) cast ++ render r (bound + 1) f

/-- **Rendering goes on behind a fragment,** with the number of values in it. -/
theorem render_append (bound : Nat) (f g : Fragment) :
    render r bound (f ++ g) = render r bound f ++ render r (bound + f.values.length) g := by
  induction f generalizing bound with
  | nil => rfl
  | cons p f ih =>
    cases p with
    | text s => simp [render, ih]
    | name s => simp [render, ih]
    | hole v cast => simp [render, ih, Nat.add_assoc, Nat.add_comm 1]

/-- What a reader sees of fragments one after another. -/
def renderList (r : Rendering β) (bound : Nat) : List Fragment → List (List β)
  | [] => []
  | f :: fs => render r bound f :: renderList r (bound + f.values.length) fs

/-- **A reader sees joined fragments** as them with the separator between two neighbours. -/
theorem render_joined (bound : Nat) (sep : String) (fs : List Fragment) :
    render r bound (joined sep fs) = (r.text sep).intercalate (renderList r bound fs) := by
  induction fs generalizing bound with
  | nil => rfl
  | cons f fs ih =>
    cases fs with
    | nil => simp [renderList, List.intercalate_singleton]
    | cons g fs =>
      rw [joined_cons_cons, render_append, render, ih]
      simp only [renderList, List.intercalate_cons_cons, List.append_assoc]

/-- Every fragment is rendered once. -/
theorem length_renderList (bound : Nat) (fs : List Fragment) :
    (renderList r bound fs).length = fs.length := by
  induction fs generalizing bound with
  | nil => rfl
  | cons f fs ih => rw [renderList, List.length_cons, ih, List.length_cons]

/-- Something is rendered where there is something. -/
theorem renderList_ne_nil {fs : List Fragment} (h : fs ≠ []) (bound : Nat) :
    renderList r bound fs ≠ [] := fun hnil =>
  h (List.length_eq_zero_iff.1 (by rw [← length_renderList (r := r) bound fs, hnil]; rfl))

/-- What a reader sees of the fragments of a list, when their values are counted by size. -/
theorem renderList_map {f : ι → Fragment} {size : ι → Nat}
    (hsize : ∀ x, (f x).values.length = size x) (bound : Nat) (xs : List ι) :
    renderList r bound (xs.map f) = counted (fun n x => render r n (f x)) size bound xs := by
  induction xs generalizing bound with
  | nil => rfl
  | cons x xs ih => rw [List.map_cons, renderList, counted, ih, hsize]

/-- What a reader sees of the fragments of a list, when it sees each of them alike wherever it
stands. -/
theorem renderList_map_const {f : ι → Fragment} {run : ι → List β}
    (h : ∀ x n, render r n (f x) = run x) (bound : Nat) (xs : List ι) :
    renderList r bound (xs.map f) = xs.map run := by
  induction xs generalizing bound with
  | nil => rfl
  | cons x xs ih => rw [List.map_cons, renderList, h, ih, List.map_cons]

/-- What is rendered in a list is one of its fragments, behind some values. -/
theorem exists_of_mem_renderList {bound : Nat} {fs : List Fragment} {run : List β}
    (h : run ∈ renderList r bound fs) : ∃ f ∈ fs, ∃ k, run = render r k f := by
  induction fs generalizing bound with
  | nil => cases h
  | cons f fs ih =>
    rcases List.mem_cons.1 h with rfl | h
    · exact ⟨f, List.mem_cons_self, bound, rfl⟩
    · obtain ⟨g, hg, hrun⟩ := ih h
      exact ⟨g, List.mem_cons_of_mem f hg, hrun⟩

/-- Whatever is bound before and after it, the fragment reads as `c`. -/
def ReadsAs (r : Rendering β) (read : List SqlValue → List β → Option γ) (f : Fragment) (c : γ) :
    Prop :=
  ∀ before after, read (before ++ f.values ++ after) (render r before.length f) = some c

/-- **Fragments one after another read one by one.** -/
theorem ReadsAs.mapM {read : List SqlValue → List β → Option γ} {f : ι → Fragment} {c : ι → γ}
    {xs : List ι} (h : ∀ x ∈ xs, ReadsAs r read (f x) (c x)) (before after : List SqlValue) :
    (renderList r before.length (xs.map f)).mapM
      (read (before ++ xs.flatMap (fun x => (f x).values) ++ after)) = some (xs.map c) := by
  induction xs generalizing before with
  | nil => rfl
  | cons x xs ih =>
    rw [List.forall_mem_cons] at h
    have hhead := h.1 before (xs.flatMap (fun x => (f x).values) ++ after)
    have htail := ih h.2 (before ++ (f x).values)
    rw [List.length_append] at htail
    simp only [List.flatMap_cons, ← List.append_assoc] at hhead ⊢
    rw [List.map_cons, renderList, List.mapM_cons, hhead, htail]
    rfl

end Fragment
end Querysmith
