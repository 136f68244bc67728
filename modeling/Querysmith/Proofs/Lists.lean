/-
# Lists of parts

What reading back rests on: parts with something around each of them and something between two
neighbours can be grouped the other way, no part is longer than the whole, and reading a list
succeeds when reading every element does.  Parts that count on from each other (`counted`) are
described by what one of them is behind any number.
-/

import Mathlib.Data.List.Forall2
import Mathlib.Data.List.TakeWhile

namespace Querysmith

variable {α β γ : Type}

/-- What can be checked of one member after the other holds of all. -/
theorem forall_mem_of_all {p : α → Prop} [DecidablePred p] {xs : List α}
    (h : xs.all (fun x => decide (p x)) = true) : ∀ x ∈ xs, p x := by
  simpa using h

/-- The last member with a property. -/
theorem exists_last {p : α → Prop} {xs : List α} (h : ∃ x ∈ xs, p x) :
    ∃ before x after, xs = before ++ x :: after ∧ p x ∧ ∀ y ∈ after, ¬p y := by
  induction xs with
  | nil =>
    obtain ⟨x, hx, -⟩ := h
    cases hx
  | cons x xs ih =>
    by_cases hrest : ∃ y ∈ xs, p y
    · obtain ⟨before, y, after, rfl, hy, hafter⟩ := ih hrest
      exact ⟨x :: before, y, after, rfl, hy, hafter⟩
    · refine ⟨[], x, xs, rfl, ?_, fun y hy hp => hrest ⟨y, hy, hp⟩⟩
      obtain ⟨y, hy, hp⟩ := h
      rcases List.mem_cons.1 hy with rfl | hy
      · exact hp
      · exact absurd ⟨y, hy, hp⟩ hrest

/-- Wrapped parts with a separator between them, from the first wrapper to the last. -/
theorem intercalate_wrapped (before after sep : List α) {parts : List (List α)}
    (hne : parts ≠ []) :
    sep.intercalate (parts.map fun part => before ++ part ++ after) =
      before ++ (after ++ sep ++ before).intercalate parts ++ after := by
  induction parts with
  | nil => exact absurd rfl hne
  | cons part rest ih =>
    cases rest with
    | nil => simp [List.intercalate_singleton]
    | cons q rest =>
      have hrest := ih (List.cons_ne_nil q rest)
      rw [List.map_cons] at hrest
      rw [List.map_cons, List.map_cons, List.intercalate_cons_cons, List.intercalate_cons_cons,
        hrest]
      simp only [List.append_assoc]

/-- A part is no longer than all parts together. -/
theorem length_le_intercalate (sep : List α) {parts : List (List α)} {part : List α}
    (h : part ∈ parts) : part.length ≤ (sep.intercalate parts).length := by
  induction parts with
  | nil => cases h
  | cons q rest ih =>
    cases rest with
    | nil => simp_all [List.intercalate_singleton]
    | cons q' rest =>
      rw [List.intercalate_cons_cons, List.length_append, List.length_append]
      rcases List.mem_cons.1 h with rfl | h
      · omega
      · have := ih h
        omega

/-- What holds of the separator and of all parts holds of the whole. -/
theorem forall_mem_intercalate {p : α → Prop} {sep : List α} (hsep : ∀ x ∈ sep, p x)
    {parts : List (List α)} (h : ∀ part ∈ parts, ∀ x ∈ part, p x) :
    ∀ x ∈ sep.intercalate parts, p x := by
  induction parts with
  | nil => simp
  | cons part rest ih =>
    rw [List.forall_mem_cons] at h
    cases rest with
    | nil => rw [List.intercalate_singleton]; exact h.1
    | cons q rest =>
      rw [List.intercalate_cons_cons, List.forall_mem_append, List.forall_mem_append]
      exact ⟨⟨h.1, hsep⟩, ih h.2⟩

/-- Between two neighbours stands a separator. -/
theorem length_le_length_intercalate (sep : α) (parts : List (List α)) :
    parts.length ≤ ([sep].intercalate parts).length + 1 := by
  induction parts with
  | nil => simp
  | cons part rest ih =>
    cases rest with
    | nil => simp
    | cons q rest =>
      rw [List.intercalate_cons_cons]
      simp only [List.length_append, List.length_cons, List.length_nil] at ih ⊢
      omega

/-- Lists of at most so many elements have at most as many together. -/
theorem length_flatMap_le {f : α → List β} {most : Nat} {xs : List α}
    (h : ∀ x ∈ xs, (f x).length ≤ most) : (xs.flatMap f).length ≤ xs.length * most := by
  induction xs with
  | nil => exact Nat.zero_le _
  | cons x xs ih =>
    rw [List.forall_mem_cons] at h
    have hrest := ih h.2
    rw [List.flatMap_cons, List.length_append, List.length_cons, Nat.add_mul, Nat.one_mul]
    omega

/-- Reading succeeds on a list when it does on every element. -/
theorem mapM_eq_some {f : α → Option β} {g : α → β} {xs : List α} (h : ∀ x ∈ xs, f x = some (g x)) :
    xs.mapM f = some (xs.map g) := by
  induction xs with
  | nil => rfl
  | cons x xs ih =>
    rw [List.forall_mem_cons] at h
    rw [List.mapM_cons, h.1, ih h.2]
    rfl

/-- What every element gives behind the elements before it, each of which counts for its size. -/
def counted (f : Nat → α → β) (size : α → Nat) : Nat → List α → List β
  | _, [] => []
  | n, x :: xs => f n x :: counted f size (n + size x) xs

/-- Related parts give related lists. -/
theorem forall₂_counted {R : β → γ → Prop} {f : Nat → α → β} {g : Nat → α → γ} {size : α → Nat}
    {xs : List α} (h : ∀ x ∈ xs, ∀ n, R (f n x) (g n x)) (n : Nat) :
    List.Forall₂ R (counted f size n xs) (counted g size n xs) := by
  induction xs generalizing n with
  | nil => exact .nil
  | cons x xs ih =>
    rw [List.forall_mem_cons] at h
    exact .cons (h.1 n) (ih h.2 _)

/-- Lists of the same length, when any two elements are related. -/
theorem forall₂_of_length_eq {R : α → β → Prop} (h : ∀ x y, R x y) {xs : List α} {ys : List β}
    (hlength : xs.length = ys.length) : List.Forall₂ R xs ys :=
  List.forall₂_iff_get.2 ⟨hlength, fun _ _ _ => h _ _⟩

/-- A map behind the count is a map of what every element gives. -/
theorem map_counted (φ : β → γ) (f : Nat → α → β) (size : α → Nat) (n : Nat) (xs : List α) :
    (counted f size n xs).map φ = counted (fun n x => φ (f n x)) size n xs := by
  induction xs generalizing n with
  | nil => rfl
  | cons x xs ih => rw [counted, List.map_cons, ih, counted]

/-- What holds of every element's part at any count holds of all the parts. -/
theorem forall_mem_counted_of {f : Nat → α → β} {s : α → Nat} {p : β → Prop} {xs : List α}
    (h : ∀ x ∈ xs, ∀ n, p (f n x)) (n : Nat) : ∀ y ∈ counted f s n xs, p y := by
  induction xs generalizing n with
  | nil => simp [counted]
  | cons x xs ih =>
    rw [List.forall_mem_cons] at h
    rw [counted, List.forall_mem_cons]
    exact ⟨h.1 n, ih h.2 _⟩

/-- A property of the parts that does not see the count is one of the elements. -/
theorem forall_mem_counted {f : Nat → α → β} {s : α → Nat} {p : β → Prop} {q : α → Prop}
    (h : ∀ n x, p (f n x) ↔ q x) (n : Nat) (xs : List α) :
    (∀ y ∈ counted f s n xs, p y) ↔ ∀ x ∈ xs, q x := by
  induction xs generalizing n with
  | nil => simp [counted]
  | cons x xs ih => rw [counted, List.forall_mem_cons, List.forall_mem_cons, h, ih]

/-- A part has a property that does not see the count when an element has it. -/
theorem exists_mem_counted {f : Nat → α → β} {s : α → Nat} {p : β → Prop} {q : α → Prop}
    (h : ∀ n x, p (f n x) ↔ q x) (n : Nat) (xs : List α) :
    (∃ y ∈ counted f s n xs, p y) ↔ ∃ x ∈ xs, q x := by
  have hnot := forall_mem_counted (p := fun y => ¬p y) (s := s) (fun n x => not_congr (h n x)) n xs
  simpa using not_congr hnot

/-- Parts are read with the values that their elements bring, each behind those before it. -/
theorem map_counted_values {ν : Type} {f : Nat → α → β} {size : α → Nat} {v : α → List ν}
    {r : List ν → β → γ} {g : α → γ} {xs : List α}
    (hsize : ∀ x ∈ xs, size x = (v x).length)
    (h : ∀ x ∈ xs, ∀ before after, r (before ++ v x ++ after) (f before.length x) = g x)
    (before after : List ν) :
    (counted f size before.length xs).map (r (before ++ xs.flatMap v ++ after)) =
      xs.map g := by
  induction xs generalizing before with
  | nil => rfl
  | cons x xs ih =>
    rw [List.forall_mem_cons] at h hsize
    have hhead := h.1 before (xs.flatMap v ++ after)
    have htail := ih hsize.2 h.2 (before ++ v x)
    rw [List.length_append, ← hsize.1] at htail
    simp only [List.flatMap_cons, ← List.append_assoc] at hhead ⊢
    rw [counted, List.map_cons, List.map_cons, hhead, htail]

/-- Runs that each count on from where the one before has stopped are one run. -/
theorem flatMap_counted {ν : Type} {f : Nat → α → β} {v : α → List ν} {run : β → List γ}
    {φ : Nat → γ} (h : ∀ n x, run (f n x) = (List.range' (n + 1) (v x).length).map φ) (n : Nat)
    (xs : List α) :
    (counted f (fun x => (v x).length) n xs).flatMap run =
      (List.range' (n + 1) (xs.flatMap v).length).map φ := by
  induction xs generalizing n with
  | nil => rfl
  | cons x xs ih =>
    rw [counted, List.flatMap_cons, ih, h, List.flatMap_cons, List.length_append,
      ← List.map_append, Nat.add_right_comm, List.range'_append_1]

/-- The run of one kind that a list begins with ends where another kind begins. -/
theorem run_of_head? {p : α → Bool} {xs : List α} (h : xs.head?.any p = true) :
    xs.takeWhile p ≠ [] ∧ (∀ x ∈ xs.takeWhile p, p x = true) ∧
      (xs.dropWhile p).head?.any p = false := by
  refine ⟨?_, fun x => List.mem_takeWhile_imp, ?_⟩
  · cases xs with
    | nil => cases h
    | cons x xs => simp_all
  · have hnot := List.head?_dropWhile_not p xs
    cases hhead : (xs.dropWhile p).head? with
    | none => rfl
    | some x => simpa [hhead] using hnot

end Querysmith
