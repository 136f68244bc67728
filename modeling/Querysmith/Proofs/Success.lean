/-
# When a program succeeds

The parts of a statement are written by programs that check names on their way and stop at the first
bad one.  What such a program writes does not depend on the checks, so it is described by two
things: the condition under which it succeeds, and the value that it then has (`Yields`).  The
conditions of a sequence of programs are collected by `Yields.bind`, those of a list of programs by
`Yields.mapM`, and nothing else is ever opened.
-/

import Mathlib.Data.List.Forall2
import Querysmith.Error

namespace Querysmith

variable {α β : Type}

/-- The program succeeds exactly under the condition, and then with the value. -/
def Yields (p : Except Error α) (condition : Prop) (value : α) : Prop :=
  ∀ r, p = .ok r ↔ condition ∧ r = value

namespace Yields

/-- A program that checks nothing. -/
theorem pure (a : α) : Yields (Pure.pure a) True a := fun r => by
  constructor
  · intro h
    exact ⟨trivial, (Except.ok.inj h).symm⟩
  · rintro ⟨-, rfl⟩
    rfl

/-- **A sequence of two programs succeeds when both do.** -/
theorem bind {p : Except Error α} {f : α → Except Error β} {P Q : Prop} {a : α} {b : β}
    (hp : Yields p P a) (hf : Yields (f a) Q b) : Yields (p >>= f) (P ∧ Q) b := fun r => by
  cases h : p with
  | error e =>
    have hP : ¬P := fun hP => by simpa [h] using (hp a).2 ⟨hP, rfl⟩
    constructor
    · intro hr
      cases hr
    · rintro ⟨⟨hP', -⟩, -⟩
      exact absurd hP' hP
  | ok a' =>
    obtain ⟨hP, rfl⟩ := (hp a').1 h
    rw [show (Except.ok a' >>= f) = f a' from rfl, hf r]
    simp [hP]

/-- A value that is computed from the result of a program. -/
theorem bind_pure {p : Except Error α} {P : Prop} {a : α} (hp : Yields p P a) (g : α → β) :
    Yields (p >>= fun x => Pure.pure (g x)) P (g a) := fun r => by
  rw [(hp.bind (f := fun x => Pure.pure (g x)) (Yields.pure (g a))) r, and_true]

/-- The same condition in other words. -/
theorem congr {p : Except Error α} {P Q : Prop} {a : α} (hp : Yields p P a) (h : P ↔ Q) :
    Yields p Q a := fun r => by
  rw [hp r, h]

/-- **A list of programs succeeds when every one does.** -/
theorem mapM {f : α → Except Error β} {P : α → Prop} {g : α → β}
    (hf : ∀ x, Yields (f x) (P x) (g x)) (xs : List α) :
    Yields (xs.mapM f) (∀ x ∈ xs, P x) (xs.map g) := by
  induction xs with
  | nil => exact (Yields.pure []).congr (by simp)
  | cons x xs ih =>
    rw [List.mapM_cons]
    refine Yields.congr ((hf x).bind (ih.bind_pure fun ys => g x :: ys)) ?_
    rw [List.forall_mem_cons]

/-- What a program yields, when it does. -/
theorem eq_of_ok {p : Except Error α} {P : Prop} {a r : α} (hp : Yields p P a) (h : p = .ok r) :
    P ∧ r = a :=
  (hp r).1 h

end Yields

section

variable {ε ε' : Type} {g : ε → ε'}

/-- What follows a program that has succeeded. -/
theorem ok_bind {f : α → Except ε β} (a : α) : (Except.ok a >>= f) = f a := rfl

/-- A result has no error to map. -/
theorem mapError_pure (a : α) :
    (Pure.pure a : Except ε α).mapError g = Pure.pure a := rfl

/-- Errors are renamed step by step. -/
theorem mapError_bind (p : Except ε α) (f : α → Except ε β) :
    (p >>= f).mapError g = p.mapError g >>= fun a => (f a).mapError g := by
  cases p <;> rfl

end

/-- A sequence that succeeds succeeds in both parts. -/
theorem exists_of_bind_eq_ok {ε : Type} {p : Except ε α} {f : α → Except ε β} {r : β}
    (h : (p >>= f) = .ok r) : ∃ a, p = .ok a ∧ f a = .ok r := by
  cases p with
  | error e => cases h
  | ok a => exact ⟨a, rfl, h⟩

/-- A result that is computed from that of a program. -/
theorem exists_of_map_eq_ok {p : Except Error α} {f : α → β} {r : β} (h : p.map f = .ok r) :
    ∃ a, p = .ok a ∧ f a = r := by
  cases p with
  | error e => cases h
  | ok a => exact ⟨a, rfl, Except.ok.inj h⟩

/-- **A list of programs succeeds with the results of its programs,** one by one. -/
theorem mapM_eq_ok_iff {f : α → Except Error β} {xs : List α} {ys : List β} :
    xs.mapM f = .ok ys ↔ List.Forall₂ (fun x y => f x = .ok y) xs ys := by
  constructor
  · intro h
    induction xs generalizing ys with
    | nil =>
      obtain rfl : ys = [] := (Except.ok.inj h).symm
      exact .nil
    | cons x xs ih =>
      rw [List.mapM_cons] at h
      obtain ⟨y, hx, h⟩ := exists_of_bind_eq_ok h
      obtain ⟨rest, hxs, h⟩ := exists_of_bind_eq_ok h
      obtain rfl : ys = y :: rest := (Except.ok.inj h).symm
      exact .cons hx (ih hxs)
  · intro h
    induction h with
    | nil => rfl
    | cons hx _ ih =>
      rw [List.mapM_cons, hx, ih]
      rfl

/-- A step that no member of a list changes is made once, if there is a member. -/
theorem mapM_bind_pure {ε γ : Type} (p : Except ε α) (f : α → β → γ) {xs : List β}
    (hne : xs ≠ []) :
    xs.mapM (fun x => do return f (← p) x) = (do return xs.map (f (← p)) : Except ε (List γ)) := by
  cases p with
  | ok a => exact List.mapM_pure
  | error e =>
    cases xs with
    | nil => exact absurd rfl hne
    | cons x xs => rw [List.mapM_cons]; rfl

/-- A list of programs that succeeds has as many results as programs. -/
theorem length_of_mapM {f : α → Except Error β} {xs : List α} {ys : List β}
    (h : xs.mapM f = .ok ys) : ys.length = xs.length :=
  (mapM_eq_ok_iff.1 h).length_eq.symm

/-- A result of a list of programs comes from one of them. -/
theorem exists_of_mem_mapM {f : α → Except Error β} {xs : List α} {ys : List β}
    (h : xs.mapM f = .ok ys) {y : β} (hy : y ∈ ys) : ∃ x ∈ xs, f x = .ok y := by
  rw [mapM_eq_ok_iff] at h
  induction h with
  | nil => exact absurd hy List.not_mem_nil
  | @cons x z xs zs hx _ ih =>
    rcases List.mem_cons.1 hy with rfl | hy
    · exact ⟨x, List.mem_cons_self, hx⟩
    · obtain ⟨x', hx', hf⟩ := ih hy
      exact ⟨x', List.mem_cons_of_mem _ hx', hf⟩

/-- A list of programs that succeeds has a result of each of them. -/
theorem exists_mem_of_mapM {f : α → Except Error β} {xs : List α} {ys : List β}
    (h : xs.mapM f = .ok ys) {x : α} (hx : x ∈ xs) : ∃ y ∈ ys, f x = .ok y := by
  rw [mapM_eq_ok_iff] at h
  induction h with
  | nil => exact absurd hx List.not_mem_nil
  | @cons x' z xs zs hx' _ ih =>
    rcases List.mem_cons.1 hx with rfl | hx
    · exact ⟨z, List.mem_cons_self, hx'⟩
    · obtain ⟨y, hy, hf⟩ := ih hx
      exact ⟨y, List.mem_cons_of_mem _ hy, hf⟩

end Querysmith
