/-
# Two runs that agree

What two programs have in common when they are given different values: they stop at the same error,
or they both succeed with related results (`Agree`).  A program agrees with itself, and agreement is
kept by sequences and by lists of programs, so two statements are compared part by part along the
way they are built.
-/

import Mathlib.Data.List.Forall2
import Querysmith.Error

namespace Querysmith

variable {α β γ δ : Type} {R : α → β → Prop} {S : γ → δ → Prop}

/-- The programs end in the same error, or in related values. -/
inductive Agree (R : α → β → Prop) : Except Error α → Except Error β → Prop where
  | error (e : Error) : Agree R (.error e) (.error e)
  | ok {a : α} {b : β} (h : R a b) : Agree R (.ok a) (.ok b)

namespace Agree

variable {p : Except Error α} {q : Except Error β}

/-- Results that agree are related. -/
theorem of_ok {a : α} {b : β} (h : Agree R (.ok a) (.ok b)) : R a b := by
  cases h
  assumption

/-- Two values that agree do so as outcomes. -/
theorem pure {a : α} {b : β} (h : R a b) : Agree R (Pure.pure a) (Pure.pure b) :=
  .ok h

/-- **Sequences agree** when their first parts do, and their second parts on related values. -/
theorem bind {f : α → Except Error γ} {g : β → Except Error δ} (h : Agree R p q)
    (hfg : ∀ a b, R a b → Agree S (f a) (g b)) : Agree S (p >>= f) (q >>= g) := by
  cases h with
  | error e => exact .error e
  | ok h => exact hfg _ _ h

/-- A part that both programs share. -/
theorem bind_same (p : Except Error α) {f : α → Except Error γ} {g : α → Except Error δ}
    (hfg : ∀ a, Agree S (f a) (g a)) : Agree S (p >>= f) (p >>= g) := by
  cases p with
  | error e => exact .error e
  | ok a => exact hfg a

/-- Results that are computed from those of two programs. -/
theorem map {f : α → γ} {g : β → δ} (h : Agree R p q) (hfg : ∀ a b, R a b → S (f a) (g b)) :
    Agree S (p.map f) (q.map g) := by
  cases h with
  | error e => exact .error e
  | ok h => exact .ok (hfg _ _ h)

/-- **Lists of programs agree** when they do one by one. -/
theorem mapM {f : α → Except Error γ} {g : β → Except Error δ} {xs : List α} {ys : List β}
    (h : List.Forall₂ (fun x y => Agree S (f x) (g y)) xs ys) :
    Agree (List.Forall₂ S) (xs.mapM f) (ys.mapM g) := by
  induction h with
  | nil => exact .ok .nil
  | cons hxy _ ih =>
    rw [List.mapM_cons, List.mapM_cons]
    exact hxy.bind fun a b hab => ih.bind fun as bs hrest => .pure (.cons hab hrest)

end Agree
end Querysmith
