/-
# Chunks that overlap

The chunks of a write at once are sent in record order, but the database may get to them, and their
answers may arrive, in any order.  This is a system of three steps (`Flight.Step`):

| step | the chunk |
| --- | --- |
| `send` | leaves the queue and becomes a call |
| `answer` | is worked on by the database, which goes to its next state |
| `arrive` | is answered well, and its rows are there |

A flight lands with the rows of all chunks in record order, or with a failure that arrives
(`Flight.Lands`).  Each step keeps that the calls are those of the statements that have left the
queue (`Flight.Reaches.sendsInOrder`), and a single chunk is where its step has taken it
(`Flight.Single`), so that it lands with the backend's answer to it.
-/

import Mathlib.Data.List.Perm.Basic
import Mathlib.Logic.Relation
import Querysmith.Proofs.Engine.Writing

namespace Querysmith
namespace Engine

/-- A write at once on its way.  A call is known by its place among the calls. -/
structure Flight (σ : Type) where
  session : Session σ
  /-- The statements that are not sent, in record order. -/
  waiting : List Statement
  /-- The calls that the database has not got to. -/
  sent : List (Nat × Statement) := []
  /-- The calls with their answers, which have not arrived. -/
  answered : List (Nat × Except Error (List Record)) := []
  /-- The calls with the rows that have arrived. -/
  arrived : List (Nat × List Record) := []

namespace Flight

variable {σ : Type} {e : Engine σ}

/-- What can happen next. -/
inductive Step (e : Engine σ) : Flight σ → Flight σ → Prop
  | send {s : Session σ} {q : Statement} {waiting sent answered arrived} :
    Step e ⟨s, q :: waiting, sent, answered, arrived⟩
      ⟨s.asked q, waiting, (s.calls.length, q) :: sent, answered, arrived⟩
  | answer {s : Session σ} {q : Statement} {place waiting sent sent' answered arrived}
    (h : sent.Perm ((place, q) :: sent')) :
    Step e ⟨s, waiting, sent, answered, arrived⟩
      ⟨s.moved (e.behindWrite s.database q), waiting, sent',
        (place, e.writeOutcome s.database q) :: answered, arrived⟩
  | arrive {s : Session σ} {place rows waiting sent answered answered' arrived}
    (h : answered.Perm ((place, .ok rows) :: answered')) :
    Step e ⟨s, waiting, sent, answered, arrived⟩
      ⟨s.ended [place], waiting, sent, answered', (place, rows) :: arrived⟩

/-- What can happen from a flight on. -/
def Reaches (e : Engine σ) : Flight σ → Flight σ → Prop := Relation.ReflTransGen (Step e)

/-- **How a flight lands:** with the rows of all chunks, in the order of their calls, or with a
failure that arrives. -/
inductive Lands : Flight σ → Except Error (List (List Record)) → Session σ → Prop
  | rows {s : Session σ} {arrived inOrder : List (Nat × List Record)}
    (h : arrived.Perm inOrder) (hsorted : inOrder.Pairwise (·.1 < ·.1)) :
    Lands ⟨s, [], [], [], arrived⟩ (.ok (inOrder.map (·.2))) s
  | failure {s : Session σ} {place err waiting sent answered arrived}
    (h : (place, .error err) ∈ answered) :
    Lands ⟨s, waiting, sent, answered, arrived⟩ (.error err) (s.ended [place])

/-- Every chunk is sent and answered, and no answer is a failure. -/
structure Succeeds (f : Flight σ) : Prop where
  waiting : f.waiting = []
  sent : f.sent = []
  answered : ∀ place err, (place, .error err) ∉ f.answered

/-- A flight lands with rows when every chunk succeeds, and with a failure when one fails. -/
theorem Lands.exists_ok_iff {f : Flight σ} {outcome : Except Error (List (List Record))}
    {s : Session σ} (h : f.Lands outcome s) : (∃ rows, outcome = .ok rows) ↔ f.Succeeds := by
  cases h with
  | rows => exact ⟨fun _ => ⟨rfl, rfl, fun _ _ => List.not_mem_nil⟩, fun _ => ⟨_, rfl⟩⟩
  | failure h =>
    constructor
    · rintro ⟨rows, hrows⟩
      cases hrows
    · exact fun hall => absurd h (hall.answered _ _)

/-! ### What is sent -/

/-- The calls are those of the statements that have left the queue. -/
def SendsInOrder (s : Session σ) (statements : List Statement) (f : Flight σ) : Prop :=
  ∃ before, statements = before ++ f.waiting ∧
    f.session.calls = s.calls ++ before.map (·.writeCall)

/-- A step sends the next statement or none. -/
theorem SendsInOrder.step {s : Session σ} {statements : List Statement} {f f' : Flight σ}
    (h : SendsInOrder s statements f) (hstep : Step e f f') : SendsInOrder s statements f' := by
  obtain ⟨before, hstatements, hcalls⟩ := h
  cases hstep with
  | @send s' q =>
    refine ⟨before ++ [q], hstatements.trans (List.append_cons ..), ?_⟩
    rw [List.map_append, ← List.append_assoc, ← hcalls]
    rfl
  | answer => exact ⟨before, hstatements, hcalls⟩
  | arrive => exact ⟨before, hstatements, hcalls⟩

/-- **No statement is sent twice, and none is passed over,** however the chunks overlap. -/
theorem Reaches.sendsInOrder {s : Session σ} {statements : List Statement} {f : Flight σ}
    (h : Reaches e ⟨s, statements, [], [], []⟩ f) : SendsInOrder s statements f := by
  induction h with
  | refl => exact ⟨[], rfl, (List.append_nil _).symm⟩
  | tail _ hstep ih => exact ih.step hstep

/-- A flight has not begun, or it has sent something. -/
theorem Reaches.eq_or_calls_lt {s : Session σ} {statements : List Statement} {f : Flight σ}
    (h : Reaches e ⟨s, statements, [], [], []⟩ f) :
    f = ⟨s, statements, [], [], []⟩ ∨ s.calls.length < f.session.calls.length := by
  induction h with
  | refl => exact .inl rfl
  | tail _ hstep ih =>
    rcases ih with rfl | hlt
    · cases hstep with
      | send => exact .inr (by rw [Session.asked, List.length_append]; exact Nat.lt_succ_self _)
      | answer h => cases h.nil_eq
      | arrive h => cases h.nil_eq
    · cases hstep with
      | send => exact .inr (by rw [Session.asked, List.length_append]; exact Nat.lt_succ_of_lt hlt)
      | answer => exact .inr hlt
      | arrive => exact .inr hlt

/-! ### A single chunk -/

/-- How far a single chunk can be. -/
inductive Single (e : Engine σ) (s : Session σ) (q : Statement) : Flight σ → Prop
  | waiting : Single e s q ⟨s, [q], [], [], []⟩
  | sent : Single e s q ⟨s.asked q, [], [(s.calls.length, q)], [], []⟩
  | answered {s' : Session σ} :
    Single e s q ⟨s', [], [], [(s.calls.length, e.writeOutcome s.database q)], []⟩
  | arrived {s' : Session σ} {rows : List Record} (h : e.writeOutcome s.database q = .ok rows) :
    Single e s q ⟨s', [], [], [], [(s.calls.length, rows)]⟩

/-- One statement takes one step after another: it is sent, answered, and arrives or fails. -/
theorem Single.step {s : Session σ} {q : Statement} {f f' : Flight σ} (h : Single e s q f)
    (hstep : Step e f f') : Single e s q f' := by
  cases h with
  | waiting =>
    -- At each stage one kind of step is possible, since there is one statement to take it.
    cases hstep with
    | send => exact .sent
    | answer h => cases h.nil_eq
    | arrive h => cases h.nil_eq
  | sent =>
    cases hstep with
    | answer h =>
      cases List.singleton_perm.1 h
      exact .answered
    | arrive h => cases h.nil_eq
  | answered =>
    cases hstep with
    | answer h => cases h.nil_eq
    | arrive h =>
      obtain ⟨hanswer, rfl⟩ := List.cons.inj (List.singleton_perm.1 h)
      obtain ⟨rfl, hrows⟩ := Prod.mk.inj hanswer
      exact .arrived hrows
  | arrived =>
    cases hstep with
    | answer h => cases h.nil_eq
    | arrive h => cases h.nil_eq

/-- A flight of one statement reaches nothing but those steps. -/
theorem Reaches.single {s : Session σ} {q : Statement} {f : Flight σ}
    (h : Reaches e ⟨s, [q], [], [], []⟩ f) : Single e s q f := by
  induction h with
  | refl => exact .waiting
  | tail _ hstep ih => exact ih.step hstep

/-- **A single chunk has one outcome,** the backend's answer to it. -/
theorem Single.outcome_eq {s s' : Session σ} {q : Statement} {f : Flight σ}
    {outcome : Except Error (List (List Record))} (h : Single e s q f)
    (hlands : f.Lands outcome s') : outcome = (e.writeOutcome s.database q).map ([·]) := by
  cases h with
  | waiting =>
    -- The flight lands with rows when everything has arrived, or with a failure that was answered.
    cases hlands with
    | failure h => cases h
  | sent =>
    cases hlands with
    | failure h => cases h
  | answered =>
    cases hlands with
    | failure h =>
      have hanswer := (Prod.mk.inj (List.mem_singleton.1 h)).2
      rw [← hanswer]
      rfl
  | arrived hrows =>
    cases hlands with
    | rows hperm =>
      obtain rfl := List.singleton_perm.1 hperm
      rw [hrows]
      rfl
    | failure h => cases h

/-! ### Arriving in any order -/

/-- The answer of a call that brings rows. -/
def goodAnswer (arrival : Nat × List Record) : Nat × Except Error (List Record) :=
  (arrival.1, .ok arrival.2)

/-- Answers without a failure arrive in any order. -/
theorem reaches_arrive {answered rest : List (Nat × Except Error (List Record))}
    {order : List (Nat × List Record)}
    (h : answered.Perm (order.map goodAnswer ++ rest)) (s : Session σ)
    (waiting : List Statement) (arrived : List (Nat × List Record)) :
    ∃ rest', rest'.Perm rest ∧ Reaches e ⟨s, waiting, [], answered, arrived⟩
      ⟨s.ended (order.map (·.1)), waiting, [], rest', order.reverse ++ arrived⟩ := by
  induction order generalizing s answered arrived with
  | nil =>
    refine ⟨answered, h, ?_⟩
    rw [List.map_nil, Session.ended, List.append_nil]
    exact .refl
  | cons first order ih =>
    obtain ⟨rest', hrest, hreaches⟩ := ih (.refl _) (s.ended [first.1]) (first :: arrived)
    refine ⟨rest', hrest, .head (.arrive h) ?_⟩
    rw [Session.ended_ended] at hreaches
    rw [List.reverse_cons, List.append_assoc]
    exact hreaches

/-- What is sent can be answered before anything else happens. -/
theorem reaches_answer (s : Session σ) (q : Statement) (waiting : List Statement)
    (answered : List (Nat × Except Error (List Record))) :
    Reaches e ⟨s, q :: waiting, [], answered, []⟩
      ⟨(s.asked q).moved (e.behindWrite s.database q), waiting, [],
        (s.calls.length, e.writeOutcome s.database q) :: answered, []⟩ :=
  .tail (.single .send) (.answer (.refl _))

/-! ### Landing -/

/-- A flight that lands with rows has sent every statement. -/
theorem Lands.calls_eq {s s' : Session σ} {statements : List Statement} {f : Flight σ}
    {rows : List (List Record)} (h : Reaches e ⟨s, statements, [], [], []⟩ f)
    (hlands : f.Lands (.ok rows) s') : s'.calls = s.calls ++ statements.map (·.writeCall) := by
  obtain ⟨before, hbefore, hcalls⟩ := h.sendsInOrder
  cases hlands with
  | rows =>
    rw [hbefore, List.append_nil]
    exact hcalls

/-- A flight that lands with a failure has sent something. -/
theorem Lands.calls_ne {s s' : Session σ} {statements : List Statement} {f : Flight σ}
    {err : Error} (h : Reaches e ⟨s, statements, [], [], []⟩ f)
    (hlands : f.Lands (.error err) s') : s'.calls ≠ s.calls := by
  intro hsame
  obtain rfl | hlt := h.eq_or_calls_lt
  · cases hlands with
    | failure herr => cases herr
  · cases hlands with
    | failure =>
      rw [← hsame] at hlt
      exact Nat.lt_irrefl _ hlt

end Flight
end Engine
end Querysmith
