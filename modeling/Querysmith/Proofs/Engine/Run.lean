/-
# How a run ends

A run of the engine takes a session to an outcome and a session, and a failure keeps what happened
before it.  A run is described by where it ends (`Run.Ends`), and how a sequence ends follows from
how its parts do.  The layers of the monad are opened for `run_bind` and `run_tryCatch` only.
-/

import Querysmith.Engine

namespace Querysmith

/-- The session with a further event. -/
def Session.noted {σ : Type} (s : Session σ) (event : Event) : Session σ :=
  { s with events := s.events ++ [event] }

namespace Run

variable {σ α β : Type}

/-- A run goes on with the result of its first part, or ends with the error of it. -/
theorem run_bind {ε : Type} (r : ExceptT ε (StateM (Session σ)) α)
    (f : α → ExceptT ε (StateM (Session σ)) β) (s : Session σ) :
    (r >>= f).run s = match r.run s with
      | (.ok a, s') => (f a).run s'
      | (.error err, s') => (.error err, s') := by
  unfold ExceptT.run
  simp only [Bind.bind, ExceptT.bind, ExceptT.mk, StateT.bind]
  cases r s with
  | mk outcome s' => cases outcome <;> rfl

/-- A rescue sees the session that the failed part has left. -/
theorem run_tryCatch (r : Run σ α) (rescue : Error → Run σ α) (s : Session σ) :
    (tryCatch r rescue).run s = match r.run s with
      | (.ok a, s') => (.ok a, s')
      | (.error err, s') => (rescue err).run s' := by
  unfold ExceptT.run
  simp only [tryCatch, tryCatchThe, MonadExceptOf.tryCatch, ExceptT.tryCatch, ExceptT.mk, Bind.bind,
    StateT.bind]
  cases r s with
  | mk outcome s' => cases outcome <;> rfl

/-- From this session the run ends with this outcome in that session. -/
def Ends (r : Run σ α) (s : Session σ) (outcome : Except Error α) (s' : Session σ) : Prop :=
  r.run s = (outcome, s')

namespace Ends

variable {r : Run σ α} {f : α → Run σ β} {s s' s'' : Session σ} {a : α} {err : Error}

/-- A run without steps leaves the session as it is. -/
theorem pure (a : α) (s : Session σ) : Ends (Pure.pure a) s (.ok a) s := rfl

/-- **A sequence goes on with the result of its first part,** from where that part ends. -/
theorem bind {outcome : Except Error β} (hr : r.Ends s (.ok a) s')
    (hf : (f a).Ends s' outcome s'') : (r >>= f).Ends s outcome s'' := by
  rw [Ends, run_bind, hr]
  exact hf

/-- **A sequence ends with the failure of its first part.** -/
theorem bind_error (hr : r.Ends s (.error err) s') : (r >>= f).Ends s (.error err) s' := by
  rw [Ends, run_bind, hr]

/-- A `return` out of a rescued block leaves it with the value that is returned. -/
theorem earlyReturn (a : α) (s : Session σ) :
    Ends (α := Except α β) (EarlyReturnT.return a : EarlyReturnT α (Run σ) β) s
      (.ok (.error a)) s := rfl

/-- A run that succeeds needs no rescue. -/
theorem tryCatch_ok {rescue : Error → Run σ α} (hr : r.Ends s (.ok a) s') :
    Ends (tryCatch r rescue) s (.ok a) s' := by
  rw [Ends, run_tryCatch, hr]

/-- A run that fails is rescued from where it fails. -/
theorem tryCatch_error {rescue : Error → Run σ α} {outcome : Except Error α}
    (hr : r.Ends s (.error err) s') (hrescue : (rescue err).Ends s' outcome s'') :
    Ends (tryCatch r rescue) s outcome s'' := by
  rw [Ends, run_tryCatch, hr]
  exact hrescue

/-- An outcome that is known already. -/
theorem settle {outcome : Except Error α} (x : Except Error α) (hx : x = outcome)
    (s : Session σ) : Ends (Engine.settle x) s outcome s := by
  subst hx
  cases x <;> rfl

/-- An event is noted and changes nothing else. -/
theorem note (event : Event) (s : Session σ) :
    Ends (Engine.note event) s (.ok ()) (s.noted event) := rfl

/-- A statement that is sent is finished before the run goes on. -/
theorem await {outcome : Except Error α} {send : Session σ → Reply α × Session σ}
    (h : (send s).1.outcome = outcome) :
    Ends (Engine.await send) s outcome
      { (send s).2 with finished := (send s).2.finished ++ [s.calls.length] } := by
  have hget : Ends MonadState.get s (.ok s) s := rfl
  exact hget.bind (bind (a := ()) rfl (settle _ h _))

end Ends
end Run
end Querysmith
