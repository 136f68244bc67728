/-
# What a run sends

A run of the engine compiles its statements and sends them.  `Sends` ties a run to the statements
that are compiled for it: when there are none the run fails and nothing is sent, and otherwise a run
that fails has sent something, and on a backend that answers every call the run succeeds and has
sent exactly these statements in order.  Every operation of the engine sends what the compiler
yields for it, a read the selection and the count behind it.
-/

import Querysmith.Proofs.Engine.Overlap
import Querysmith.Proofs.Engine.Reading

namespace Querysmith

/-- The text and the values of a call. -/
def Call.content (c : Call) : String × List SqlValue := (c.sql, c.params)

/-- The text and the values of a statement. -/
def Statement.content (q : Statement) : String × List SqlValue := (q.sql, q.params)

/-- A backend that answers every call. -/
structure Backend.Answers {σ : Type} (b : Backend σ) : Prop where
  query : ∀ database sql params, ∃ rows, (b.query database sql params).1.outcome = .ok rows
  execute : ∀ database sql params, ∃ n, (b.execute database sql params).1.outcome = .ok n

namespace Engine

variable {σ ε ε' α β : Type} (e : Engine σ)

/-- **What a run sends** when these statements are compiled for it. -/
def Sends (s : Session σ) (r : ExceptT ε (StateM (Session σ)) α) :
    Except ε' (List Statement) → Prop
  | .error _ => ∃ err s', r.run s = (.error err, s') ∧ s'.calls = s.calls
  | .ok statements =>
    (∀ err s', r.run s = (.error err, s') → s'.calls ≠ s.calls) ∧
    (e.backend.Answers → ∃ a s', r.run s = (.ok a, s') ∧
      s'.calls.map (·.content) = s.calls.map (·.content) ++ statements.map (·.content))

variable {e} {s : Session σ}

namespace Sends

/-- A step that leaves the calls as they are. -/
theorem of_step {r : ExceptT ε (StateM (Session σ)) α} {s' : Session σ}
    {k : α → ExceptT ε (StateM (Session σ)) β} {a : α} {x : Except ε' (List Statement)}
    (hr : r.run s = (.ok a, s')) (hcalls : s'.calls = s.calls) (h : e.Sends s' (k a) x) :
    e.Sends s (r >>= k) x := by
  have hrun : (r >>= k).run s = (k a).run s' := by
    rw [Run.run_bind, hr]
  cases x with
  | error err =>
    obtain ⟨err', s'', hk, hsame⟩ := h
    exact ⟨err', s'', hrun.trans hk, hsame.trans hcalls⟩
  | ok statements =>
    obtain ⟨hfails, hanswered⟩ := h
    refine ⟨fun err s'' hk => ?_, fun hanswers => ?_⟩
    · rw [← hcalls]
      exact hfails err s'' (hrun.symm.trans hk)
    · obtain ⟨b, s'', hk, hsent⟩ := hanswered hanswers
      rw [hcalls] at hsent
      exact ⟨b, s'', hrun.trans hk, hsent⟩

/-- What is noted on the way is no call. -/
theorem note {event : Event} {k : Unit → Run σ α} {x : Except ε' (List Statement)}
    (h : ∀ s : Session σ, e.Sends s (k ()) x) : e.Sends s (Engine.note event >>= k) x :=
  of_step (Run.Ends.note event s) rfl (h _)

/-- Events that are noted send nothing. -/
theorem noteAll {events : List Event} {k : Unit → Run σ α} {x : Except ε' (List Statement)}
    (h : ∀ s : Session σ, e.Sends s (k ()) x) : e.Sends s (Engine.noteAll events >>= k) x := by
  have hrun : (Engine.noteAll events).run s =
      (.ok (), { s with events := s.events ++ events }) := rfl
  exact of_step hrun rfl (h _)

/-- What is compiled on the way decides whether the run goes on. -/
theorem settle {p : Except Error β} {k : β → Run σ α} {x : β → Except Error (List Statement)}
    (h : ∀ b, p = .ok b → e.Sends s (k b) (x b)) : e.Sends s (Engine.settle p >>= k) (p >>= x) := by
  cases p with
  | error err => exact ⟨err, s, (Run.Ends.settle _ rfl s).bind_error, rfl⟩
  | ok b => exact of_step (Run.Ends.settle _ rfl s) rfl (h b rfl)

/-- A result that is computed from that of a run. -/
theorem map {r : ExceptT ε (StateM (Session σ)) α} {x : Except ε' (List Statement)}
    (h : e.Sends s r x) (g : α → β) : e.Sends s (r >>= fun a => pure (g a)) x := by
  cases x with
  | error err =>
    obtain ⟨err', s', hr, hsame⟩ := h
    exact ⟨err', s', by rw [Run.run_bind, hr], hsame⟩
  | ok statements =>
    obtain ⟨hfails, hanswered⟩ := h
    refine ⟨fun err s' hrun => ?_, fun hanswers => ?_⟩
    · rw [Run.run_bind] at hrun
      rcases hr : r.run s with ⟨a | err', s''⟩
      · rw [hr] at hrun
        obtain ⟨-, rfl⟩ := Prod.mk.inj hrun
        exact hfails _ _ hr
      · rw [hr] at hrun
        cases hrun
    · obtain ⟨a, s', hr, hsent⟩ := hanswered hanswers
      exact ⟨g a, s', by rw [Run.run_bind, hr]; rfl, hsent⟩

/-- Which error a compilation ends with does not matter. -/
theorem congr {ε'' : Type} {r : ExceptT ε (StateM (Session σ)) α} {x : Except ε' (List Statement)}
    {x' : Except ε'' (List Statement)} (h : e.Sends s r x)
    (hx : ∀ statements, x = .ok statements ↔ x' = .ok statements) : e.Sends s r x' := by
  cases x with
  | ok statements =>
    rw [(hx statements).1 rfl]
    exact h
  | error err =>
    cases x' with
    | ok statements => cases (hx statements).2 rfl
    | error err' => exact h

/-- A run that never fails. -/
theorem of_ok {r : Run σ α} {a : α} {s' : Session σ} {statements : List Statement}
    (hends : r.Ends s (.ok a) s')
    (hsent : s'.calls.map (·.content) =
      s.calls.map (·.content) ++ statements.map (·.content)) :
    e.Sends s r (Except.ok statements : Except ε' _) := by
  refine ⟨fun err s'' hfails => ?_, fun _ => ⟨a, s', hends, hsent⟩⟩
  cases hends.symm.trans hfails

/-- A run that fails when it has sent something. -/
theorem of_error {r : Run σ α} {err : Error} {s' : Session σ} {statements : List Statement}
    (hends : r.Ends s (.error err) s') (hcalls : s'.calls ≠ s.calls)
    (hrefuses : ¬e.backend.Answers) : e.Sends s r (Except.ok statements : Except ε' _) := by
  refine ⟨fun err' s'' hfails => ?_, fun hanswers => absurd hanswers hrefuses⟩
  obtain ⟨-, rfl⟩ := Prod.mk.inj (hends.symm.trans hfails)
  exact hcalls

end Sends

/-! ### Reading -/

/-- A backend that fails a statement does not answer all of them. -/
theorem not_answers_of_reply {database : σ} {q : Statement} {err : Error}
    (h : e.reply database q = .error err) : ¬e.backend.Answers := by
  intro hanswers
  obtain ⟨rows, hrows⟩ := hanswers.query database q.sql q.params
  rw [reply, hrows] at h
  cases h

/-- A run that has sent a further call. -/
theorem calls_ne_of_append {s' : Session σ} {calls : List Call} (h : s'.calls = s.calls ++ calls)
    (hne : calls ≠ []) : s'.calls ≠ s.calls := by
  rw [h]
  exact fun hsame => hne (List.append_right_eq_self.1 hsame)

/-- A selection is sent, and the count behind it. -/
theorem select_sends (table : String) (f : Filter) (order : SortOrder)
    (softDelete : Option String) (page : Option Page) :
    e.Sends s (e.select table f order softDelete page) (do
      let q ← e.compiler.select table f order softDelete page
      let n ← e.compiler.count table f softDelete
      return [q, n]) := by
  cases hselect : e.compiler.select table f order softDelete page with
  | error err => exact ⟨err, s, select_ends_of_uncompiled hselect, rfl⟩
  | ok q =>
    obtain ⟨n, hcount, -⟩ := Compiler.exists_count_of_select hselect
    rw [hcount]
    cases hreply : e.reply s.database q with
    | error err =>
      obtain ⟨s', hends, hcalls⟩ := select_ends_of_failed hselect hreply
      exact Sends.of_error hends (calls_ne_of_append hcalls (List.cons_ne_nil _ _))
        (not_answers_of_reply hreply)
    | ok rows =>
      obtain ⟨_, s', -, hends, hcalls⟩ := select_ends_of_answered hselect hcount hreply
      refine Sends.of_ok hends ?_
      rw [hcalls, List.map_append]
      rfl

/-- A count sends itself. -/
theorem count_sends (table : String) (f : Filter) (softDelete : Option String) :
    e.Sends s (e.count table f softDelete) (do
      let n ← e.compiler.count table f softDelete
      return [n]) := by
  cases hcount : e.compiler.count table f softDelete with
  | error err => exact ⟨err, s, (Run.Ends.settle _ hcount s).bind_error, rfl⟩
  | ok n =>
    obtain ⟨_, s', -, hends, hcalls⟩ := count_ends hcount s
    refine Sends.of_ok hends ?_
    rw [hcalls, List.map_append]
    rfl

/-- A caller's own statement is sent as it is. -/
theorem runQuery_sends (sql : String) (params : List Json) :
    e.Sends s (e.runQuery sql params)
      (Except.ok [.raw sql (params.map .ofJson)] : Except ε' _) := by
  cases hreply : e.reply s.database (.raw sql (params.map .ofJson)) with
  | error err =>
    obtain ⟨s', hends, hcalls⟩ := read_ends_error hreply
    exact Sends.of_error hends (calls_ne_of_append hcalls (List.cons_ne_nil _ _))
      (not_answers_of_reply hreply)
  | ok rows =>
    obtain ⟨s', hends, hcalls, -⟩ := read_ends_ok hreply
    refine Sends.of_ok hends ?_
    rw [hcalls, List.map_append]
    rfl

/-! ### Writing -/

/-- A removal is sent. -/
theorem remove_sends (table : String) (f : Filter) (softDelete : Option String) :
    e.Sends s (e.remove table f softDelete) (do
      let q ← e.compiler.delete table f softDelete
      return [q]) := by
  refine Sends.settle fun q _ => Sends.note fun s => ?_
  cases houtcome : (e.backend.execute s.database q.sql q.params).1.outcome with
  | error err =>
    refine Sends.of_error (Run.Ends.await houtcome).bind_error ?_ fun hanswers => ?_
    · exact calls_ne_of_append rfl (List.cons_ne_nil _ _)
    · obtain ⟨n, hn⟩ := hanswers.execute s.database q.sql q.params
      cases houtcome.symm.trans hn
  | ok n =>
    refine Sends.of_ok ((Run.Ends.await houtcome).bind
      ((Run.Ends.note _ _).bind (Run.Ends.pure _ _))) ?_
    exact List.map_append

/-- A backend that answers every call answers the chunks of a write. -/
theorem exists_answers (h : e.backend.Answers) (database : σ) (statements : List Statement) :
    ∃ rows : List (List Record), e.answers database statements = rows.map .ok := by
  have houtcome : ∀ database q, ∃ rows, e.writeOutcome database q = .ok rows := by
    intro database q
    rw [writeOutcome]
    split
    · exact h.query database q.sql q.params
    · obtain ⟨n, hn⟩ := h.execute database q.sql q.params
      exact ⟨[], by rw [hn]; rfl⟩
  induction statements generalizing database with
  | nil => exact ⟨[], rfl⟩
  | cons q statements ih =>
    obtain ⟨rows, hrows⟩ := houtcome database q
    obtain ⟨rest, hrest⟩ := ih (e.behindWrite database q)
    exact ⟨rows :: rest, by rw [answers, hrows, hrest]; rfl⟩

/-- A failure among the answers tells that the backend does not answer every call. -/
theorem not_answers_of_mem {database : σ} {statements : List Statement} {err : Error}
    (h : .error err ∈ e.answers database statements) : ¬e.backend.Answers := by
  intro hanswers
  obtain ⟨rows, hrows⟩ := exists_answers hanswers database statements
  rw [hrows, List.mem_map] at h
  obtain ⟨r, -, hr⟩ := h
  cases hr

/-- A write sends the statements of its plan. -/
theorem write_sends (table : String) (plan : WritePlan) :
    e.Sends s (e.write table plan) (Except.ok plan.statements : Except ε' _) := by
  have hsent {s' : Session σ} (hcalls : s'.calls = s.calls ++ plan.statements.map (·.writeCall)) :
      s'.calls.map (·.content) =
        s.calls.map (·.content) ++ plan.statements.map (·.content) := by
    rw [hcalls, List.map_append, List.map_map]
    rfl
  -- One after another, the first failure ends the write; at once, the flight lands with every row
  -- or with a failure.
  cases hmode : e.config.sequentialChunks with
  | true =>
    obtain ⟨rows, hrows⟩ | ⟨before, q, after, err, rows, hstatements, hrows⟩ :=
      answers_cases (e := e) s.database plan.statements
    · obtain ⟨s₁, hends, hcalls⟩ := writeInOrder_ends_ok hrows
      obtain ⟨s₂, hwrite, hsame, -⟩ := write_ends_of_inOrder table hends
      rw [withSequentialChunks_eq_self hmode] at hwrite
      exact .of_ok hwrite (hsent (hsame.trans hcalls))
    · obtain ⟨s₁, hends, hcalls⟩ := writeInOrder_ends_error hrows after
      rw [← hstatements] at hends
      obtain ⟨s₂, hwrite, hsame, -⟩ := write_ends_of_inOrder table hends
      rw [withSequentialChunks_eq_self hmode] at hwrite
      have herr : .error err ∈ e.answers s.database (before ++ [q]) := by
        rw [hrows]
        exact List.mem_append_right _ List.mem_cons_self
      refine .of_error hwrite ?_ (not_answers_of_mem herr)
      exact calls_ne_of_append (hsame.trans hcalls) (by simp)
  | false =>
    obtain ⟨outcome, s₁, f, hends, hreaches, hlands, htells⟩ :=
      writeAtOnce_lands (e := e) s plan.statements
    obtain ⟨s₂, hwrite, hsame, -⟩ := write_ends_of_atOnce table hends
    rw [withSequentialChunks_eq_self hmode] at hwrite
    cases outcome with
    | ok rows => exact .of_ok hwrite (hsent (hsame.trans (hlands.calls_eq hreaches)))
    | error err =>
      refine .of_error hwrite ?_ (not_answers_of_mem htells)
      rw [hsame]
      exact hlands.calls_ne hreaches

/-- An insert sends the statements of its plan. -/
theorem insert_sends (table : String) (data : Json) (spec : ConstraintSpec) :
    e.Sends s (e.insert table data spec) (do
      let rows ← RowSet.ofJson data
      return (← e.compiler.insert table rows).statements) := by
  refine Sends.settle fun rows _ => ?_
  have hplan (s : Session σ) : e.Sends s (do
      let plan ← Engine.settle (e.compiler.insert table rows)
      Engine.noteAll (Event.ofInsert e.compiler rows plan)
      e.write table plan) (do return (← e.compiler.insert table rows).statements) :=
    Sends.settle fun plan _ => Sends.noteAll fun s => write_sends table plan
  by_cases hspec : spec.entries.isEmpty
  · rw [if_pos hspec]
    exact hplan s
  · rw [if_neg hspec]
    exact Sends.note hplan

/-- An upsert sends the statements of its plan. -/
theorem upsert_sends (table : String) (data : Json) (spec : ConstraintSpec) :
    e.Sends s (e.upsert table data spec) (do
      let rows ← RowSet.ofJson data
      return (← e.compiler.upsert table rows spec).statements) := by
  refine Sends.settle fun rows _ => ?_
  rw [Compiler.upsert, bind_assoc]
  refine Sends.settle fun chunks _ => Sends.noteAll fun s => ?_
  rw [bind_assoc]
  exact Sends.settle fun statements _ => write_sends table ⟨statements, rows.rows.length⟩

end Engine
end Querysmith
