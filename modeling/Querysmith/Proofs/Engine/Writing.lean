/-
# Writing in order

A write sends one statement a chunk and answers from the rows of the chunks, in record order
(`WritePlan.result`).  One after another, the chunks are sent up to the first that fails: the write
succeeds when the backend answers all of them (`writeInOrder_ends_ok`), and otherwise it ends with
the first failure, behind which nothing is sent (`writeInOrder_ends_error`).

The rows of the chunks are looked at for one thing only, the identifier of a single record, and a
plan for a single record has a single statement (`Compiler.Plans.exists_eq_singleton`).
-/

import Querysmith.Compiler.Upsert
import Querysmith.Proofs.Success
import Querysmith.Proofs.Engine.Run

namespace Querysmith

/-- A writing statement as it is sent. -/
def Statement.writeCall (q : Statement) : Call :=
  ⟨if q.returnsRows then .query else .execute, q.sql, q.params⟩

namespace Session

variable {σ : Type} (s : Session σ)

/-- The session with a further statement sent. -/
def asked (q : Statement) : Session σ := { s with calls := s.calls ++ [q.writeCall] }

/-- The session in another state of the database. -/
def moved (database : σ) : Session σ := { s with database := database }

/-- The session with further calls finished. -/
def ended (places : List Nat) : Session σ := { s with finished := s.finished ++ places }

/-- Calls that end one after another have ended together. -/
theorem ended_ended (places places' : List Nat) :
    (s.ended places).ended places' = s.ended (places ++ places') := by
  rw [ended, ended, ended, List.append_assoc]

end Session

namespace WritePlan

/-- What a write answers from the rows of its chunks. -/
def result (plan : WritePlan) (table : String) (rows : List (List Record)) : WriteResult :=
  .saved table plan.rows
    (if plan.rows = 1 then (rows.head?.bind List.head?).bind extractId else none)

/-- A write of several records answers the same whatever rows came back. -/
theorem result_eq_of_rows_ne_one {plan : WritePlan} (h : plan.rows ≠ 1) (table : String)
    (rows rows' : List (List Record)) : plan.result table rows = plan.result table rows' := by
  rw [result, result, if_neg h, if_neg h]

end WritePlan

namespace Compiler

/-- A plan that an insert or an upsert compiles. -/
inductive Plans (c : Compiler) (plan : WritePlan) : Prop where
  | insert {table : String} {rows : RowSet} (h : c.insert table rows = .ok plan)
  | upsert {table : String} {rows : RowSet} {spec : ConstraintSpec}
    (h : c.upsert table rows spec = .ok plan)

/-- One record is one chunk. -/
theorem length_chunked_of_length_eq_one {c : Compiler} {rows : RowSet} (h : rows.rows.length = 1) :
    (c.chunked rows).length = 1 := by
  have hne : rows.rows ≠ [] := by
    rw [← List.length_pos_iff]
    omega
  have hsize : rows.rows.length ≤ c.chunkSize rows.columns.length := by
    rw [h]
    exact c.chunkSize_pos rows.columns.length
  rw [chunked, chunks_of_length_le hne hsize, List.length_singleton]

/-- An upsert writes one statement a chunk. -/
theorem length_statements_of_upsert {c : Compiler} {table : String} {rows : RowSet}
    {spec : ConstraintSpec} {plan : WritePlan} (h : c.upsert table rows spec = .ok plan) :
    plan.rows = rows.rows.length ∧ plan.statements.length = (c.chunked rows).length := by
  obtain ⟨chunks, hchunks, h⟩ := exists_of_bind_eq_ok h
  obtain ⟨statements, hstatements, h⟩ := exists_of_bind_eq_ok h
  obtain ⟨t, -, hchunks⟩ := exists_of_bind_eq_ok hchunks
  obtain rfl := Except.ok.inj h
  obtain rfl := Except.ok.inj hchunks
  exact ⟨rfl, (length_of_mapM hstatements).trans (List.length_map _)⟩

/-- An insert writes one statement a chunk. -/
theorem length_statements_of_insert {c : Compiler} {table : String} {rows : RowSet}
    {plan : WritePlan} (h : c.insert table rows = .ok plan) :
    plan.rows = rows.rows.length ∧ plan.statements.length = (c.chunked rows).length := by
  obtain ⟨t, -, h⟩ := exists_of_bind_eq_ok h
  obtain ⟨columnList, -, h⟩ := exists_of_bind_eq_ok h
  obtain rfl := Except.ok.inj h
  exact ⟨rfl, List.length_map _⟩

/-- **A plan for a single record has a single statement.** -/
theorem Plans.exists_eq_singleton {c : Compiler} {plan : WritePlan} (h : c.Plans plan)
    (hrows : plan.rows = 1) : ∃ q, plan.statements = [q] := by
  obtain ⟨rows, hlength, hstatements⟩ : ∃ rows : RowSet, plan.rows = rows.rows.length ∧
      plan.statements.length = (c.chunked rows).length := by
    cases h with
    | insert h => exact ⟨_, length_statements_of_insert h⟩
    | upsert h => exact ⟨_, length_statements_of_upsert h⟩
  rw [length_chunked_of_length_eq_one (hlength.symm.trans hrows)] at hstatements
  exact List.length_eq_one_iff.1 hstatements

end Compiler

namespace Engine

variable {σ : Type} (e : Engine σ)

/-- The engine with the chunks of a write run one after another, or else at once. -/
def withSequentialChunks (sequential : Bool) : Engine σ :=
  { e with config := { e.config with sequentialChunks := sequential } }

/-- What the backend answers to a writing statement in a state of the database. -/
def writeOutcome (database : σ) (q : Statement) : Except Error (List Record) :=
  if q.returnsRows then (e.backend.query database q.sql q.params).1.outcome
  else (e.backend.execute database q.sql q.params).1.outcome.map fun _ => []

/-- The state of the database behind a writing statement. -/
def behindWrite (database : σ) (q : Statement) : σ :=
  if q.returnsRows then (e.backend.query database q.sql q.params).2
  else (e.backend.execute database q.sql q.params).2

/-- What the backend answers to writing statements that reach it in order. -/
def answers (database : σ) : List Statement → List (Except Error (List Record))
  | [] => []
  | q :: rest => e.writeOutcome database q :: answers (e.behindWrite database q) rest

variable {e}

/-- The outcome of a writing statement is what the backend answers in this state. -/
theorem outcome_sendWrite (s : Session σ) (q : Statement) :
    (e.sendWrite s q).1.outcome = e.writeOutcome s.database q := by
  unfold sendWrite writeOutcome
  cases q.returnsRows <;> rfl

/-- A writing statement is asked once and moves the database. -/
theorem session_sendWrite (s : Session σ) (q : Statement) :
    (e.sendWrite s q).2 = (s.asked q).moved (e.behindWrite s.database q) := by
  unfold sendWrite behindWrite Session.asked Session.moved Statement.writeCall
  cases q.returnsRows <;> rfl

/-- A chunk that is waited for. -/
theorem await_sendWrite (s : Session σ) (q : Statement) :
    (await (e.sendWrite · q)).Ends s (e.writeOutcome s.database q)
      (((s.asked q).moved (e.behindWrite s.database q)).ended [s.calls.length]) := by
  have h : (await (e.sendWrite · q)).Ends s _ _ := Run.Ends.await (outcome_sendWrite s q)
  rw [session_sendWrite] at h
  exact h

/-- **Chunks that are all answered are all sent,** in record order. -/
theorem writeInOrder_ends_ok {statements : List Statement} {rows : List (List Record)}
    {s : Session σ} (h : e.answers s.database statements = rows.map .ok) :
    ∃ s', (e.writeInOrder statements).Ends s (.ok rows) s' ∧
      s'.calls = s.calls ++ statements.map (·.writeCall) := by
  induction statements generalizing s rows with
  | nil =>
    obtain rfl : rows = [] := List.map_eq_nil_iff.1 h.symm
    exact ⟨s, Run.Ends.pure _ _, (List.append_nil _).symm⟩
  | cons q rest ih =>
    obtain ⟨r, rows, rfl⟩ : ∃ r rows', rows = r :: rows' := by
      cases rows with
      | nil => cases h
      | cons r rows => exact ⟨r, rows, rfl⟩
    obtain ⟨hq, hrest⟩ := List.cons.inj h
    have hsent := await_sendWrite (e := e) s q
    rw [hq] at hsent
    obtain ⟨s', hends, hcalls⟩ := ih
      (s := ((s.asked q).moved (e.behindWrite s.database q)).ended [s.calls.length]) hrest
    refine ⟨s', hsent.bind (hends.bind (Run.Ends.pure _ _)), ?_⟩
    rw [hcalls, List.map_cons, List.append_cons s.calls]
    rfl

/-- **A chunk that fails is the last one sent.** -/
theorem writeInOrder_ends_error {before : List Statement} {q : Statement}
    {rows : List (List Record)} {err : Error} {s : Session σ}
    (h : e.answers s.database (before ++ [q]) = rows.map .ok ++ [.error err])
    (after : List Statement) :
    ∃ s', (e.writeInOrder (before ++ q :: after)).Ends s (.error err) s' ∧
      s'.calls = s.calls ++ (before ++ [q]).map (·.writeCall) := by
  induction before generalizing s rows with
  | nil =>
    -- The first statement is the one that fails, so nothing was answered before it.
    obtain rfl : rows = [] := by
      have hlength := congrArg List.length h
      simp only [answers, List.nil_append, List.length_cons, List.length_append, List.length_map,
        List.length_nil] at hlength
      exact List.length_eq_zero_iff.1 (by omega)
    have hsent := await_sendWrite (e := e) s q
    rw [(List.cons.inj h).1] at hsent
    exact ⟨_, hsent.bind_error, rfl⟩
  | cons p before ih =>
    -- The first statement is answered, and the failure is behind it.
    obtain ⟨r, rows, rfl⟩ : ∃ r rows', rows = r :: rows' := by
      cases rows with
      | nil =>
        obtain ⟨-, hnil⟩ := List.cons.inj h
        cases before <;> cases hnil
      | cons r rows => exact ⟨r, rows, rfl⟩
    obtain ⟨hp, hrest⟩ := List.cons.inj h
    have hsent := await_sendWrite (e := e) s p
    rw [hp] at hsent
    obtain ⟨s', hends, hcalls⟩ := ih
      (s := ((s.asked p).moved (e.behindWrite s.database p)).ended [s.calls.length]) hrest
    refine ⟨s', hsent.bind hends.bind_error, ?_⟩
    rw [hcalls, List.cons_append, List.map_cons, List.append_cons s.calls]
    rfl

/-- What a write does behind its chunks. -/
def conclude (table : String) (plan : WritePlan) (rows : List (List Record)) :
    Run σ WriteResult := do
  let result := plan.result table rows
  if plan.rows = 1 ∧ result.id.isNone then
    note (.noId table rows.flatten.length)
  note (.saved table plan.rows plan.statements.length)
  return result

/-- A write runs its chunks and goes on with their rows. -/
theorem write_eq (table : String) (plan : WritePlan) :
    e.write table plan =
      (if e.config.sequentialChunks then e.writeInOrder plan.statements
        else e.writeAtOnce plan.statements) >>= conclude table plan := by
  unfold write
  cases e.config.sequentialChunks <;> rfl

/-- Behind its chunks a write never fails, and it sends nothing any more. -/
theorem conclude_ends (table : String) (plan : WritePlan) (rows : List (List Record))
    (s : Session σ) :
    ∃ s', (conclude table plan rows).Ends s (.ok (plan.result table rows)) s' ∧
      s'.calls = s.calls ∧ s'.finished = s.finished := by
  have hsaved (s : Session σ) :=
    Run.Ends.note (.saved table plan.rows plan.statements.length) s
  unfold conclude
  dsimp only
  by_cases hnone : plan.rows = 1 ∧ (plan.result table rows).id.isNone
  · rw [if_pos hnone]
    exact ⟨_, (Run.Ends.note _ _).bind ((hsaved _).bind (Run.Ends.pure _ _)), rfl, rfl⟩
  · rw [if_neg hnone]
    exact ⟨_, (hsaved s).bind (Run.Ends.pure _ _), rfl, rfl⟩

/-- **A write ends as its chunks do,** with the result in place of their rows. -/
theorem write_ends_of_chunks {table : String} {plan : WritePlan} {s s' : Session σ}
    {outcome : Except Error (List (List Record))}
    (h : (if e.config.sequentialChunks then e.writeInOrder plan.statements
      else e.writeAtOnce plan.statements).Ends s outcome s') :
    ∃ s'', (e.write table plan).Ends s (outcome.map (plan.result table)) s'' ∧
      s''.calls = s'.calls ∧ s''.finished = s'.finished := by
  rw [write_eq]
  cases outcome with
  | error err => exact ⟨s', h.bind_error, rfl, rfl⟩
  | ok rows =>
    obtain ⟨s'', hends, hsame⟩ := conclude_ends table plan rows s'
    exact ⟨s'', h.bind hends, hsame⟩

/-- An engine that runs its chunks this way is the one with this choice. -/
theorem withSequentialChunks_eq_self {sequential : Bool}
    (h : e.config.sequentialChunks = sequential) : e.withSequentialChunks sequential = e := by
  subst h
  rfl

/-- Running chunks in order does not look at the choice. -/
theorem writeInOrder_withSequentialChunks (sequential : Bool) (statements : List Statement) :
    (e.withSequentialChunks sequential).writeInOrder statements = e.writeInOrder statements := by
  induction statements with
  | nil => rfl
  | cons q rest ih => rw [writeInOrder, writeInOrder, ih]; rfl

/-- Starting chunks does not look at the choice. -/
theorem startAll_withSequentialChunks (sequential : Bool) (s : Session σ)
    (statements : List Statement) :
    (e.withSequentialChunks sequential).startAll s statements = e.startAll s statements := by
  induction statements generalizing s with
  | nil => rfl
  | cons q rest ih => rw [startAll, startAll]; simp only [ih]; rfl

/-- The chunks one after another decide how a write in order ends. -/
theorem write_ends_of_inOrder (table : String) {plan : WritePlan} {s s' : Session σ}
    {outcome : Except Error (List (List Record))}
    (h : (e.writeInOrder plan.statements).Ends s outcome s') :
    ∃ s'', ((e.withSequentialChunks true).write table plan).Ends s
        (outcome.map (plan.result table)) s'' ∧
      s''.calls = s'.calls ∧ s''.finished = s'.finished := by
  refine write_ends_of_chunks ?_
  have hmode : (e.withSequentialChunks true).config.sequentialChunks = true := rfl
  rw [if_pos hmode, writeInOrder_withSequentialChunks]
  exact h

/-- The chunks at once decide how a write at once ends. -/
theorem write_ends_of_atOnce (table : String) {plan : WritePlan} {s s' : Session σ}
    {outcome : Except Error (List (List Record))}
    (h : (e.writeAtOnce plan.statements).Ends s outcome s') :
    ∃ s'', ((e.withSequentialChunks false).write table plan).Ends s
        (outcome.map (plan.result table)) s'' ∧
      s''.calls = s'.calls ∧ s''.finished = s'.finished := by
  refine write_ends_of_chunks ?_
  have hmode : ¬(e.withSequentialChunks false).config.sequentialChunks = true :=
    Bool.false_ne_true
  rw [if_neg hmode, writeAtOnce]
  simp only [startAll_withSequentialChunks]
  exact h

end Engine
end Querysmith
