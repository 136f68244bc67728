/-
# Writing at once

A write at once goes in rounds: the chunks are started in record order, and they finish by round, up
to the first that fails.  What the engine does is a flight (`writeAtOnce_lands`), and every order in
which the chunks may finish is that of a flight (`exists_arriving`).  So what holds of all flights
holds of the engine on every backend, and it does not rest on the rounds.

A flight lands with rows just when every chunk succeeds, and then its result is that of the chunks
sent one after another (`writing_ends`): the rows are looked at for a single record only, and that
is a single chunk.
-/

import Querysmith.Proofs.Compiler.Outcome
import Querysmith.Proofs.Engine.Flight

namespace Querysmith
namespace Engine

/-! ### The rounds of the engine -/

variable {σ : Type} {e : Engine σ}

/-- The call of a started chunk with its answer. -/
def Started.answer (chunk : Started) : Nat × Except Error (List Record) :=
  (chunk.place, chunk.reply.outcome)

/-- The rows of a started chunk. -/
def Started.rows (chunk : Started) : List Record := chunk.reply.outcome.toOption.getD []

/-- The call of a started chunk with its rows. -/
def Started.arrival (chunk : Started) : Nat × List Record := (chunk.place, chunk.rows)

/-- A chunk that is answered with its rows. -/
def Started.Succeeds (chunk : Started) : Prop := chunk.reply.outcome = .ok chunk.rows

/-- A chunk with rows for an answer succeeds. -/
theorem Started.succeeds_of_ok {chunk : Started} {rows : List Record}
    (h : chunk.reply.outcome = .ok rows) : chunk.Succeeds := by
  rw [Started.Succeeds, Started.rows, h]
  rfl

/-- Where all chunks succeed what arrives is what they answer. -/
theorem Started.map_goodAnswer {chunks : List Started} (h : ∀ chunk ∈ chunks, chunk.Succeeds) :
    (chunks.map Started.arrival).map Flight.goodAnswer = chunks.map Started.answer := by
  rw [List.map_map]
  refine List.map_congr_left fun chunk hchunk => ?_
  rw [Started.answer, h chunk hchunk]
  rfl

/-- What a round of starts has done: the started statements are answered in order, as calls that
follow each other, and statements are left behind only when one of the answers is a failure. -/
structure Round (e : Engine σ) (s : Session σ) (started rest : List Statement)
    (chunks : List Started) (s' : Session σ) : Prop where
  outcomes : chunks.map (·.reply.outcome) = e.answers s.database started
  places : chunks.map (·.place) = List.range' s.calls.length started.length
  finished : s'.finished = s.finished
  failed : rest ≠ [] → ∃ err, .error err ∈ e.answers s.database started
  reaches : ∀ answered, Flight.Reaches e ⟨s, started ++ rest, [], answered, []⟩
    ⟨s', rest, [], (chunks.map Started.answer).reverse ++ answered, []⟩

namespace Round

variable {s s' : Session σ} {q : Statement} {started rest : List Statement}
  {chunks : List Started} {reply : Reply (List Record)}

/-- A round that starts nothing. -/
theorem nil (s : Session σ) : Round e s [] [] [] s where
  outcomes := rfl
  places := rfl
  finished := rfl
  failed h := absurd rfl h
  reaches _ := .refl

/-- A failure that is there at once ends the round. -/
theorem stop (houtcome : reply.outcome = e.writeOutcome s.database q)
    (hfails : reply.outcome.toOption.isNone) (rest : List Statement) :
    Round e s [q] rest [⟨s.calls.length, reply⟩]
      ((s.asked q).moved (e.behindWrite s.database q)) where
  outcomes := by rw [answers, ← houtcome]; rfl
  places := rfl
  finished := rfl
  failed _ := by
    rw [answers, ← houtcome]
    cases h : reply.outcome with
    | error err => exact ⟨err, List.mem_cons_self⟩
    | ok rows => rw [h] at hfails; cases hfails
  reaches answered := by
    have hfirst := Flight.reaches_answer (e := e) s q rest answered
    rw [← houtcome] at hfirst
    exact hfirst

/-- Otherwise the round goes on behind the first statement. -/
theorem cons (houtcome : reply.outcome = e.writeOutcome s.database q)
    (h : Round e ((s.asked q).moved (e.behindWrite s.database q)) started rest chunks s') :
    Round e s (q :: started) rest (⟨s.calls.length, reply⟩ :: chunks) s' where
  outcomes := by
    have houtcomes := h.outcomes
    rw [List.map_cons, houtcomes, answers, houtcome]
    rfl
  places := by
    have hplaces := h.places
    rw [List.map_cons, hplaces, List.length_cons, List.range'_succ]
    congr 2
    exact List.length_append
  finished := h.finished
  failed hne := by
    obtain ⟨err, herr⟩ := h.failed hne
    exact ⟨err, List.mem_cons_of_mem _ herr⟩
  reaches answered := by
    have hfirst := Flight.reaches_answer (e := e) s q (started ++ rest) answered
    have hrest := h.reaches ((s.calls.length, e.writeOutcome s.database q) :: answered)
    rw [← houtcome] at hfirst hrest
    rw [List.map_cons, List.reverse_cons, List.append_assoc]
    exact hfirst.trans hrest

/-- Chunks that have all arrived, in any order, land with their rows in record order. -/
theorem lands {order : List Started} (h : Round e s started rest chunks s')
    (hperm : chunks.Perm order) (s'' : Session σ) :
    Flight.Lands ⟨s'', [], [], [], (order.map Started.arrival).reverse ++ []⟩
      (.ok (chunks.map (·.rows))) s'' := by
  have hsorted : (chunks.map Started.arrival).Pairwise (·.1 < ·.1) := by
    have hplaces := List.pairwise_lt_range' (s := s.calls.length) (n := started.length)
    rw [← h.places, List.pairwise_map] at hplaces
    rw [List.pairwise_map]
    exact hplaces
  have harrived : ((order.map Started.arrival).reverse ++ []).Perm
      (chunks.map Started.arrival) := by
    rw [List.append_nil]
    exact (List.reverse_perm _).trans (hperm.symm.map _)
  have hlands := Flight.Lands.rows (s := s'') harrived hsorted
  rw [List.map_map] at hlands
  exact hlands

end Round

/-- **Chunks are started one by one,** up to the first that fails at once. -/
theorem startAll_cons (s : Session σ) (q : Statement) (rest : List Statement) :
    e.startAll s (q :: rest) =
      if (e.sendWrite s q).1.delay = 0 ∧ (e.sendWrite s q).1.outcome.toOption.isNone then
        ([⟨s.calls.length, (e.sendWrite s q).1⟩],
          (s.asked q).moved (e.behindWrite s.database q))
      else
        (⟨s.calls.length, (e.sendWrite s q).1⟩ ::
            (e.startAll ((s.asked q).moved (e.behindWrite s.database q)) rest).1,
          (e.startAll ((s.asked q).moved (e.behindWrite s.database q)) rest).2) := by
  rw [startAll, ← session_sendWrite]

/-- **How far a round of starts gets.** -/
theorem exists_round (s : Session σ) (statements : List Statement) :
    ∃ started rest, statements = started ++ rest ∧
      Round e s started rest (e.startAll s statements).1 (e.startAll s statements).2 := by
  induction statements generalizing s with
  | nil => exact ⟨[], [], rfl, .nil s⟩
  | cons q statements ih =>
    have houtcome := outcome_sendWrite (e := e) s q
    rw [startAll_cons]
    by_cases hstop : (e.sendWrite s q).1.delay = 0 ∧
        (e.sendWrite s q).1.outcome.toOption.isNone
    · rw [if_pos hstop]
      exact ⟨[q], statements, rfl, .stop houtcome hstop.2 statements⟩
    · rw [if_neg hstop]
      obtain ⟨started, rest, hstatements, hround⟩ :=
        ih ((s.asked q).moved (e.behindWrite s.database q))
      exact ⟨q :: started, rest, by rw [hstatements, List.cons_append], .cons houtcome hround⟩

/-- **Chunks finish one after another up to the first that fails.** -/
theorem exists_untilFailure (order : List Started) :
    ∃ before rest, order = before ++ rest ∧ (∀ chunk ∈ before, chunk.Succeeds) ∧
      (rest = [] ∧ untilFailure order = (before.map (·.place), none) ∨
        ∃ chunk rest' err, rest = chunk :: rest' ∧ chunk.reply.outcome = .error err ∧
          untilFailure order = (before.map (·.place) ++ [chunk.place], some err)) := by
  induction order with
  | nil => exact ⟨[], [], rfl, by simp, .inl ⟨rfl, rfl⟩⟩
  | cons chunk order ih =>
    cases houtcome : chunk.reply.outcome with
    | error err =>
      -- Nothing finishes in front of the chunk that fails.
      refine ⟨[], chunk :: order, rfl, by simp, .inr ⟨chunk, order, err, rfl, houtcome, ?_⟩⟩
      rw [untilFailure, houtcome]
      rfl
    | ok rows =>
      obtain ⟨before, rest, rfl, hbefore, hends⟩ := ih
      refine ⟨chunk :: before, rest, rfl,
        List.forall_mem_cons.2 ⟨Started.succeeds_of_ok houtcome, hbefore⟩, ?_⟩
      rw [untilFailure, houtcome]
      rcases hends with ⟨hrest, hends⟩ | ⟨last, rest', err, hrest, herr, hends⟩
      · exact .inl ⟨hrest, by rw [hends]; rfl⟩
      · exact .inr ⟨last, rest', err, hrest, herr, by rw [hends]; rfl⟩

/-- Answers that tell of success, with the rows, or of a failure. -/
def Tells (answers : List (Except Error (List Record))) :
    Except Error (List (List Record)) → Prop
  | .ok rows => answers = rows.map .ok
  | .error err => .error err ∈ answers

/-- What the backend answers to the first statements does not depend on those behind them. -/
theorem answers_append (database : σ) (statements rest : List Statement) :
    ∃ more, e.answers database (statements ++ rest) = e.answers database statements ++ more := by
  induction statements generalizing database with
  | nil => exact ⟨_, rfl⟩
  | cons q statements ih =>
    obtain ⟨more, hmore⟩ := ih (e.behindWrite database q)
    exact ⟨more, by rw [List.cons_append, answers, hmore]; rfl⟩

/-- A write at once whose started chunks all succeed. -/
theorem writeAtOnce_ends_of_none {s : Session σ} {statements : List Statement} {places : List Nat}
    (h : untilFailure (finishOrder (e.startAll s statements).1) = (places, none)) :
    (e.writeAtOnce statements).Ends s
      (.ok ((e.startAll s statements).1.filterMap (·.reply.outcome.toOption)))
      ((e.startAll s statements).2.ended places) := by
  have hget : Run.Ends MonadState.get s (.ok s) s := rfl
  refine hget.bind ?_
  dsimp only
  rw [h]
  rfl

/-- A write at once with a chunk that fails. -/
theorem writeAtOnce_ends_of_some {s : Session σ} {statements : List Statement} {places : List Nat}
    {err : Error}
    (h : untilFailure (finishOrder (e.startAll s statements).1) = (places, some err)) :
    (e.writeAtOnce statements).Ends s (.error err)
      ((e.startAll s statements).2.ended places) := by
  have hget : Run.Ends MonadState.get s (.ok s) s := rfl
  refine hget.bind ?_
  dsimp only
  rw [h]
  rfl

/-- The rows of chunks that all succeed. -/
theorem filterMap_outcome {chunks : List Started} (h : ∀ chunk ∈ chunks, chunk.Succeeds) :
    chunks.filterMap (·.reply.outcome.toOption) = chunks.map (·.rows) := by
  rw [← List.filterMap_eq_map]
  refine List.filterMap_congr fun chunk hchunk => ?_
  rw [h chunk hchunk]
  rfl

/-- **What the engine does is a flight,** and it lands with what the backend tells. -/
theorem writeAtOnce_lands (s : Session σ) (statements : List Statement) :
    ∃ outcome s' f, (e.writeAtOnce statements).Ends s outcome s' ∧
      Flight.Reaches e ⟨s, statements, [], [], []⟩ f ∧ f.Lands outcome s' ∧
      Tells (e.answers s.database statements) outcome := by
  obtain ⟨started, rest, rfl, hround⟩ := exists_round (e := e) s statements
  set chunks := (e.startAll s (started ++ rest)).1 with hchunks
  obtain ⟨before, behind, horder, hbefore, hends⟩ := exists_untilFailure (finishOrder chunks)
  have hperm : chunks.Perm (before ++ behind) := horder ▸ (List.mergeSort_perm _ _).symm
  -- The chunks before the first failure arrive in the order in which they finish.
  have hanswered : ((chunks.map Started.answer).reverse ++ []).Perm
      ((before.map Started.arrival).map Flight.goodAnswer ++ behind.map Started.answer) := by
    rw [List.append_nil, Started.map_goodAnswer hbefore, ← List.map_append]
    exact (List.reverse_perm _).trans (hperm.map _)
  obtain ⟨behind', hbehind, harrive⟩ := Flight.reaches_arrive (e := e) hanswered
    (e.startAll s (started ++ rest)).2 rest []
  have hreaches := (hround.reaches []).trans harrive
  rw [List.map_map] at hreaches
  rcases hends with ⟨rfl, hends⟩ | ⟨chunk, rest', err, rfl, herr, hends⟩
  · -- Nothing fails, so every chunk is started.
    rw [List.append_nil] at hperm
    have hall : ∀ chunk ∈ chunks, chunk.Succeeds :=
      fun chunk hchunk => hbefore chunk (hperm.mem_iff.1 hchunk)
    have htells : e.answers s.database started = (chunks.map (·.rows)).map .ok := by
      rw [← hround.outcomes, List.map_map]
      exact List.map_congr_left hall
    obtain rfl : rest = [] := by
      by_contra hne
      obtain ⟨err, herr⟩ := hround.failed hne
      rw [htells] at herr
      simp at herr
    obtain rfl := hbehind.eq_nil
    have hends := writeAtOnce_ends_of_none hends
    rw [filterMap_outcome hall] at hends
    refine ⟨_, _, _, hends, hreaches, hround.lands hperm _, ?_⟩
    rw [Tells, List.append_nil, htells]
  · have hmem : (chunk.place, .error err) ∈ behind' := by
      rw [hbehind.mem_iff, List.map_cons, Started.answer, herr]
      exact List.mem_cons_self
    refine ⟨_, _, _, writeAtOnce_ends_of_some hends, hreaches, ?_, ?_⟩
    · rw [← Session.ended_ended]
      exact .failure hmem
    · obtain ⟨more, hmore⟩ := answers_append (e := e) s.database started rest
      rw [Tells, hmore, ← hround.outcomes]
      refine List.mem_append_left _ (List.mem_map.2 ⟨chunk, ?_, herr⟩)
      rw [hperm.mem_iff]
      exact List.mem_append_right _ List.mem_cons_self

/-- **Answers arrive in any order.**  When the backend answers every chunk, each order of the calls
is that in which the chunks of some flight finish. -/
theorem exists_arriving {s : Session σ} {statements : List Statement} {rows : List (List Record)}
    {order : List Nat} (h : e.answers s.database statements = rows.map .ok)
    (horder : order.Perm (List.range' s.calls.length statements.length)) :
    ∃ f s', Flight.Reaches e ⟨s, statements, [], [], []⟩ f ∧ f.Lands (.ok rows) s' ∧
      s'.finished = s.finished ++ order := by
  obtain ⟨started, rest, rfl, hround⟩ := exists_round (e := e) s statements
  set chunks := (e.startAll s (started ++ rest)).1 with hchunks
  obtain ⟨more, hmore⟩ := answers_append (e := e) s.database started rest
  have hgood : ∀ answer ∈ e.answers s.database started, ∃ r, answer = .ok r := by
    intro answer hanswer
    have hmem := List.mem_append_left more hanswer
    rw [← hmore, h, List.mem_map] at hmem
    obtain ⟨r, -, hr⟩ := hmem
    exact ⟨r, hr.symm⟩
  obtain rfl : rest = [] := by
    by_contra hne
    obtain ⟨err, herr⟩ := hround.failed hne
    obtain ⟨r, hr⟩ := hgood _ herr
    cases hr
  rw [List.append_nil] at h horder
  have hall : ∀ chunk ∈ chunks, chunk.Succeeds := by
    intro chunk hchunk
    obtain ⟨r, hr⟩ := hgood chunk.reply.outcome
      (hround.outcomes ▸ List.mem_map_of_mem hchunk)
    exact Started.succeeds_of_ok hr
  have hrows : chunks.map (·.rows) = rows := by
    have houtcomes := hround.outcomes.trans h
    rw [List.map_congr_left hall, ← Function.comp_def, ← List.map_map] at houtcomes
    exact List.map_injective_iff.2 (fun _ _ => Except.ok.inj) houtcomes
  -- The chunks in the order in which their calls are to finish.
  obtain ⟨ordered, hplaces, hordered⟩ : ∃ ordered : List Started,
      ordered.map (·.place) = order ∧ ordered.Perm chunks := by
    rw [← hround.places] at horder
    obtain ⟨ordered, hsame, hordered⟩ := List.perm_comp_forall₂ (r := fun p c => p = c.place)
      horder (List.forall₂_map_left_iff.2 (List.forall₂_same.2 fun _ _ => rfl))
    refine ⟨ordered, ?_, hordered⟩
    rw [← List.forall₂_eq_eq_eq, List.forall₂_map_left_iff]
    exact hsame.flip.imp fun _ _ h => h.symm
  have hanswered : ((chunks.map Started.answer).reverse ++ []).Perm
      ((ordered.map Started.arrival).map Flight.goodAnswer ++ []) := by
    rw [List.append_nil, List.append_nil,
      Started.map_goodAnswer fun chunk hchunk => hall chunk (hordered.mem_iff.1 hchunk)]
    exact (List.reverse_perm _).trans (hordered.symm.map _)
  obtain ⟨rest', hrest', harrive⟩ := Flight.reaches_arrive (e := e) hanswered
    (e.startAll s (started ++ [])).2 [] []
  obtain rfl := hrest'.eq_nil
  refine ⟨_, _, (hround.reaches []).trans harrive, hrows ▸ hround.lands hordered.symm _, ?_⟩
  rw [List.map_map, ← hplaces, ← hround.finished]
  rfl

/-- The backend answers every chunk, or there is a first one that it fails. -/
theorem answers_cases (database : σ) (statements : List Statement) :
    (∃ rows : List (List Record), e.answers database statements = rows.map .ok) ∨
      ∃ before q after err, ∃ rows : List (List Record), statements = before ++ q :: after ∧
        e.answers database (before ++ [q]) = rows.map .ok ++ [.error err] := by
  induction statements generalizing database with
  | nil => exact .inl ⟨[], rfl⟩
  | cons q statements ih =>
    cases houtcome : e.writeOutcome database q with
    | error err =>
      refine .inr ⟨[], q, statements, err, [], rfl, ?_⟩
      rw [List.nil_append, answers, houtcome]
      rfl
    | ok r =>
      -- The later statements meet the database that the first one leaves.
      obtain ⟨rows, hrows⟩ | ⟨before, p, after, err, rows, rfl, hrows⟩ :=
        ih (e.behindWrite database q)
      · refine .inl ⟨r :: rows, ?_⟩
        rw [answers, houtcome, hrows]
        rfl
      · refine .inr ⟨q :: before, p, after, err, r :: rows, rfl, ?_⟩
        rw [List.cons_append, answers, houtcome, hrows]
        rfl

variable (e)

/-- **The order in which chunks finish does not show in a write that succeeds, and one after another
a failure stops it.**  One after another the statements are sent in record order up to the first
that the backend fails, and the write ends with this failure, or with the result when there is
none.  At once, the engine's rounds are a flight, and any order in which the calls may finish is
that of one.  Whichever flight it is, it lands with rows just when every chunk succeeds, every
statement is sent once then, and the result is that of the chunks sent one after another. -/
theorem writing_ends {plan : WritePlan} (hplan : e.compiler.Plans plan) (table : String)
    (s : Session σ) :
    (∀ rows : List (List Record), e.answers s.database plan.statements = rows.map .ok →
      ∃ s', ((e.withSequentialChunks true).write table plan).Ends s
          (.ok (plan.result table rows)) s' ∧
        s'.calls = s.calls ++ plan.statements.map (·.writeCall)) ∧
    (∀ before q after err, ∀ rows : List (List Record),
      plan.statements = before ++ q :: after →
      e.answers s.database (before ++ [q]) = rows.map .ok ++ [.error err] →
      ∃ s', ((e.withSequentialChunks true).write table plan).Ends s (.error err) s' ∧
        s'.calls = s.calls ++ (before ++ [q]).map (·.writeCall)) ∧
    (∃ f outcome landed s', Flight.Reaches e ⟨s, plan.statements, [], [], []⟩ f ∧
      f.Lands outcome landed ∧ Tells (e.answers s.database plan.statements) outcome ∧
      ((e.withSequentialChunks false).write table plan).Ends s
        (outcome.map (plan.result table)) s' ∧
      s'.calls = landed.calls ∧ s'.finished = landed.finished) ∧
    (∀ rows : List (List Record), ∀ order : List Nat,
      e.answers s.database plan.statements = rows.map .ok →
      order.Perm (List.range' s.calls.length plan.statements.length) →
      ∃ f landed, Flight.Reaches e ⟨s, plan.statements, [], [], []⟩ f ∧
        f.Lands (.ok rows) landed ∧ landed.finished = s.finished ++ order) ∧
    ∀ f outcome landed, Flight.Reaches e ⟨s, plan.statements, [], [], []⟩ f →
      f.Lands outcome landed →
      ((∃ rows, outcome = .ok rows) ↔ f.Succeeds) ∧
      ∀ rows, outcome = .ok rows →
        landed.calls = s.calls ++ plan.statements.map (·.writeCall) ∧
        ∀ r s', ((e.withSequentialChunks true).write table plan).Ends s (.ok r) s' →
          plan.result table rows = r := by
  have hsuccess : ∀ rows : List (List Record),
      e.answers s.database plan.statements = rows.map .ok →
      ∃ s', ((e.withSequentialChunks true).write table plan).Ends s
          (.ok (plan.result table rows)) s' ∧
        s'.calls = s.calls ++ plan.statements.map (·.writeCall) := by
    intro rows hrows
    obtain ⟨s₁, hends, hcalls⟩ := writeInOrder_ends_ok hrows
    obtain ⟨s₂, hwrite, hsame, -⟩ := write_ends_of_inOrder table hends
    exact ⟨s₂, hwrite, hsame.trans hcalls⟩
  have hfailure : ∀ before q after err, ∀ rows : List (List Record),
      plan.statements = before ++ q :: after →
      e.answers s.database (before ++ [q]) = rows.map .ok ++ [.error err] →
      ∃ s', ((e.withSequentialChunks true).write table plan).Ends s (.error err) s' ∧
        s'.calls = s.calls ++ (before ++ [q]).map (·.writeCall) := by
    intro before q after err rows hstatements hrows
    obtain ⟨s₁, hends, hcalls⟩ := writeInOrder_ends_error hrows after
    rw [← hstatements] at hends
    obtain ⟨s₂, hwrite, hsame, -⟩ := write_ends_of_inOrder table hends
    exact ⟨s₂, hwrite, hsame.trans hcalls⟩
  refine ⟨hsuccess, hfailure, ?_, fun rows order => exists_arriving, ?_⟩
  · obtain ⟨outcome, s₁, f, hends, hreaches, hlands, htells⟩ :=
      writeAtOnce_lands (e := e) s plan.statements
    obtain ⟨s₂, hwrite, hsame⟩ := write_ends_of_atOnce table hends
    exact ⟨f, outcome, s₁, s₂, hreaches, hlands, htells, hwrite, hsame⟩
  · rintro f outcome landed hreaches hlands
    refine ⟨hlands.exists_ok_iff, ?_⟩
    rintro rows rfl
    refine ⟨hlands.calls_eq hreaches, fun r s' hends => ?_⟩
    -- The write in order that succeeds is the one whose chunks are all answered.
    obtain ⟨rows', hrows', rfl⟩ : ∃ rows' : List (List Record),
        e.answers s.database plan.statements = rows'.map .ok ∧ plan.result table rows' = r := by
      obtain ⟨rows', hrows'⟩ | ⟨before, q, after, err, rows', hstatements, hrows'⟩ :=
        answers_cases (e := e) s.database plan.statements
      · obtain ⟨s₁, hends', -⟩ := hsuccess rows' hrows'
        exact ⟨rows', hrows', Except.ok.inj (Prod.mk.inj (hends'.symm.trans hends)).1⟩
      · obtain ⟨s₁, hends', -⟩ := hfailure before q after err rows' hstatements hrows'
        cases hends.symm.trans hends'
    by_cases hone : plan.rows = 1
    · obtain ⟨q, hq⟩ := hplan.exists_eq_singleton hone
      rw [hq] at hreaches hrows'
      have houtcome := hreaches.single.outcome_eq hlands
      obtain ⟨r, rfl⟩ : ∃ r, rows' = [r] := by
        have hlength := congrArg List.length hrows'
        rw [List.length_map] at hlength
        exact List.length_eq_one_iff.1 hlength.symm
      rw [(List.cons.inj hrows').1] at houtcome
      rw [Except.ok.inj houtcome]
    · exact WritePlan.result_eq_of_rows_ne_one hone table rows rows'

/-- Of three records in chunks of one the second fails, and the third is not sent. -/
theorem writing_ends_second_failed :
    ∃ plan s', (Compiler.ofDialect .sqlite { batchSize := 1 }).insert "t"
        ⟨["a"], [[.int 1], [.int 2], [.int 3]]⟩ = .ok plan ∧
      (((ofDialect .scripted .sqlite
          { options := { batchSize := 1 } }).withSequentialChunks true).write "t" plan).Ends
        { database := [{ rows := [[("id", .int 7)]] }, { failure := some "full" }] }
        (.error (.engine "full" [])) s' ∧
      s'.calls = [⟨.query, "INSERT INTO \"t\" (\"a\") VALUES (?1) RETURNING *", [.int 1]⟩,
        ⟨.query, "INSERT INTO \"t\" (\"a\") VALUES (?1) RETURNING *", [.int 2]⟩] := by
  set c := Compiler.ofDialect .sqlite { batchSize := 1 } with hc
  have hchunks : c.chunked ⟨["a"], [[.int 1], [.int 2], [.int 3]]⟩ =
      [[[.int 1]], [[.int 2]], [[.int 3]]] := by
    have hsize : c.chunkSize ["a"].length = 1 := by decide
    rw [Compiler.chunked, hsize]
    simp [chunks]
  have ht : TableName.resolve "t" c.options.schema = .ok ⟨none, "t"⟩ := rfl
  have hplan := (Compiler.insert_yields ht ⟨["a"], [[.int 1], [.int 2], [.int 3]]⟩ _).2
    ⟨by decide, rfl⟩
  rw [hchunks] at hplan
  obtain ⟨-, hfailure, -⟩ :=
    writing_ends (ofDialect .scripted .sqlite { options := { batchSize := 1 } }) (.insert hplan)
      "t" { database := [{ rows := [[("id", .int 7)]] }, { failure := some "full" }] }
  obtain ⟨s', hends, hcalls⟩ :=
    hfailure [_] _ [_] (.engine "full" []) [[[("id", .int 7)]]] rfl rfl
  exact ⟨_, s', hplan, hends, by rw [hcalls]; decide +kernel⟩

end Engine
end Querysmith
