/-
# Reading with a count

A read sends a statement for its rows and then one for their number.  The second one compiles
whenever the first one does and reads the same rows (`exists_count_of_select`), and what becomes of
it changes the reported number only.  So a read fails with its first statement or not at all
(`reading_ends`): nothing is sent when that statement does not compile, nothing is sent behind it
when it fails, and otherwise both statements are sent, whatever the count answers.
-/

import Querysmith.Proofs.Compiler.Selection
import Querysmith.Proofs.Engine.Count
import Querysmith.Proofs.Engine.Run

namespace Querysmith

/-- A statement as it is sent for its rows. -/
def Statement.call (q : Statement) : Call := ⟨.query, q.sql, q.params⟩

namespace Engine

variable {σ : Type} (e : Engine σ)

/-- Every matching row, or those of a page. -/
def reading (table : String) (f : Filter) (order : SortOrder) (softDelete : Option String) :
    Option Page → Run σ ReadResult
  | none => e.get table f order softDelete
  | some page => e.list table f order softDelete page

/-- What the backend answers to a statement in a state of the database. -/
def reply (database : σ) (q : Statement) : Except Error (List Record) :=
  (e.backend.query database q.sql q.params).1.outcome

/-- The state of the database behind a statement. -/
def stateBehind (database : σ) (q : Statement) : σ :=
  (e.backend.query database q.sql q.params).2

/-- The rows of a result, with the documents in their texts read if that is configured. -/
def resultRows (rows : List Record) : List Record :=
  if e.config.parseJsonText then decodeJsonText rows else rows

variable {e}

/-- A statement is sent once, and the read ends with its failure. -/
theorem read_ends_error {q : Statement} {s : Session σ} {err : Error}
    (h : e.reply s.database q = .error err) :
    ∃ s', (e.read q).Ends s (.error err) s' ∧ s'.calls = s.calls ++ [q.call] :=
  ⟨_, Run.Ends.bind_error (Run.Ends.await h), rfl⟩

/-- A statement is sent once, and the read ends with its rows. -/
theorem read_ends_ok {q : Statement} {s : Session σ} {rows : List Record}
    (h : e.reply s.database q = .ok rows) :
    ∃ s', (e.read q).Ends s (.ok (e.resultRows rows)) s' ∧ s'.calls = s.calls ++ [q.call] ∧
      s'.database = e.stateBehind s.database q :=
  ⟨_, Run.Ends.bind (Run.Ends.await h) ((Run.Ends.note _ _).bind (Run.Ends.pure _ _)), rfl, rfl⟩

/-- **A count that compiles never fails:** whatever the backend answers is turned into a number. -/
theorem count_ends {table : String} {f : Filter} {softDelete : Option String} {n : Statement}
    (h : e.compiler.count table f softDelete = .ok n) (s : Session σ) :
    ∃ number s', (∀ m, Reports (e.reply s.database n) m ↔ m = number) ∧
      (e.count table f softDelete).Ends s (.ok number) s' ∧ s'.calls = s.calls ++ [n.call] := by
  have hcompiled := Run.Ends.settle (e.compiler.count table f softDelete) h s
  have hnoted := Run.Ends.note (.compiled "count" n.sql n.params.length) s
  cases hanswer : e.reply s.database n with
  | ok rows =>
    refine ⟨_, _, fun m => reports_ok_iff, hcompiled.bind (hnoted.bind (Run.Ends.bind
      (a := .error _) (Run.Ends.tryCatch_ok (Run.Ends.bind (Run.Ends.await hanswer)
        (Run.Ends.earlyReturn _ _))) (Run.Ends.pure _ _))), ?_⟩
    rfl
  | error err =>
    refine ⟨_, _, fun m => reports_error_iff, hcompiled.bind (hnoted.bind (Run.Ends.bind
      (a := .error _) (Run.Ends.tryCatch_error (Run.Ends.bind_error (Run.Ends.await hanswer))
        ((Run.Ends.note _ _).bind (Run.Ends.earlyReturn _ _))) (Run.Ends.pure _ _))), ?_⟩
    rfl

section

variable {table : String} {f : Filter} {order : SortOrder} {softDelete : Option String}
  {page : Option Page} {q n : Statement} {rows : List Record} {err : Error} {s : Session σ}

/-- A selection that does not compile ends the read before anything is sent. -/
theorem select_ends_of_uncompiled
    (h : e.compiler.select table f order softDelete page = .error err) :
    (e.select table f order softDelete page).Ends s (.error err) s :=
  (Run.Ends.settle _ h s).bind_error

/-- A selection that fails ends the read; no count is sent. -/
theorem select_ends_of_failed (h : e.compiler.select table f order softDelete page = .ok q)
    (hreply : e.reply s.database q = .error err) :
    ∃ s', (e.select table f order softDelete page).Ends s (.error err) s' ∧
      s'.calls = s.calls ++ [q.call] := by
  have hcompiled := Run.Ends.settle _ h s
  have hnoted := Run.Ends.note (.compiled "select" q.sql q.params.length) s
  obtain ⟨s', hread, hcalls⟩ := read_ends_error (s := s.noted _) hreply
  exact ⟨s', hcompiled.bind (hnoted.bind hread.bind_error), hcalls⟩

/-- Rows that were read are answered with the number that is reported for the count, whatever
becomes of it. -/
theorem select_ends_of_answered (h : e.compiler.select table f order softDelete page = .ok q)
    (hcount : e.compiler.count table f softDelete = .ok n)
    (hreply : e.reply s.database q = .ok rows) :
    ∃ number s', (∀ m, Reports (e.reply (e.stateBehind s.database q) n) m ↔ m = number) ∧
      (e.select table f order softDelete page).Ends s (.ok ⟨e.resultRows rows, number⟩) s' ∧
      s'.calls = s.calls ++ [q.call, n.call] := by
  have hcompiled := Run.Ends.settle _ h s
  have hnoted := Run.Ends.note (.compiled "select" q.sql q.params.length) s
  obtain ⟨s₁, hread, hcalls₁, hdatabase⟩ := read_ends_ok (s := s.noted _) hreply
  obtain ⟨number, s₂, hreports, hnumber, hcalls₂⟩ := count_ends hcount s₁
  rw [hdatabase] at hreports
  refine ⟨number, s₂, hreports,
    hcompiled.bind (hnoted.bind (hread.bind (hnumber.bind (Run.Ends.pure _ _)))), ?_⟩
  rw [hcalls₂, hcalls₁, List.append_assoc]
  rfl

end

variable (e)

/-- **A read fails with its selection or not at all,** for every backend.  What can be selected can
be counted, and the count reads the same rows.  A read ends with an error just when its selection
does not compile, and then nothing has happened to the session, or when the backend fails it, and
then it is all that was sent.  Otherwise the selection and the count are sent, and the rows are
answered with the one number that is reported for what the backend answers to the count: the number
that its first row tells, and zero when the count fails or tells none. -/
theorem reading_ends (table : String) (f : Filter) (order : SortOrder)
    (softDelete : Option String) (page : Option Page) (s : Session σ) :
    (∀ q, e.compiler.select table f order softDelete page = .ok q →
      ∃ n, e.compiler.count table f softDelete = .ok n ∧
        e.compiler.ReadsSame table f order softDelete page q n) ∧
    ((∃ err s', (e.reading table f order softDelete page).Ends s (.error err) s') ↔
      (∃ err, e.compiler.select table f order softDelete page = .error err) ∨
      ∃ q, e.compiler.select table f order softDelete page = .ok q ∧
        ∃ err, e.reply s.database q = .error err) ∧
    (∀ err, e.compiler.select table f order softDelete page = .error err →
      (e.reading table f order softDelete page).Ends s (.error err) s) ∧
    (∀ q err, e.compiler.select table f order softDelete page = .ok q →
      e.reply s.database q = .error err →
      ∃ s', (e.reading table f order softDelete page).Ends s (.error err) s' ∧
        s'.calls = s.calls ++ [q.call]) ∧
    (∀ q n rows, e.compiler.select table f order softDelete page = .ok q →
      e.compiler.count table f softDelete = .ok n → e.reply s.database q = .ok rows →
      ∃ number s', (∀ m, Reports (e.reply (e.stateBehind s.database q) n) m ↔ m = number) ∧
        (e.reading table f order softDelete page).Ends s (.ok ⟨e.resultRows rows, number⟩) s' ∧
        s'.calls = s.calls ++ [q.call, n.call]) := by
  have hreading : e.reading table f order softDelete page =
      e.select table f order softDelete page := by
    cases page <;> rfl
  rw [hreading]
  refine ⟨fun q => Compiler.exists_count_of_select, ⟨?_, ?_⟩,
    fun err => select_ends_of_uncompiled, fun q err => select_ends_of_failed,
    fun q n rows => select_ends_of_answered⟩
  · rintro ⟨err, s', hends⟩
    cases hselect : e.compiler.select table f order softDelete page with
    | error err' => exact .inl ⟨err', rfl⟩
    | ok q =>
      refine .inr ⟨q, rfl, ?_⟩
      cases hreply : e.reply s.database q with
      | error err' => exact ⟨err', rfl⟩
      | ok rows =>
        -- Such a read ends well, and it ends only once.
        obtain ⟨n, hcount, -⟩ := Compiler.exists_count_of_select hselect
        obtain ⟨number, s'', -, hanswered, -⟩ := select_ends_of_answered hselect hcount hreply
        cases (hends.symm.trans hanswered)
  · rintro (⟨err, hselect⟩ | ⟨q, hselect, err, hreply⟩)
    · exact ⟨err, s, select_ends_of_uncompiled hselect⟩
    · obtain ⟨s', hends, -⟩ := select_ends_of_failed hselect hreply
      exact ⟨err, s', hends⟩

/-- A page whose count tells a text of digits is answered with that number, and one whose count
fails with zero. -/
theorem reading_ends_page :
    ∃ q n : Statement,
      q.call = ⟨.query, "SELECT * FROM \"t\" LIMIT $1 OFFSET $2", [.int 30, .int 0]⟩ ∧
      n.call = ⟨.query, "SELECT count(*) AS number FROM \"t\"", []⟩ ∧
      (∃ s' : Session (List ScriptedReply),
        ((ofDialect .scripted .postgres {}).reading "t" (.and []) .unordered none (some {})).Ends
          { database := [{ rows := [[("id", .int 7)]] }, { rows := [[("number", .str " +12")]] }] }
          (.ok ⟨[[("id", .int 7)]], 12⟩) s' ∧
        s'.calls = [q.call, n.call]) ∧
      ∃ s' : Session (List ScriptedReply),
        ((ofDialect .scripted .postgres {}).reading "t" (.and []) .unordered none (some {})).Ends
          { database := [{ rows := [[("id", .int 7)]] }, { failure := some "timeout" }] }
          (.ok ⟨[[("id", .int 7)]], 0⟩) s' ∧
        s'.calls = [q.call, n.call] := by
  have ht : TableName.resolve "t" (Compiler.ofDialect .postgres).options.schema =
      .ok ⟨none, "t"⟩ := by
    rfl
  have hselect := (Compiler.select_yields ht (.and []) .unordered none (some {}) _).2
    ⟨by decide, rfl⟩
  have hcount := (Compiler.count_yields ht (.and []) none _).2 ⟨by decide, rfl⟩
  obtain ⟨-, -, -, -, htold⟩ := reading_ends (ofDialect .scripted .postgres {}) "t" (.and [])
    .unordered none (some {})
    { database := [{ rows := [[("id", .int 7)]] }, { rows := [[("number", .str " +12")]] }] }
  obtain ⟨-, -, -, -, hfailed⟩ := reading_ends (ofDialect .scripted .postgres {}) "t" (.and [])
    .unordered none (some {})
    { database := [{ rows := [[("id", .int 7)]] }, { failure := some "timeout" }] }
  obtain ⟨number, s₁, hreports, hends₁, hcalls₁⟩ := htold _ _ _ hselect hcount rfl
  have hspells : Text.Spells " +12" 12 :=
    ⟨[' '], ['+', '1', '2'], [], rfl, ⟨['+'], ['1', '2'], rfl, .inr rfl, rfl, rfl⟩,
      List.forall_mem_singleton.2 rfl⟩
  obtain rfl : 12 = number :=
    (hreports 12).1 (.inl ⟨_, _, _, rfl, rfl, .text hspells (by decide)⟩)
  obtain ⟨number, s₂, hreports, hends₂, hcalls₂⟩ := hfailed _ _ _ hselect hcount rfl
  obtain rfl : 0 = number := (hreports 0).1 (reports_error_iff.2 rfl)
  exact ⟨_, _, by decide +kernel, by decide +kernel, ⟨s₁, hends₁, hcalls₁⟩, s₂, hends₂, hcalls₂⟩

end Engine
end Querysmith
