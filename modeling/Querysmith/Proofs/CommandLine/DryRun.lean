/-
# Dry runs

An operation is compiled, which shows its statements, or run on an engine, which sends them.  The
two read their arguments apart from each other.  What a run sends is what the dry run shows, and for
a read the count of the same rows behind it (`run_sends`).  A run is refused before anything is sent
exactly when the dry run is refused, with one exception: an insert leaves its constraints unread
when it is compiled, and reads them when it is run (`run_refused_iff`).
-/

import Querysmith.CommandLine.Operation
import Querysmith.Proofs.Engine.Sending

namespace Querysmith
namespace CommandLine
namespace Operation

open Engine (Sends)

/-- What a run reads and a dry run leaves unread: the constraints of an insert. -/
def readUnused (files : Files) : Operation → Except Failure Unit
  | insert records => do
    let _ ← records.readConstraints files
  | _ => pure ()

/-- What a run sends behind the statements of its dry run: a read counts its rows. -/
def countBehind (c : Compiler) (files : Files) : Operation → Except Failure (List Statement)
  | get rows _ | list rows _ _ => compile c files (.count rows)
  | _ => pure []

section

variable {σ α β : Type} {e : Engine σ} {s : Session σ}

/-- What is read from the arguments decides whether a job goes on. -/
theorem settle_sends {p : Except Failure β} {k : β → Job σ α}
    {x : β → Except Failure (List Statement)} (h : ∀ b, p = .ok b → e.Sends s (k b) (x b)) :
    e.Sends s (settle p >>= k) (p >>= x) := by
  cases p with
  | error f => exact ⟨f, s, rfl, rfl⟩
  | ok b => exact Sends.of_step rfl rfl (h b rfl)

/-- A job sends what its run sends. -/
theorem job_sends {r : Run σ α} {x : Except Error (List Statement)} (h : e.Sends s r x) :
    e.Sends s (job r) (x.mapError Failure.error) := by
  -- A job and its run go the same way; only an error is wrapped.
  have hok {s s' : Session σ} {a : α} (h : r.run s = (.ok a, s')) :
      (job r).run s = (.ok a, s') := by
    change job r s = _
    rw [job, show r s = _ from h]
  have herror {s s' : Session σ} {err : Error} (h : r.run s = (.error err, s')) :
      (job r).run s = (.error (.error err), s') := by
    change job r s = _
    rw [job, show r s = _ from h]
  cases x with
  | error err =>
    obtain ⟨err', s', hr, hsame⟩ := h
    exact ⟨.error err', s', herror hr, hsame⟩
  | ok statements =>
    obtain ⟨hfails, hanswered⟩ := h
    refine ⟨fun f s' hjob => ?_, fun hanswers => ?_⟩
    · rcases hr : r.run s with ⟨a | err, s''⟩
      · rw [herror hr] at hjob
        obtain ⟨-, rfl⟩ := Prod.mk.inj hjob
        exact hfails _ _ hr
      · rw [hok hr] at hjob
        cases hjob
    · obtain ⟨a, s', hr, hsent⟩ := hanswered hanswers
      exact ⟨a, s', hok hr, hsent⟩

end

variable {σ : Type} (e : Engine σ)

/-- **A run sends what its dry run shows,** and a read the count behind it. -/
theorem run_sends (files : Files) (op : Operation) (s : Session σ) :
    e.Sends s (op.run e files) (do
      op.readUnused files
      let shown ← op.compile e.compiler files
      return shown ++ (← op.countBehind e.compiler files)) := by
  cases op with
  | get rows order =>
    have h : e.Sends s (run e files (.get rows order)) _ := settle_sends fun f _ =>
      (job_sends (Engine.select_sends rows.table f order rows.softDelete none)).map _
    simp only [readUnused, compile, countBehind, pure_bind, bind_assoc, mapError_bind,
      mapError_pure] at h ⊢
    -- The selection and the count read the same filter.
    refine h.congr fun statements => ?_
    rcases rows.read files with f | f <;> exact Iff.rfl
  | list rows order page =>
    have h : e.Sends s (run e files (.list rows order page)) _ := settle_sends fun f _ =>
      (job_sends (Engine.select_sends rows.table f order rows.softDelete (some page))).map _
    simp only [readUnused, compile, countBehind, pure_bind, bind_assoc, mapError_bind,
      mapError_pure] at h ⊢
    -- The selection and the count read the same filter.
    refine h.congr fun statements => ?_
    rcases rows.read files with f | f <;> exact Iff.rfl
  | count rows =>
    have h : e.Sends s (run e files (.count rows)) _ := settle_sends fun f _ =>
      (job_sends (Engine.count_sends rows.table f rows.softDelete)).map _
    simp only [readUnused, compile, countBehind, pure_bind, bind_assoc, mapError_bind,
      mapError_pure] at h ⊢
    exact h
  | remove rows =>
    have h : e.Sends s (run e files (.remove rows)) _ := settle_sends fun f _ =>
      (job_sends (Engine.remove_sends rows.table f rows.softDelete)).map _
    simp only [readUnused, compile, countBehind, pure_bind, bind_assoc, mapError_bind,
      mapError_pure] at h ⊢
    exact h
  | insert records =>
    have h : e.Sends s (run e files (.insert records)) _ := settle_sends fun data _ =>
      settle_sends fun spec _ => (job_sends (Engine.insert_sends records.table data spec)).map _
    simp only [readUnused, compile, countBehind, pure_bind, bind_assoc, mapError_bind,
      mapError_pure, List.append_nil] at h ⊢
    -- A run names the fault of the data first, where both the data and the constraints have one.
    refine h.congr fun statements => ?_
    rcases records.readData files with f | data <;>
      rcases records.readConstraints files with f' | spec
    · exact ⟨nofun, nofun⟩
    all_goals exact Iff.rfl
  | upsert records =>
    have h : e.Sends s (run e files (.upsert records)) _ := settle_sends fun data _ =>
      settle_sends fun spec _ => (job_sends (Engine.upsert_sends records.table data spec)).map _
    simp only [readUnused, compile, countBehind, pure_bind, bind_assoc, mapError_bind,
      mapError_pure, List.append_nil] at h ⊢
    -- A run reads the constraints before it aligns the records.
    refine h.congr fun statements => ?_
    rcases records.readData files with f | data
    · exact Iff.rfl
    · simp only [ok_bind]
      rcases records.readConstraints files with f' | spec <;>
        rcases RowSet.ofJson data with err | rows
      · exact ⟨nofun, nofun⟩
      · exact ⟨nofun, nofun⟩
      all_goals exact Iff.rfl
  | query sql params =>
    have h : e.Sends s (run e files (.query sql params)) _ := settle_sends fun values _ =>
      (job_sends (Engine.runQuery_sends sql values)).map _
    simp only [readUnused, compile, countBehind, pure_bind, bind_assoc, List.append_nil] at h ⊢
    exact h

/-- What a run reads besides is readable, unless it is the constraints of an insert. -/
theorem readUnused_eq_error_iff (files : Files) (op : Operation) :
    (∃ f, op.readUnused files = .error f) ↔
      ∃ records, op = .insert records ∧ ∃ f, records.readConstraints files = .error f := by
  cases op with
  | insert records =>
    rw [readUnused]
    constructor
    · rintro ⟨f, hf⟩
      cases hspec : records.readConstraints files with
      | error f' => exact ⟨records, rfl, f', hspec⟩
      | ok spec =>
        rw [hspec] at hf
        cases hf
    · rintro ⟨records', hrecords, f, hf⟩
      cases hrecords
      exact ⟨f, by rw [hf]; rfl⟩
  | _ =>
    -- No other operation leaves a part of its input unread in a dry run.
    constructor
    · rintro ⟨f, hf⟩
      cases hf
    · rintro ⟨records, hrecords, -⟩
      cases hrecords

/-- What can be selected can be counted behind it. -/
theorem exists_countBehind {c : Compiler} {files : Files} {op : Operation}
    {shown : List Statement} (h : op.compile c files = .ok shown) :
    ∃ counts, op.countBehind c files = .ok counts := by
  have hcount {rows : Selection} {order : SortOrder} {page : Option Page} {q : List Statement}
      (h : (do
        let f ← rows.read files
        return [← (c.select rows.table f order rows.softDelete page).mapError .error] :
          Except Failure (List Statement)) = .ok q) :
      ∃ counts, compile c files (.count rows) = .ok counts := by
    obtain ⟨f, hf, h⟩ := exists_of_bind_eq_ok h
    obtain ⟨q, hq, -⟩ := exists_of_bind_eq_ok h
    cases hselect : c.select rows.table f order rows.softDelete page with
    | error err => rw [hselect] at hq; cases hq
    | ok q =>
      obtain ⟨n, hn, -⟩ := Compiler.exists_count_of_select hselect
      exact ⟨[n], by rw [compile, hf, ok_bind, hn]; rfl⟩
  cases op with
  | get rows order => exact hcount h
  | list rows order page => exact hcount h
  | _ => exact ⟨[], rfl⟩

/-- **When a dry run shows what a run does.**  A run is refused before anything is sent exactly when
the dry run is refused, or when it is an insert whose constraints cannot be read: these are looked
at by a run only.  Apart from that, on a backend that answers every call, a run succeeds and has
sent the statements of the dry run in order, with a read the count of its rows behind them, whether
the chunks of a write go one after another or at once. -/
theorem run_refused_iff (files : Files) (op : Operation) (s : Session σ) :
    ((∃ f s', (op.run e files).run s = (.error f, s') ∧ s'.calls = s.calls) ↔
      (∃ f, op.compile e.compiler files = .error f) ∨
        ∃ records, op = .insert records ∧ ∃ f, records.readConstraints files = .error f) ∧
    ∀ shown, op.compile e.compiler files = .ok shown →
      (∀ records, op = .insert records →
        ∃ spec, records.readConstraints files = .ok spec) →
      e.backend.Answers →
      ∃ counts result s', op.countBehind e.compiler files = .ok counts ∧
        (op.run e files).run s = (.ok result, s') ∧
        s'.calls.map (·.content) =
          s.calls.map (·.content) ++ (shown ++ counts).map (·.content) := by
  have hsends := run_sends e files op s
  rw [← readUnused_eq_error_iff]
  rcases hunused : op.readUnused files with f | ⟨⟩
  · -- The run stops at the constraints, which the dry run has not looked at.
    rw [hunused] at hsends
    refine ⟨⟨fun _ => .inr ⟨f, rfl⟩, fun _ => hsends⟩, fun shown _ hreadable => ?_⟩
    obtain ⟨records, hop, f', hf'⟩ := (readUnused_eq_error_iff files op).1 ⟨f, hunused⟩
    obtain ⟨spec, hspec⟩ := hreadable records hop
    cases hf'.symm.trans hspec
  · rw [hunused, ok_bind] at hsends
    rcases hcompiled : op.compile e.compiler files with f | shown
    · rw [hcompiled] at hsends
      exact ⟨⟨fun _ => .inl ⟨f, rfl⟩, fun _ => hsends⟩, nofun⟩
    · -- Both have read everything, so the run sends what the dry run shows.
      obtain ⟨counts, hcounts⟩ := exists_countBehind hcompiled
      rw [hcompiled, ok_bind, hcounts, ok_bind] at hsends
      obtain ⟨hfails, hanswered⟩ := hsends
      refine ⟨⟨?_, ?_⟩, ?_⟩
      · rintro ⟨f, s', hrun, hsame⟩
        exact absurd hsame (hfails f s' hrun)
      · rintro (⟨f, hf⟩ | ⟨f, hf⟩)
        · cases hf
        · cases hf
      · rintro shown' hshown - hanswers
        obtain rfl := Except.ok.inj hshown
        obtain ⟨result, s', hrun, hsent⟩ := hanswered hanswers
        exact ⟨counts, result, s', hcounts, hrun, hsent⟩

/-- An insert whose constraints are a number is shown by a dry run, and a run refuses it. -/
theorem run_refused_iff_unread :
    ∃ shown f s', (Operation.insert ⟨"t", "\x7b\"a\": 1\x7d", some "5"⟩).compile
        (.ofDialect .sqlite) (fun _ => none) = .ok shown ∧
      shown = [⟨"INSERT INTO \"t\" (\"a\") VALUES (?1) RETURNING *", [.int 1], true⟩] ∧
      ((Operation.insert ⟨"t", "\x7b\"a\": 1\x7d", some "5"⟩).run
        (.ofDialect .scripted .sqlite {}) (fun _ => none)).run { database := [] } =
          (.error f, s') ∧ s'.calls = [] := by
  have hspec : Submission.readConstraints ⟨"t", "\x7b\"a\": 1\x7d", some "5"⟩ (fun _ => none) =
      .error (.inConstraints (.invalidConstraint (.notArray (.int 5)))) := by
    rfl
  obtain ⟨hrefused, -⟩ := run_refused_iff (.ofDialect .scripted .sqlite {}) (fun _ => none)
    (.insert ⟨"t", "\x7b\"a\": 1\x7d", some "5"⟩) { database := [] }
  -- The run is refused for the constraints, which leaves the dry run to be computed.
  obtain ⟨f, s', hrun, hcalls⟩ := hrefused.2 (.inr ⟨_, rfl, _, hspec⟩)
  have hvalue : Json.value 18 Json.maxDepth ['\x7b', '"', 'a', '"', ':', ' ', '1', '\x7d'] =
      some (.obj [("a", .int 1)], []) := by
    rfl
  have hparse : Json.parse? "\x7b\"a\": 1\x7d" = some (.obj [("a", .int 1)]) := by
    simp [Json.parse?, hvalue, Json.skipSpace]
  have hdata : Submission.readData ⟨"t", "\x7b\"a\": 1\x7d", some "5"⟩ (fun _ => none) =
      .ok (.obj [("a", .int 1)]) := by
    simp only [Submission.readData, readDocument, hparse]
    rfl
  have hrows : RowSet.ofJson (.obj [("a", .int 1)]) = .ok ⟨["a"], [[.int 1]]⟩ := rfl
  have ht : TableName.resolve "t" (Compiler.ofDialect .sqlite).options.schema =
      .ok ⟨none, "t"⟩ := rfl
  have hplan := (Compiler.insert_yields ht ⟨["a"], [[.int 1]]⟩ _).2 ⟨by decide, rfl⟩
  rw [Compiler.chunked, chunks_of_length_le (List.cons_ne_nil _ _)
    (show 1 ≤ (Compiler.ofDialect .sqlite).chunkSize 1 by decide)] at hplan
  refine ⟨_, f, s', ?_, rfl, hrun, hcalls⟩
  rw [compile, hdata, ok_bind, hrows]
  simp only [Except.mapError, ok_bind, hplan]
  refine congrArg Except.ok ?_
  decide +kernel

end Operation
end CommandLine
end Querysmith
