/-
# Backends

An engine needs two things of a database: run a statement and collect its rows, or run a statement
and tell how many rows it touched.  Running is a step of the state of the database, and it may take
a while: a reply says how many rounds of waiting pass before it is there.
-/

import Querysmith.Error
import Querysmith.RowSet
import Querysmith.Value

namespace Querysmith

/-- The outcome of a call, and how many rounds pass before it is there. -/
structure Reply (α : Type) where
  outcome : Except Error α
  delay : Nat := 0

/-- A database with states `σ`. -/
structure Backend (σ : Type) where
  query : σ → String → List SqlValue → Reply (List Record) × σ
  execute : σ → String → List SqlValue → Reply Nat × σ

/-- A prepared answer to a call. -/
structure ScriptedReply where
  failure : Option String := none
  rows : List Record := []
  affected : Nat := 0
  delay : Nat := 0

namespace Backend

/-- The reply that a prepared answer gives. -/
def answer {α : Type} (r : ScriptedReply) (value : α) : Reply α where
  outcome := match r.failure with
    | some message => .error (.engine message [])
    | none => .ok value
  delay := r.delay

/-- The backend that gives prepared answers in order, and empty ones when none is left. -/
def scripted : Backend (List ScriptedReply) where
  query replies _ _ :=
    let r := replies.headD {}
    (answer r r.rows, replies.drop 1)
  execute replies _ _ :=
    let r := replies.headD {}
    (answer r r.affected, replies.drop 1)

end Backend
end Querysmith
