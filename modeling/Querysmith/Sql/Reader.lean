/-
# Reading commands

A reader of the statements that reads, inserts, updates and removals are written as.  It takes the
tokens of a text from the front; what it leaves over makes the whole text unreadable.
-/

import Querysmith.Sql.Command
import Querysmith.Sql.Token

namespace Querysmith
namespace Sql

/-- Takes tokens from the front, or fails. -/
abbrev Reader := StateT (List Token) Option

namespace Reader

/-- The next token. -/
def next : Reader Token
  | [] => none
  | t :: rest => some (t, rest)

/-- A token that has to be there. -/
def expect (t : Token) : Reader Unit := do
  guard ((← next) = t)

/-- A sign that has to be there. -/
def sign (s : String) : Reader Unit := expect (.sign s)

/-- The token is the keyword, in either case. -/
def isKeyword (keyword : String) : Token → Bool
  | .word w => Text.lowerAscii w == keyword
  | _ => false

/-- A keyword that has to be there. -/
def keyword (s : String) : Reader Unit := do
  guard (isKeyword s (← next))

/-- Keywords one after another. -/
def keywords (words : List String) : Reader Unit :=
  words.forM keyword

/-- What the reader takes, or nothing when it fails. -/
def optional {α : Type} (r : Reader α) : Reader (Option α) := fun ts =>
  match r ts with
  | some (a, rest) => some (some a, rest)
  | none => some (none, ts)

/-- Items with a separator between two neighbours, collected in reverse. -/
def separated {α : Type} (isSeparator : Token → Bool) (item : Reader α) :
    Nat → List α → Reader (List α)
  | 0, _, _ => none
  | fuel + 1, acc, ts =>
    match item ts with
    | none => none
    | some (a, []) => some ((a :: acc).reverse, [])
    | some (a, t :: rest) =>
      if isSeparator t then separated isSeparator item fuel (a :: acc) rest
      else some ((a :: acc).reverse, t :: rest)

/-- One item or more with commas between them; `fuel` bounds their number. -/
def list {α : Type} (fuel : Nat) (item : Reader α) : Reader (List α) :=
  separated (· == .sign ",") item fuel []

/-- What stands between parentheses. -/
def parenthesized {α : Type} (r : Reader α) : Reader α := do
  sign "("
  let a ← r
  sign ")"
  return a

/-- A name, with or without quotes. -/
def name : Reader String := do
  match ← next with
  | .name s | .word s => return s
  | _ => failure

/-- A table, perhaps behind its schema and a dot. -/
def table : Reader TableName := do
  let first ← name
  match ← optional (do sign "."; name) with
  | some second => return ⟨some first, second⟩
  | none => return ⟨none, first⟩

/-- The value of a number: an integer, unless it has a fraction or an exponent or is beyond 64
bits. -/
def numberValue? (negative : Bool) (digits : String) : Option SqlValue :=
  let written := if negative then '-' :: digits.toList else digits.toList
  let i := Text.readSigned written
  if Text.isDigits digits.toList ∧ SqlValue.minInt ≤ i ∧ i ≤ SqlValue.maxInt then some (.int i)
  else (Binary64.ofText? (String.ofList written)).map .float

/-- A value. -/
def term : Reader Term := do
  match ← next with
  | .placeholder n => return .placeholder n
  | .text s => return .literal (.text s)
  | .blob bytes => return .literal (.blob bytes)
  | .number digits => return .literal (← (numberValue? false digits : Option SqlValue))
  | .sign "-" =>
    match ← next with
    | .number digits => return .literal (← (numberValue? true digits : Option SqlValue))
    | _ => failure
  | t => if isKeyword "null" t then return .literal .null else failure

/-- The operators that are signs. -/
def comparison? (s : String) : Option Operator :=
  [Operator.equal, .notEqual, .less, .greater, .lessOrEqual, .greaterOrEqual].find? (·.sql == s)

/-- The rest of a test behind its column. -/
def testOn (fuel : Nat) (column : String) : Reader Test := do
  let member (negated : Bool) : Reader Test := do
    return .member column negated (← parenthesized (list fuel term))
  match ← next with
  | .sign s =>
    let op ← (comparison? s : Option Operator)
    return .compare column op (← term)
  | t =>
    if isKeyword "like" t then return .compare column .like (← term)
    else if isKeyword "in" t then member false
    else if isKeyword "not" t then
      let t ← next
      if isKeyword "like" t then return .compare column .notLike (← term)
      else if isKeyword "in" t then member true
      else failure
    else failure

/-- One test. -/
def test (fuel : Nat) : Reader Test := do
  match ← next with
  | .name column => testOn fuel column
  | .number "1" =>
    sign "="
    match ← next with
    | .number "0" => return .constant false
    | .number "1" => return .constant true
    | _ => failure
  | _ => failure

/-- `WHERE ((a AND b) OR (c))` -/
def clause (fuel : Nat) : Reader Clause := do
  keyword "where"
  parenthesized (separated (isKeyword "or")
    (parenthesized (separated (isKeyword "and") (test fuel) fuel [])) fuel [])

/-- A key of an order. -/
def sortKey : Reader SortKey := do
  let column ← name
  let t ← next
  if isKeyword "asc" t then return ⟨column, .ascending⟩
  else if isKeyword "desc" t then return ⟨column, .descending⟩
  else failure

/-- `ORDER BY a ASC, b DESC` -/
def order (fuel : Nat) : Reader (List SortKey) := do
  keywords ["order", "by"]
  list fuel sortKey

/-- `LIMIT a OFFSET b` -/
def page : Reader (Term × Term) := do
  keyword "limit"
  let limit ← term
  keyword "offset"
  return (limit, ← term)

/-- A value with its name. -/
def item : Reader (Term × String) := do
  let value ← term
  keyword "as"
  return (value, ← name)

/-- The rest of a selection of rows. -/
def rows (fuel : Nat) : Reader Command := do
  sign "*"
  keyword "from"
  let table ← table
  let clause ← optional (clause fuel)
  let order ← optional (order fuel)
  return .select table clause (order.getD []) (← optional page)

/-- The rest of a count. -/
def number (fuel : Nat) : Reader Command := do
  keyword "count"
  parenthesized (sign "*")
  keyword "as"
  let name ← name
  keyword "from"
  let table ← table
  return .count table name (← optional (clause fuel))

/-- `ON CONFLICT (a) DO UPDATE SET b = EXCLUDED.b` -/
def conflict (fuel : Nat) : Reader ConflictClause := do
  keywords ["on", "conflict"]
  let target ← parenthesized (list fuel name)
  keywords ["do", "update", "set"]
  let updates ← list fuel do
    let column ← name
    sign "="
    keyword "excluded"
    sign "."
    return (column, ← name)
  return ⟨target, updates⟩

/-- What the reader takes as often as it does not fail, collected in reverse. -/
def many {α : Type} (r : Reader α) : Nat → List α → Reader (List α)
  | 0, acc, ts => some (acc.reverse, ts)
  | fuel + 1, acc, ts =>
    match r ts with
    | some (a, rest) => many r fuel (a :: acc) rest
    | none => some (acc.reverse, ts)

/-- The rest of an insert. -/
def insertion (fuel : Nat) : Reader Command := do
  keyword "into"
  let table ← table
  let columns ← parenthesized (list fuel name)
  keyword "values"
  let rows ← list fuel (parenthesized (list fuel term))
  let conflicts ← many (conflict fuel) fuel []
  let returning ← optional (do keyword "returning"; sign "*")
  return .insert table columns rows conflicts returning.isSome

/-- The rest of an update. -/
def change (fuel : Nat) : Reader Command := do
  let table ← table
  keyword "set"
  let column ← name
  sign "="
  let value ← term
  return .update table column value (← optional (clause fuel))

/-- The rest of a removal. -/
def removal (fuel : Nat) : Reader Command := do
  keyword "from"
  let table ← table
  return .delete table (← optional (clause fuel))

/-- A command; `fuel` bounds the length of its lists. -/
def command (fuel : Nat) : Reader Command := do
  let t ← next
  if isKeyword "select" t then
    (.values <$> list fuel item) <|> number fuel <|> rows fuel
  else if isKeyword "insert" t then insertion fuel
  else if isKeyword "update" t then change fuel
  else if isKeyword "delete" t then removal fuel
  else failure

end Reader

/-- The command that a text writes. -/
def Command.read? (sql : String) : Option Command := do
  let tokens ← Token.read? sql
  match Reader.command tokens.length tokens with
  | some (command, []) => some command
  | _ => none

end Sql
end Querysmith
