/-
# Tokens of SQL text

The words that a statement is made of.  A name stands between double quotes and a text between
single ones, and a quote inside either is written twice, so whatever a name or a text holds is one
token and never a keyword, a sign or a placeholder (`quotedBody_double`).
-/

import Querysmith.Text

namespace Querysmith
namespace Sql

/-- A token. -/
inductive Token where
  /-- A name between double quotes. -/
  | name (s : String)
  /-- A text between single quotes. -/
  | text (s : String)
  /-- Bytes, written as `x'00ff'`. -/
  | blob (bytes : List UInt8)
  /-- A keyword or a name without quotes. -/
  | word (s : String)
  /-- A number as it is written, without a sign. -/
  | number (s : String)
  /-- The placeholder of the value with a number, counted from one. -/
  | placeholder (n : Nat)
  | sign (s : String)
  deriving DecidableEq, Repr, Inhabited

namespace Token

/-- What stands up to a closing quote, and what follows it.  A quote that is written twice does not
close. -/
def quotedBody (quote : Char) : List Char → Option (List Char × List Char)
  | [] => none
  | [c] => if c = quote then some ([], []) else none
  | c :: d :: rest =>
    if c ≠ quote then (quotedBody quote (d :: rest)).map fun (body, rest) => (c :: body, rest)
    else if d = quote then (quotedBody quote rest).map fun (body, rest) => (quote :: body, rest)
    else some ([], d :: rest)

/-- **What is quoted reads back,** whatever it holds, when no quote follows its closing one. -/
theorem quotedBody_double (q : Char) (cs rest : List Char) (h : rest.head? ≠ some q) :
    quotedBody q (Text.double q cs ++ q :: rest) = some (cs, rest) := by
  induction cs with
  | nil =>
    cases rest with
    | nil => simp [Text.double, quotedBody]
    | cons d rest =>
      have : d ≠ q := fun hd => h (by simp [hd])
      simp [Text.double, quotedBody, this]
  | cons c cs ih =>
    -- A quote is doubled, and the pair is read as one; any other character is read as it is.
    by_cases hc : c = q
    · subst hc
      simp only [Text.double, List.flatMap_cons] at ih ⊢
      simp [quotedBody, ih]
    · simp only [Text.double, List.flatMap_cons, if_neg hc] at ih ⊢
      cases hs : (cs.flatMap fun x => if x = q then [x, x] else [x]) ++ q :: rest with
      | nil => simp at hs
      | cons d ds =>
        rw [List.append_assoc, hs]
        rw [hs] at ih
        simp [quotedBody, hc, ih]

/-- The bytes that pairs of hexadecimal digits write. -/
def bytes? : List Char → Option (List UInt8)
  | [] => some []
  | a :: b :: rest => do
    let high ← Text.hexValue? a
    let low ← Text.hexValue? b
    return UInt8.ofNat (16 * high + low) :: (← bytes? rest)
  | [_] => none

/-- The blanks between tokens. -/
def isSpace (c : Char) : Bool :=
  c = ' ' || (9 ≤ c.toNat && c.toNat ≤ 13)

/-- The character may begin a word. -/
def isWordStart (c : Char) : Bool :=
  c.isAlpha || c = '_' || 128 ≤ c.toNat

/-- The character may stand inside a word. -/
def isWordPart (c : Char) : Bool :=
  isWordStart c || c.isDigit

/-- The exponent at the head of a text: its letter, perhaps a sign, and digits. -/
def exponent (cs : List Char) : List Char × List Char :=
  match cs with
  | [] => ([], [])
  | e :: rest =>
    let (mark, digits) := match rest with
      | '+' :: digits => (['+'], digits)
      | '-' :: digits => (['-'], digits)
      | digits => ([], digits)
    let power := digits.takeWhile Char.isDigit
    if (e = 'e' ∨ e = 'E') ∧ power ≠ [] then
      (e :: mark ++ power, digits.dropWhile Char.isDigit)
    else ([], cs)

/-- A number at the head of a text: digits, perhaps a fraction, perhaps an exponent. -/
def numeral (cs : List Char) : List Char × List Char :=
  let whole := cs.takeWhile Char.isDigit
  let (fraction, rest) := match cs.dropWhile Char.isDigit with
    | '.' :: rest => ('.' :: rest.takeWhile Char.isDigit, rest.dropWhile Char.isDigit)
    | rest => ([], rest)
  let (power, rest) := exponent rest
  (whole ++ fraction ++ power, rest)

/-- The signs of two characters. -/
def pairs : List String := ["!=", "<=", ">=", "<>", "::"]

/-- The sign at the head of a text. -/
def signAt : List Char → Option (Token × List Char)
  | [] => none
  | [c] => some (sign (String.ofList [c]), [])
  | c :: d :: rest =>
    let pair := String.ofList [c, d]
    if pairs.contains pair then some (sign pair, rest)
    else some (sign (String.ofList [c]), d :: rest)

/-- The token at the head of a text that begins with no blank, and the rest of the text. -/
def first? : List Char → Option (Token × List Char)
  | [] => none
  | '"' :: rest => (quotedBody '"' rest).map fun (body, rest) => (name (String.ofList body), rest)
  | '\'' :: rest => (quotedBody '\'' rest).map fun (body, rest) => (text (String.ofList body), rest)
  | c :: rest =>
    if (c = 'x' ∨ c = 'X') ∧ rest.head? = some '\'' then do
      let (body, rest) ← quotedBody '\'' (rest.drop 1)
      return (blob (← bytes? body), rest)
    else if c.isDigit ∨ (c = '.' ∧ rest.head?.any Char.isDigit) then
      let (digits, rest) := numeral (c :: rest)
      some (number (String.ofList digits), rest)
    else if isWordStart c then
      some (word (String.ofList (c :: rest.takeWhile isWordPart)), rest.dropWhile isWordPart)
    else if (c = '?' ∨ c = '$') ∧ rest.head?.any Char.isDigit then
      some (placeholder (Text.readDecimal (rest.takeWhile Char.isDigit)),
        rest.dropWhile Char.isDigit)
    else signAt (c :: rest)

/-- The tokens of a text, collected in reverse.  Every step takes a character at least, so the
length of the text bounds their number. -/
def readFrom : Nat → List Token → List Char → Option (List Token)
  | _, acc, [] => some acc.reverse
  | 0, _, _ => none
  | fuel + 1, acc, c :: cs =>
    if isSpace c then readFrom fuel acc cs
    else match first? (c :: cs) with
      | some (t, rest) => readFrom fuel (t :: acc) rest
      | none => none

/-- The tokens of a text, unless a quote is left open. -/
def read? (sql : String) : Option (List Token) :=
  readFrom sql.toList.length [] sql.toList

end Token
end Sql
end Querysmith
