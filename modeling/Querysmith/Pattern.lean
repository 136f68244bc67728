/-
# Column patterns

Regular expressions over column names: literal characters, `.` for any character but a line feed,
`^` and `$` for the two ends, sets such as `[a-z]` and `[^0-9]`, groups, alternatives, and `*`, `+`
and `?`.  A pattern is searched for anywhere in the name.

A match is described by positions: from one position an expression leads to the positions where a
match of it can end.
-/

import Querysmith.Text

namespace Querysmith

/-- The syntax tree of a pattern. -/
inductive Pattern where
  | empty
  /-- One character in one of the ranges, or in none of them when `inverted`. -/
  | set (inverted : Bool) (ranges : List (Char × Char))
  | atStart
  | atEnd
  | seq (a b : Pattern)
  | alt (a b : Pattern)
  | star (a : Pattern)
  deriving Repr, Inhabited

namespace Pattern

/-- A place in a text: whether it is the very start, and what follows. -/
structure Position where
  first : Bool
  rest : List Char
  deriving DecidableEq, Repr

/-- The positions that at most `fuel` steps reach from the ones seen. -/
def closure (step : Position → List Position) : Nat → List Position → List Position
  | 0, seen => seen
  | fuel + 1, seen => closure step fuel (seen ++ seen.flatMap step).eraseDups

/-- The positions where a match that begins at a position can end. -/
def ends : Pattern → Position → List Position
  | empty, p => [p]
  | set inverted ranges, p =>
    match p.rest with
    | [] => []
    | c :: cs =>
      if (ranges.any fun (low, high) => low ≤ c && c ≤ high) != inverted then [⟨false, cs⟩] else []
  | atStart, p => if p.first then [p] else []
  | atEnd, p => if p.rest.isEmpty then [p] else []
  | seq a b, p => ((ends a p).flatMap (ends b)).eraseDups
  | alt a b, p => (ends a p ++ ends b p).eraseDups
  | star a, p => closure (ends a) p.rest.length [p]

/-- The positions behind each character of a text. -/
def laterPositions : List Char → List Position
  | [] => []
  | _ :: rest => ⟨false, rest⟩ :: laterPositions rest

/-- Every position of a text, from the first to the one behind its last character. -/
def positions (cs : List Char) : List Position :=
  ⟨true, cs⟩ :: laterPositions cs

/-- The pattern matches somewhere in the text. -/
def isMatch (p : Pattern) (s : String) : Bool :=
  (positions s.toList).any fun q => !(ends p q).isEmpty

/-! ### Reading -/

/-- The pattern of one character. -/
def literal (c : Char) : Pattern := set false [(c, c)]

/-- The signs that a backslash makes literal. -/
def isEscapable (c : Char) : Bool :=
  c.toNat < 128 && !c.isAlphanum && c.toNat ≥ 32 && c != '<' && c != '>'

/-- One end of a range inside a set. -/
def setChar? : List Char → Option (Char × List Char)
  | '\\' :: c :: rest => if isEscapable c then some (c, rest) else none
  | '\\' :: [] => none
  | '[' :: _ => none
  | c :: rest => some (c, rest)
  | [] => none

/-- The ranges of a set up to its closing bracket. -/
def setRanges : Nat → List (Char × Char) → List Char → Option (List (Char × Char) × List Char)
  | 0, _, _ => none
  | fuel + 1, acc, cs =>
    match cs with
    | ']' :: rest => if acc.isEmpty then none else some (acc.reverse, rest)
    | cs =>
      match setChar? cs with
      | none => none
      | some (low, '-' :: ']' :: rest) => some ((('-', '-') :: (low, low) :: acc).reverse, rest)
      | some (low, '-' :: rest) =>
        match setChar? rest with
        | some (high, rest) => if low ≤ high then setRanges fuel ((low, high) :: acc) rest else none
        | none => none
      | some (c, rest) => setRanges fuel ((c, c) :: acc) rest

/-- A set, read behind its opening bracket; a closing bracket that comes first is a member. -/
def readSet (cs : List Char) : Option (Pattern × List Char) :=
  let (inverted, cs) := match cs with
    | '^' :: rest => (true, rest)
    | cs => (false, cs)
  let (acc, cs) := match cs with
    | ']' :: rest => ([(']', ']')], rest)
    | cs => ([], cs)
  (setRanges (cs.length + 1) acc cs).map fun (ranges, rest) => (set inverted ranges, rest)

/-- The repetition signs behind an expression; the sign for a shortest match has no effect on
whether there is one. -/
def repeated (a : Pattern) : List Char → Pattern × List Char
  | '*' :: '?' :: rest | '*' :: rest => repeated (star a) rest
  | '+' :: '?' :: rest | '+' :: rest => repeated (seq a (star a)) rest
  | '?' :: '?' :: rest | '?' :: rest => repeated (alt a empty) rest
  | rest => (a, rest)

mutual

/-- Alternatives up to a closing parenthesis or the end. -/
def readAlternatives : Nat → List Char → Option (Pattern × List Char)
  | 0, _ => none
  | fuel + 1, cs =>
    match readSequence fuel empty cs with
    | some (a, '|' :: rest) => (readAlternatives fuel rest).map fun (b, rest) => (alt a b, rest)
    | other => other

/-- A sequence of expressions, joined to what was read before. -/
def readSequence : Nat → Pattern → List Char → Option (Pattern × List Char)
  | 0, _, _ => none
  | fuel + 1, before, cs =>
    match cs with
    | [] => some (before, [])
    | '|' :: _ | ')' :: _ => some (before, cs)
    | _ =>
      match readAtom fuel cs with
      | none => none
      | some (a, rest) =>
        let (a, rest) := repeated a rest
        readSequence fuel (seq before a) rest

/-- One expression without its repetition signs. -/
def readAtom : Nat → List Char → Option (Pattern × List Char)
  | 0, _ => none
  | fuel + 1, cs =>
    match cs with
    | '(' :: '?' :: ':' :: rest => readGroup fuel rest
    | '(' :: '?' :: _ => none
    | '(' :: rest => readGroup fuel rest
    | '[' :: rest => readSet rest
    | '.' :: rest => some (set true [('\n', '\n')], rest)
    | '^' :: rest => some (atStart, rest)
    | '$' :: rest => some (atEnd, rest)
    | '\\' :: c :: rest => if isEscapable c then some (literal c, rest) else none
    | '\\' :: [] | '*' :: _ | '+' :: _ | '?' :: _ | '\x7b' :: _ | [] => none
    | c :: rest => some (literal c, rest)

/-- A group, read behind its opening parenthesis. -/
def readGroup : Nat → List Char → Option (Pattern × List Char)
  | 0, _ => none
  | fuel + 1, cs =>
    match readAlternatives fuel cs with
    | some (a, ')' :: rest) => some (a, rest)
    | _ => none

end

/-- The pattern that a text writes.  No character takes more than four steps. -/
def ofText? (s : String) : Option Pattern :=
  let cs := s.toList
  match readAlternatives (4 * cs.length + 4) cs with
  | some (p, []) => some p
  | _ => none

end Pattern
end Querysmith
