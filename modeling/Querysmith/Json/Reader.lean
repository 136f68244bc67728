/-
# Reading JSON

A strict reader: no comments, no trailing commas, no leading zeros, no raw control characters in a
string, no lone surrogate in an escape, and nothing but the four JSON blanks around a value.  Arrays
and objects nest at most 127 deep.

A number without fraction and exponent that fits 64 bits is an integer.  Every other number is a
floating one, read in steps that each round: the digits that fit 64 bits as one whole number, then
the power of ten.  So a number with many digits may be read one unit of the last place off the
nearest one, and a number beyond the format is refused.
-/

import Querysmith.Json

namespace Querysmith
namespace Json

/-- The blanks that may stand around a value. -/
def isSpace (c : Char) : Bool :=
  c = ' ' || c = '\n' || c = '\t' || c = '\r'

/-- The text without the blanks in front. -/
def skipSpace (cs : List Char) : List Char :=
  cs.dropWhile isSpace

/-- Arrays and objects nest at most this deep. -/
def maxDepth : Nat := 127

/-! ### Numbers -/

/-- A significand stays below this bound, `2^64`. -/
def significandBound : Nat := 18446744073709551616

/-- Takes digits into the significand as long as it stays in its bound, and returns the digits that
no longer fit. -/
def gatherDigits (significand : Nat) : List Char → Nat × List Char
  | [] => (significand, [])
  | c :: cs =>
    let next := 10 * significand + Text.digitValue c
    if next < significandBound then gatherDigits next cs else (significand, c :: cs)

/-- Divides by a power of ten in steps of at most `10^308`. -/
def scaleDown (x : Binary64) (n : Nat) : Binary64 :=
  if n ≤ 308 then x.overTen n
  else if x.isZero then x
  else scaleDown (x.overTen 308) (n - 308)
termination_by n

/-- The number `significand · 10^exponent`, or none when it is beyond the format. -/
def scale (negative : Bool) (significand : Nat) (exponent : Int) : Option Binary64 :=
  let x := Binary64.round negative significand 1
  if exponent < 0 then some (scaleDown x (-exponent).toNat)
  else if x.isZero then some x
  else if 308 < exponent then none
  else
    let y := x.timesTen exponent.toNat
    if y.isFinite then some y else none

/-- The greatest power that an exponent field may write before its sign alone decides,
`2^31 - 1`. -/
def maxWrittenExponent : Nat := 2147483647

/-- The magnitude of the least integer, `2^63`. -/
def maxNegated : Nat := 9223372036854775808

/-- The power of ten of a number with an exponent field. -/
def withExponent (negative : Bool) (significand : Nat) (exponent : Int) (back : Bool)
    (field : List Char) : Option Binary64 :=
  let n := Text.readDecimal field
  if maxWrittenExponent < n then
    if significand ≠ 0 ∧ !back then none else some (Binary64.zero negative)
  else scale negative significand (if back then exponent - n else exponent + n)

/-- The exponent field that may follow the digits of a number. -/
def exponentField (negative : Bool) (significand : Nat) (exponent : Int) (cs : List Char) :
    Option (Json × List Char) :=
  match cs with
  | c :: rest =>
    if c = 'e' ∨ c = 'E' then
      let (back, rest) := match rest with
        | '-' :: rest => (true, rest)
        | '+' :: rest => (false, rest)
        | rest => (false, rest)
      let field := rest.takeWhile Char.isDigit
      if field.isEmpty then none
      else (withExponent negative significand exponent back field).map fun x =>
        (float x, rest.dropWhile Char.isDigit)
    else (scale negative significand exponent).map fun x => (float x, cs)
  | [] => (scale negative significand exponent).map fun x => (float x, [])

/-- The rest of a number behind its whole digits. -/
def numberTail (negative : Bool) (whole cs : List Char) : Option (Json × List Char) :=
  let (significand, excess) := gatherDigits 0 whole
  match cs with
  | '.' :: rest =>
    let fraction := rest.takeWhile Char.isDigit
    if fraction.isEmpty then none
    else
      let (significand, dropped) := gatherDigits significand fraction
      exponentField negative significand (excess.length - (fraction.length - dropped.length : Nat))
        (rest.dropWhile Char.isDigit)
  | c :: _ =>
    if c = 'e' ∨ c = 'E' ∨ !excess.isEmpty then
      exponentField negative significand excess.length cs
    else integer significand
  | [] => if excess.isEmpty then integer significand else exponentField negative significand
      excess.length []
where
  /-- A number of digits alone: an integer, unless it is below `-2^63` or is minus zero. -/
  integer (significand : Nat) : Option (Json × List Char) :=
    if !negative then some (int significand, cs)
    else if significand = 0 ∨ maxNegated < significand then
      some (float (Binary64.round true significand 1), cs)
    else some (int (-(significand : Int)), cs)

/-- A number: a perhaps leading minus sign, then digits without a leading zero. -/
def number (cs : List Char) : Option (Json × List Char) :=
  let (negative, cs) := match cs with
    | '-' :: rest => (true, rest)
    | cs => (false, cs)
  let whole := cs.takeWhile Char.isDigit
  match whole with
  | [] => none
  | '0' :: _ :: _ => none
  | _ => numberTail negative whole (cs.dropWhile Char.isDigit)

/-! ### Strings -/

/-- The number that four hexadecimal digits write. -/
def hexQuad? : List Char → Option (Nat × List Char)
  | a :: b :: c :: d :: rest => do
    let a ← Text.hexValue? a
    let b ← Text.hexValue? b
    let c ← Text.hexValue? c
    let d ← Text.hexValue? d
    some (4096 * a + 256 * b + 16 * c + d, rest)
  | _ => none

/-- The character of an escape, read behind its backslash.  A high surrogate needs a low one in an
escape of its own right behind it; a low one alone is refused. -/
def escaped? : List Char → Option (Char × List Char)
  | '"' :: rest => some ('"', rest)
  | '\\' :: rest => some ('\\', rest)
  | '/' :: rest => some ('/', rest)
  | 'b' :: rest => some (Char.ofNat 8, rest)
  | 'f' :: rest => some (Char.ofNat 12, rest)
  | 'n' :: rest => some ('\n', rest)
  | 'r' :: rest => some ('\r', rest)
  | 't' :: rest => some ('\t', rest)
  | 'u' :: rest => do
    let (high, rest) ← hexQuad? rest
    if high < 0xD800 ∨ 0xDFFF < high then some (Char.ofNat high, rest)
    else if 0xDBFF < high then none
    else match rest with
      | '\\' :: 'u' :: rest => do
        let (low, rest) ← hexQuad? rest
        if low < 0xDC00 ∨ 0xDFFF < low then none
        else some (Char.ofNat (0x10000 + 1024 * (high - 0xD800) + (low - 0xDC00)), rest)
      | _ => none
  | _ => none

/-- The characters of a string up to its closing quote, collected in reverse. -/
def stringBody : Nat → List Char → List Char → Option (String × List Char)
  | _, acc, '"' :: rest => some (String.ofList acc.reverse, rest)
  | fuel + 1, acc, '\\' :: rest =>
    match escaped? rest with
    | some (c, rest) => stringBody fuel (c :: acc) rest
    | none => none
  | fuel + 1, acc, c :: rest =>
    if c.toNat < 32 then none else stringBody fuel (c :: acc) rest
  | _, _, _ => none

/-- A string, read behind its opening quote. -/
def string (cs : List Char) : Option (String × List Char) :=
  stringBody cs.length [] cs

/-! ### Values -/

mutual

/-- A value at the head of the text; `depth` is how many arrays and objects may still open. -/
def value : Nat → Nat → List Char → Option (Json × List Char)
  | 0, _, _ => none
  | fuel + 1, depth, cs =>
    match skipSpace cs with
    | 'n' :: 'u' :: 'l' :: 'l' :: rest => some (null, rest)
    | 't' :: 'r' :: 'u' :: 'e' :: rest => some (bool true, rest)
    | 'f' :: 'a' :: 'l' :: 's' :: 'e' :: rest => some (bool false, rest)
    | '"' :: rest => (string rest).map fun (s, rest) => (str s, rest)
    | '[' :: rest =>
      match depth with
      | 0 => none
      | depth + 1 =>
        match skipSpace rest with
        | ']' :: rest => some (arr [], rest)
        | rest => items fuel depth [] rest
    | '\x7b' :: rest =>
      match depth with
      | 0 => none
      | depth + 1 =>
        match skipSpace rest with
        | '\x7d' :: rest => some (obj [], rest)
        | rest => fields fuel depth [] rest
    | rest => number rest

/-- The items of an array up to its bracket, collected in reverse. -/
def items : Nat → Nat → List Json → List Char → Option (Json × List Char)
  | 0, _, _, _ => none
  | fuel + 1, depth, acc, cs =>
    match value fuel depth cs with
    | none => none
    | some (v, rest) =>
      match skipSpace rest with
      | ',' :: rest => items fuel depth (v :: acc) rest
      | ']' :: rest => some (arr (v :: acc).reverse, rest)
      | _ => none

/-- The fields of an object up to its brace, collected in reverse. -/
def fields : Nat → Nat → List (String × Json) → List Char → Option (Json × List Char)
  | 0, _, _, _ => none
  | fuel + 1, depth, acc, cs =>
    match skipSpace cs with
    | '"' :: rest =>
      match string rest with
      | none => none
      | some (k, rest) =>
        match skipSpace rest with
        | ':' :: rest =>
          match value fuel depth rest with
          | none => none
          | some (v, rest) =>
            match skipSpace rest with
            | ',' :: rest => fields fuel depth ((k, v) :: acc) rest
            | '\x7d' :: rest => some (obj (ofPairs ((k, v) :: acc).reverse), rest)
            | _ => none
        | _ => none
    | _ => none

end

/-- The value that a whole text writes.  Each step of the reader consumes a character or opens the
value at hand, so twice the length of the text bounds their number. -/
def parse? (s : String) : Option Json :=
  let cs := s.toList
  match value (2 * cs.length + 2) maxDepth cs with
  | some (v, rest) => if (skipSpace rest).isEmpty then some v else none
  | none => none

end Json
end Querysmith
