/-
# Text

Blank characters, trimming, ASCII case, searching and the decimal digits of natural numbers.  The
definitions that a reader or a writer is built on work on `List Char`; the names that take a
`String` are those same definitions on its characters.  Numbers are written and read back without
loss (`readDecimal_decimal`).
-/

namespace Querysmith
namespace Text

/-- The 25 characters with the Unicode property `White_Space`. -/
def isBlank (c : Char) : Bool :=
  let n := c.toNat
  (9 ≤ n && n ≤ 13) || n == 0x20 || n == 0x85 || n == 0xA0 || n == 0x1680 ||
    (0x2000 ≤ n && n ≤ 0x200A) || n == 0x2028 || n == 0x2029 || n == 0x202F || n == 0x205F ||
    n == 0x3000

/-- The characters without the blank ones at both ends. -/
def trimChars (cs : List Char) : List Char :=
  ((cs.dropWhile isBlank).reverse.dropWhile isBlank).reverse

/-- The text without the blank characters at both ends. -/
def trim (s : String) : String :=
  String.ofList (trimChars s.toList)

/-- The text with the ASCII capital letters in lower case; every other character is kept. -/
def lowerAscii (s : String) : String :=
  String.ofList (s.toList.map Char.toLower)

/-- `needle` stands somewhere in the list. -/
def occursIn (needle : List Char) : List Char → Bool
  | [] => needle.isEmpty
  | c :: cs => needle.isPrefixOf (c :: cs) || occursIn needle cs

/-- `needle` stands somewhere in the text; the empty text stands in every text. -/
def contains (s needle : String) : Bool :=
  occursIn needle.toList s.toList

/-- The text begins with `start`. -/
def startsWith (s start : String) : Bool :=
  start.toList.isPrefixOf s.toList

/-- The text ends with `ending`. -/
def endsWith (s ending : String) : Bool :=
  ending.toList.isSuffixOf s.toList

/-- The part before and the part after the first place where `mark` stands. -/
def splitFirst (mark : List Char) : List Char → Option (List Char × List Char)
  | [] => if mark.isEmpty then some ([], []) else none
  | c :: cs =>
    if mark.isPrefixOf (c :: cs) then some ([], (c :: cs).drop mark.length)
    else (splitFirst mark cs).map fun (before, after) => (c :: before, after)

/-- The two parts of a text around the first place where `mark` stands. -/
def splitOnce (s mark : String) : Option (String × String) :=
  (splitFirst mark.toList s.toList).map fun (before, after) =>
    (String.ofList before, String.ofList after)

/-- The pieces between the places where `mark` stands; always at least one. -/
def splitOn (mark : Char) : List Char → List (List Char)
  | [] => [[]]
  | c :: cs =>
    if c = mark then [] :: splitOn mark cs
    else match splitOn mark cs with
      | [] => [[c]]
      | piece :: pieces => (c :: piece) :: pieces

/-- Every character twice that is `c`, and all others once: how a quote is written inside quotes. -/
def double (c : Char) (cs : List Char) : List Char :=
  cs.flatMap fun x => if x = c then [x, x] else [x]

/-- The texts one after another with `sep` between two neighbours. -/
def joinWith (sep : String) : List String → String
  | [] => ""
  | s :: rest => rest.foldl (fun acc t => acc ++ sep ++ t) s

/-- The character that writes a digit below ten. -/
def digitChar (d : Nat) : Char :=
  Char.ofNat (48 + d % 10)

/-- The number that a digit character writes. -/
def digitValue (c : Char) : Nat :=
  c.toNat - 48

/-- The decimal digits of a natural number, without leading zeros. -/
def decimal (n : Nat) : List Char :=
  if n < 10 then [digitChar n] else decimal (n / 10) ++ [digitChar n]
termination_by n
decreasing_by omega

/-- The number that a list of decimal digits writes, leading zeros included. -/
def readDecimal (cs : List Char) : Nat :=
  cs.foldl (fun n c => 10 * n + digitValue c) 0

/-- A digit has the value it is written for. -/
theorem digitValue_digitChar {d : Nat} (h : d < 10) : digitValue (digitChar d) = d := by
  have : ∀ d : Fin 10, digitValue (digitChar d) = d := by decide
  exact this ⟨d, h⟩

/-- What is written for a digit is a digit. -/
theorem isDigit_digitChar (d : Nat) : (digitChar d).isDigit = true := by
  have : ∀ d : Fin 10, (Char.ofNat (48 + d)).isDigit = true := by decide
  exact this ⟨d % 10, Nat.mod_lt d (by decide)⟩

/-- A digit more makes ten times the number, and the digit. -/
theorem readDecimal_append_singleton (cs : List Char) (c : Char) :
    readDecimal (cs ++ [c]) = 10 * readDecimal cs + digitValue c := by
  rw [readDecimal, List.foldl_append]
  rfl

/-- **The digits of a number read back as that number.** -/
theorem readDecimal_decimal (n : Nat) : readDecimal (decimal n) = n := by
  induction n using decimal.induct with
  | case1 n h =>
    rw [decimal, if_pos h]
    simp [readDecimal, digitValue_digitChar h]
  | case2 n h ih =>
    rw [decimal, if_neg h, readDecimal_append_singleton, ih]
    have : digitChar n = digitChar (n % 10) := by simp [digitChar]
    rw [this, digitValue_digitChar (Nat.mod_lt n (by decide))]
    omega

/-- Every number has a digit. -/
theorem decimal_ne_nil (n : Nat) : decimal n ≠ [] := by
  rw [decimal]
  split <;> simp

/-- A number is written with digits only. -/
theorem isDigit_of_mem_decimal {n : Nat} {c : Char} (h : c ∈ decimal n) : c.isDigit = true := by
  induction n using decimal.induct with
  | case1 n hn =>
    rw [decimal, if_pos hn, List.mem_singleton] at h
    exact h ▸ isDigit_digitChar n
  | case2 n hn ih =>
    rw [decimal, if_neg hn, List.mem_append, List.mem_singleton] at h
    rcases h with h | rfl
    · exact ih h
    · exact isDigit_digitChar n

/-- The decimal text of a natural number. -/
def ofNat (n : Nat) : String :=
  String.ofList (decimal n)

/-- The decimal text of an integer, with a minus sign in front of a negative one. -/
def ofInt (i : Int) : String :=
  if i < 0 then String.ofList ('-' :: decimal i.natAbs) else ofNat i.natAbs

/-- One digit or more, and nothing else. -/
def isDigits (cs : List Char) : Bool :=
  !cs.isEmpty && cs.all Char.isDigit

/-- A number is written with digits alone, and with one at least. -/
theorem isDigits_decimal (n : Nat) : isDigits (decimal n) = true := by
  rw [isDigits, Bool.and_eq_true, List.all_eq_true]
  exact ⟨by simp [decimal_ne_nil], fun _ => isDigit_of_mem_decimal⟩

/-- One digit or more, perhaps with a minus sign in front. -/
def isSignedDigits : List Char → Bool
  | '-' :: cs => isDigits cs
  | cs => isDigits cs

/-- The integer that digits with a perhaps leading minus sign write. -/
def readSigned : List Char → Int
  | '-' :: cs => -(readDecimal cs : Int)
  | cs => readDecimal cs

/-- The value of a hexadecimal digit of either case. -/
def hexValue? (c : Char) : Option Nat :=
  if c.isDigit then some (c.toNat - 48)
  else if 'a' ≤ c ∧ c ≤ 'f' then some (c.toNat - 87)
  else if 'A' ≤ c ∧ c ≤ 'F' then some (c.toNat - 55)
  else none

/-- The lower-case hexadecimal digit of a number below sixteen. -/
def hexDigit (d : Nat) : Char :=
  if d % 16 < 10 then Char.ofNat (48 + d % 16) else Char.ofNat (87 + d % 16)

/-- The lower-case hexadecimal digits of a natural number, without leading zeros. -/
def hexadecimal (n : Nat) : List Char :=
  if n < 16 then [hexDigit n] else hexadecimal (n / 16) ++ [hexDigit n]
termination_by n
decreasing_by omega

end Text
end Querysmith
