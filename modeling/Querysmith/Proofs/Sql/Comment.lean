/-
# SQL text without its comments

What a database runs of a text.  A comment goes from two hyphens to the end of its line, unless the
hyphens stand inside quotes, and the character that ends the line is run again.  Databases differ in
the characters that end a line (`LineRule`).  The text is read character by character, and all that
a reader remembers is its `Place`: the text behind another one is read from the place where that one
has ended (`run_append`).  Comments between `/*` and `*/` and texts between dollar signs are left
out, since no fixed text of a statement begins one.

A line that begins with two blanks and two hyphens leaves the blanks to be run, when no quote is
open in front of it (`executed_commentLines`).
-/

import Querysmith.Text

namespace Querysmith

/-- Characters are written twice that were there before. -/
theorem Text.mem_double {q c : Char} {cs : List Char} : c ∈ double q cs ↔ c ∈ cs := by
  have hone : ∀ d, (c ∈ if d = q then [d, d] else [d]) ↔ c = d := fun d => by
    split <;> simp
  simp [double, hone]

namespace Sql

/-- The rule that tells which characters end a line, and with it a comment: a line feed does, as in
SQLite, and beside it at most a carriage return, as in PostgreSQL. -/
structure LineRule (ends : Char → Bool) : Prop where
  feed : ends '\n' = true
  only : ∀ c, ends c = true → c = '\n' ∨ c = '\r'

/-- The text stands on one line. -/
def IsLine (ends : Char → Bool) (cs : List Char) : Prop := ∀ c ∈ cs, ends c = false

/-- A character that is neither a line feed nor a carriage return ends no line. -/
theorem LineRule.eq_false {ends : Char → Bool} (hends : LineRule ends) {c : Char}
    (h : c ≠ '\n' ∧ c ≠ '\r') : ends c = false :=
  Bool.not_eq_true _ ▸ fun hc => (hends.only c hc).elim h.1 h.2

/-- A digit ends no line. -/
theorem LineRule.eq_false_of_isDigit {ends : Char → Bool} (hends : LineRule ends) {c : Char}
    (h : c.isDigit = true) : ends c = false := by
  refine hends.eq_false ⟨?_, ?_⟩ <;> rintro rfl <;> exact absurd h (by decide)

/-- In PostgreSQL a line feed or a carriage return ends a line. -/
theorem LineRule.postgres : LineRule fun c => c == '\n' || c == '\r' :=
  ⟨rfl, fun c h => by simpa using h⟩

/-- Where a reader of SQL text stands. -/
inductive Place where
  | code
  /-- Behind a hyphen, which a second one makes a comment. -/
  | hyphen
  | quoted (q : Char)
  | comment
  deriving DecidableEq, Repr

namespace Place

/-- Where a character of code leads that is no hyphen. -/
def behind (c : Char) : Place := if c = '\'' ∨ c = '"' then quoted c else code

/-- What is run when a character is read, and where the reader stands then.  A hyphen is held back
until the next character is known. -/
def step (ends : Char → Bool) : Place → Char → List Char × Place
  | code, c => if c = '-' then ([], hyphen) else ([c], behind c)
  | hyphen, c => if c = '-' then ([], comment) else (['-', c], behind c)
  | quoted q, c => ([c], if c = q then code else quoted q)
  | comment, c => if ends c then ([c], code) else ([], comment)

/-- What is held back. -/
def held : Place → List Char
  | hyphen => ['-']
  | _ => []

/-- What is run of a text, and where the reader stands behind it. -/
def run (ends : Char → Bool) : Place → List Char → List Char × Place
  | p, [] => ([], p)
  | p, c :: cs =>
    ((step ends p c).1 ++ (run ends (step ends p c).2 cs).1, (run ends (step ends p c).2 cs).2)

/-- What is run of a text that ends here. -/
def runAll (ends : Char → Bool) (p : Place) (cs : List Char) : List Char :=
  (run ends p cs).1 ++ (run ends p cs).2.held

/-- No quote is open. -/
def IsOutside (p : Place) : Prop := ∀ q, p ≠ quoted q

variable {ends : Char → Bool} {p : Place}

/-- **A text is read on from where the text before it has ended.** -/
theorem run_append (cs ds : List Char) : run ends p (cs ++ ds) =
    ((run ends p cs).1 ++ (run ends (run ends p cs).2 ds).1,
      (run ends (run ends p cs).2 ds).2) := by
  induction cs generalizing p with
  | nil => rfl
  | cons c cs ih => rw [List.cons_append, run, ih, run, List.append_assoc]

/-- What is executed of two texts is what is read of the first and what is executed of the second
behind it. -/
theorem runAll_append (cs ds : List Char) :
    runAll ends p (cs ++ ds) = (run ends p cs).1 ++ runAll ends (run ends p cs).2 ds := by
  rw [runAll, runAll, run_append, List.append_assoc]

/-- **Every end of a line is run,** wherever it stands. -/
theorem countP_run (hends : LineRule ends) (p : Place) (cs : List Char) :
    (run ends p cs).1.countP ends = cs.countP ends := by
  have hhyphen : ends '-' = false := hends.eq_false (by decide)
  have hstep : ∀ (p : Place) (c : Char), (step ends p c).1.countP ends = [c].countP ends := by
    -- A hyphen that is held back, or run late, ends no line.
    intro p c
    cases p <;> rw [step] <;> split <;> simp_all
  induction cs generalizing p with
  | nil => rfl
  | cons c cs ih =>
    rw [run, List.countP_append, hstep, ih, ← List.countP_append, List.singleton_append]

/-- No end of line is held back. -/
theorem countP_held (hends : LineRule ends) (p : Place) : p.held.countP ends = 0 := by
  have hhyphen : ends '-' = false := hends.eq_false (by decide)
  cases p <;> simp [held, hhyphen]

/-- In the code no quote is open. -/
theorem isOutside_code : code.IsOutside := fun _ h => nomatch h

/-- In a comment no quote is open. -/
theorem isOutside_comment : comment.IsOutside := fun _ h => nomatch h

/-- Outside quotes the end of a line leads back to code, and what was held back is run. -/
theorem step_of_ends (hends : LineRule ends) (hp : p.IsOutside) {c : Char} (hc : ends c = true) :
    step ends p c = (p.held ++ [c], code) := by
  have hplain : c ≠ '-' ∧ behind c = code := by
    rcases hends.only c hc with rfl | rfl <;> exact ⟨by decide, rfl⟩
  cases p with
  | code => rw [step, if_neg hplain.1, hplain.2]; rfl
  | hyphen => rw [step, if_neg hplain.1, hplain.2]; rfl
  | quoted q => exact absurd rfl (hp q)
  | comment => rw [step, if_pos hc]; rfl

/-- **Outside quotes the end of a line leads back to the code.** -/
theorem runAll_cons_of_ends (hends : LineRule ends) (hp : p.IsOutside) {c : Char}
    (hc : ends c = true) (cs : List Char) :
    runAll ends p (c :: cs) = p.held ++ c :: runAll ends code cs := by
  rw [runAll, run, step_of_ends hends hp hc]
  simp [runAll]

/-- A comment goes on to the end of its line. -/
theorem run_comment {cs : List Char} (h : IsLine ends cs) :
    run ends comment cs = ([], comment) := by
  induction cs with
  | nil => rfl
  | cons c cs ih =>
    rw [IsLine, List.forall_mem_cons] at h
    have hstep : step ends comment c = ([], comment) := if_neg (by simp [h.1])
    rw [run, hstep, ih h.2]
    rfl

/-- A text without quotes opens none. -/
theorem isOutside_run {cs : List Char} (h : ∀ c ∈ cs, c ≠ '\'' ∧ c ≠ '"') (hp : p.IsOutside) :
    (run ends p cs).2.IsOutside := by
  induction cs generalizing p with
  | nil => exact hp
  | cons c cs ih =>
    rw [List.forall_mem_cons] at h
    have hbehind : behind c = code := if_neg (by simp [h.1])
    refine ih h.2 fun q => ?_
    cases p with
    | code => rw [step]; split <;> simp [hbehind]
    | hyphen => rw [step]; split <;> simp [hbehind]
    | quoted q' => exact absurd rfl (hp q')
    | comment => rw [step]; split <;> simp

/-- A quote that is written twice closes and opens again. -/
theorem run_quoted_double (cs : List Char) :
    (run ends (quoted '"') (Text.double '"' cs)).2 = quoted '"' := by
  induction cs with
  | nil => rfl
  | cons c cs ih =>
    rw [Text.double, List.flatMap_cons, run_append]
    have hone : (run ends (quoted '"') (if c = '"' then [c, c] else [c])).2 = quoted '"' := by
      split
      · rename_i hc
        subst hc
        rfl
      · rename_i hc
        exact if_neg hc
    rw [hone]
    exact ih

/-- **A quoted name opens a quote and closes it,** whatever it holds, or stands in a comment that
it does not end. -/
theorem isOutside_run_name (hends : LineRule ends) (hp : p.IsOutside) {cs : List Char}
    (h : IsLine ends cs) :
    (run ends p ('"' :: (Text.double '"' cs ++ ['"']))).2.IsOutside := by
  have hquote : ends '"' = false := hends.eq_false (by decide)
  have hopened : (run ends (quoted '"') (Text.double '"' cs ++ ['"'])).2 = code := by
    rw [run_append, run_quoted_double]
    rfl
  cases p with
  | code =>
    rw [run, show step ends code '"' = (['"'], quoted '"') from rfl, hopened]
    exact isOutside_code
  | hyphen =>
    rw [run, show step ends hyphen '"' = (['-', '"'], quoted '"') from rfl, hopened]
    exact isOutside_code
  | quoted q => exact absurd rfl (hp q)
  | comment =>
    rw [run_comment]
    · exact isOutside_comment
    · simpa [IsLine, or_imp, forall_and, Text.mem_double, hquote] using h

/-! ### Lines that are comments -/

/-- What is run of lines that are comments behind two blanks. -/
def blankLines (n : Nat) : List Char := (List.replicate n ['\n', ' ', ' ']).flatten

/-- Blank lines have as many ends of lines as there are lines. -/
theorem countP_blankLines (hends : LineRule ends) (n : Nat) :
    (blankLines n).countP ends = n := by
  have hone : ['\n', ' ', ' '].countP ends = 1 := by
    simp [hends.feed, hends.eq_false]
  induction n with
  | zero => rfl
  | succ n ih =>
    rw [blankLines] at ih ⊢
    rw [List.replicate_succ, List.flatten_cons, List.countP_append, hone, ih, Nat.add_comm]

/-- The line is a comment behind two blanks. -/
def IsCommentLine (ends : Char → Bool) (line : List Char) : Prop :=
  "  --".toList <+: line ∧ IsLine ends line

/-- **Of a comment line nothing but its two blanks is executed.** -/
theorem run_commentLine {line : List Char} (h : IsCommentLine ends line) :
    run ends code line = ([' ', ' '], comment) := by
  obtain ⟨⟨body, rfl⟩, hline⟩ := h
  have hbody : run ends comment body = ([], comment) :=
    run_comment fun c hc => hline c (List.mem_append_right _ hc)
  have hmark : run ends code "  --".toList = ([' ', ' '], comment) := rfl
  rw [run_append, hmark, hbody]
  rfl

/-- **Of lines that are comments the blanks are run,** and no quote is open behind them. -/
theorem run_commentLines (hends : LineRule ends) (hp : p.IsOutside) {lines : List (List Char)}
    (h : ∀ line ∈ lines, IsCommentLine ends line) :
    runAll ends p (lines.flatMap ('\n' :: ·)) = p.held ++ blankLines lines.length ∧
      (run ends p (lines.flatMap ('\n' :: ·))).2.IsOutside := by
  induction lines generalizing p with
  | nil => exact ⟨by simp [runAll, run, blankLines], hp⟩
  | cons line lines ih =>
    rw [List.forall_mem_cons] at h
    obtain ⟨hrun, houtside⟩ := ih isOutside_comment h.2
    have hline := run_commentLine h.1
    rw [List.flatMap_cons, List.cons_append]
    constructor
    · rw [runAll_cons_of_ends hends hp hends.feed, runAll_append, hline, hrun]
      simp [held, blankLines, List.replicate_succ]
    · rw [run, step_of_ends hends hp hends.feed, run_append, hline]
      exact houtside

end Place

open Place

/-- What a database runs of a text. -/
def executed (ends : Char → Bool) (cs : List Char) : List Char := runAll ends code cs

variable {ends : Char → Bool} {head : List Char} {lines : List (List Char)}

/-- The executed text has the lines of the whole text. -/
theorem countP_executed (hends : LineRule ends) (cs : List Char) :
    (executed ends cs).countP ends = cs.countP ends := by
  rw [executed, runAll, List.countP_append, countP_run hends, countP_held hends, Nat.add_zero]

/-- **Comments below a text are not run,** when the text leaves no quote open. -/
theorem executed_commentLines (hends : LineRule ends) (hhead : (run ends code head).2.IsOutside)
    (h : ∀ line ∈ lines, IsCommentLine ends line) :
    executed ends (head ++ lines.flatMap ('\n' :: ·)) =
      executed ends head ++ blankLines lines.length := by
  rw [executed, runAll_append, (run_commentLines hends hhead h).1, executed, runAll,
    List.append_assoc]

/-- Behind the comments, on a line of its own, a text is run as it would be run alone. -/
theorem executed_commentLines_append (hends : LineRule ends)
    (hhead : (run ends code head).2.IsOutside) (h : ∀ line ∈ lines, IsCommentLine ends line)
    (rest : List Char) :
    executed ends (head ++ lines.flatMap ('\n' :: ·) ++ '\n' :: rest) =
      executed ends head ++ blankLines lines.length ++ '\n' :: executed ends rest := by
  have houtside : (run ends code (head ++ lines.flatMap ('\n' :: ·))).2.IsOutside := by
    rw [run_append]
    exact (run_commentLines hends hhead h).2
  have hbefore := executed_commentLines hends hhead h
  rw [executed, runAll] at hbefore
  rw [executed, runAll_append, runAll_cons_of_ends hends houtside hends.feed, ← List.append_assoc,
    hbefore]
  rfl

end Sql
end Querysmith
