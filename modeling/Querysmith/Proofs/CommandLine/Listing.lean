/-
# What a dry run prints

A dry run prints the text of a statement and below it, behind two hyphens, a line for each value
that it binds.  A text is printed as it is between its quotes, and when it holds the end of a line
the comment ends there: the rest of it stands at the start of a line and is run.  So the lines below
a statement are comments, one for each bound value, exactly when no bound text has more lines
(`ShownBelow.aligned_iff`), and then what is printed runs as the statement alone
(`ShownBelow.executed_iff`).  Names of one line are all that this takes besides
(`dry_run_of_statements`).
-/

import Querysmith.CommandLine.Operation
import Querysmith.Proofs.Compiler.Wording
import Querysmith.Proofs.Value

namespace Querysmith

open Sql

/-! ### Lines -/

namespace Sql

variable {ends : Char → Bool}

/-- The lines of a text. -/
def lines (ends : Char → Bool) (cs : List Char) : List (List Char) := cs.splitOnP ends

/-- Every end of a line begins another line. -/
theorem length_lines (cs : List Char) : (lines ends cs).length = cs.countP ends + 1 := by
  rw [lines]
  induction cs with
  | nil => rfl
  | cons c cs ih =>
    rw [List.splitOnP_cons_eq_if_modifyHead, List.countP_cons]
    split <;> simp [ih]

/-- A text on one line is one line. -/
theorem IsLine.lines {cs : List Char} (h : IsLine ends cs) : lines ends cs = [cs] :=
  List.splitOnP_eq_singleton h

/-- A text stands on one line when it has no character that ends one. -/
theorem IsLine.countP {cs : List Char} : IsLine ends cs ↔ cs.countP ends = 0 := by
  simp [IsLine, List.countP_eq_zero]

/-- What is put in front of a text without ending a line goes to its first line. -/
theorem IsLine.lines_append {cs : List Char} (h : IsLine ends cs) (ds : List Char) :
    Sql.lines ends (cs ++ ds) = (Sql.lines ends ds).modifyHead (cs ++ ·) := by
  simp only [Sql.lines]
  induction cs with
  | nil => cases hds : ds.splitOnP ends <;> simp [hds]
  | cons c cs ih =>
    rw [IsLine, List.forall_mem_cons] at h
    rw [List.cons_append, List.splitOnP_cons_eq_if_modifyHead, if_neg (by simp [h.1]), ih h.2,
      List.modifyHead_modifyHead]
    rfl

/-- Texts with as many lines as there are texts have one line each. -/
theorem forall_isLine_of_length {parts : List (List Char)}
    (h : (parts.flatMap (lines ends)).length = parts.length) :
    ∀ part ∈ parts, IsLine ends part := by
  have hle : ∀ parts : List (List Char), parts.length ≤ (parts.flatMap (lines ends)).length := by
    intro parts
    induction parts with
    | nil => exact Nat.le_refl 0
    | cons part parts ih =>
      rw [List.flatMap_cons, List.length_append, List.length_cons, length_lines]
      omega
  induction parts with
  | nil => exact List.forall_mem_nil _
  | cons part parts ih =>
    rw [List.flatMap_cons, List.length_append, List.length_cons, length_lines] at h
    have hrest := hle parts
    rw [List.forall_mem_cons, IsLine.countP]
    exact ⟨by omega, ih (by omega)⟩

/-- The lines of texts that stand below another one. -/
theorem lines_below (hends : LineRule ends) (head : List Char) (parts : List (List Char)) :
    lines ends (head ++ parts.flatMap ('\n' :: ·)) =
      lines ends head ++ parts.flatMap (lines ends) := by
  induction parts generalizing head with
  | nil => simp
  | cons part parts ih =>
    have hsplit := List.splitOnP_append_cons head (part ++ parts.flatMap ('\n' :: ·)) hends.feed
    rw [List.flatMap_cons, List.cons_append, List.flatMap_cons, ← ih part]
    exact hsplit

end Sql

namespace Statement

variable {ends : Char → Bool} {s : Statement}

/-- What stands in front of a value in a dry run. -/
def label (number : Nat) : String := "  -- " ++ Text.ofNat number ++ " = "

/-- The label of a value is one line: it is a word and a number. -/
theorem isLine_label (hends : LineRule ends) (n : Nat) : IsLine ends (label n).toList := by
  have hdecimal : IsLine ends (Text.decimal n) := fun c hc =>
    hends.eq_false_of_isDigit (Text.isDigit_of_mem_decimal hc)
  have hlabel : (label n).toList =
      [' ', ' ', '-', '-', ' '] ++ Text.decimal n ++ [' ', '=', ' '] := by
    simp [label, Text.ofNat]
  rw [hlabel, IsLine, List.forall_mem_append, List.forall_mem_append]
  exact ⟨⟨by simp [hends.eq_false], hdecimal⟩, by simp [hends.eq_false]⟩

/-- What a dry run prints with a text at the head. -/
def below (s : Statement) (head : String) : String := Text.joinWith "\n" (head :: s.paramLines)

/-- The lines below the head, one for each bound value. -/
def comments (s : Statement) : List (List Char) :=
  s.params.zipIdx.map fun (v, i) => (label (i + 1)).toList ++ v.inline.toList

/-- Every bound value has one comment. -/
theorem length_comments (s : Statement) : s.comments.length = s.params.length := by
  simp [comments]

/-- The comments are the lines that a dry run prints below a statement. -/
theorem map_toList_paramLines (s : Statement) : s.paramLines.map String.toList = s.comments := by
  rw [paramLines, comments, List.map_map]
  exact List.map_congr_left fun p _ => String.toList_append

/-- A listing is its head, and behind it the comments with a line feed in front of each. -/
theorem toList_below (s : Statement) (head : String) :
    (s.below head).toList = head.toList ++ s.comments.flatMap ('\n' :: ·) := by
  have hjoin : ∀ (ls : List String) (head : String), (Text.joinWith "\n" (head :: ls)).toList =
      head.toList ++ (ls.map String.toList).flatMap ('\n' :: ·) := by
    intro ls
    induction ls with
    | nil => exact fun head => by simp [Text.joinWith]
    | cons l ls ih => exact fun head => by simpa [Text.joinWith] using ih (head ++ "\n" ++ l)
  rw [below, hjoin, map_toList_paramLines]

/-- The text of a dry run is the statement with its values below it. -/
theorem display_eq_below (s : Statement) : s.display = s.below s.sql := rfl

/-- The program puts a semicolon behind the statement and ends the last line. -/
theorem listing_eq_below (s : Statement) :
    CommandLine.Operation.listing s = s.below (s.sql ++ ";") ++ "\n" := by
  have hlines : ∀ (ls : List (List Char)) (head : List Char),
      (head :: ls).flatMap (· ++ ['\n']) = head ++ ls.flatMap ('\n' :: ·) ++ ['\n'] := by
    intro ls
    induction ls with
    | nil => simp
    | cons l ls ih =>
      intro head
      rw [List.flatMap_cons, ih l]
      simp
  rw [← String.toList_inj, String.toList_append, toList_below, CommandLine.Operation.listing,
    String.toList_join, ← map_toList_paramLines]
  have hbelow := hlines (s.paramLines.map String.toList) (s.sql ++ ";").toList
  rw [← List.map_cons, List.flatMap_map] at hbelow
  simpa [List.flatMap_map] using hbelow

/-- Every text that the statement binds stands on one line. -/
def BindsLines (ends : Char → Bool) (s : Statement) : Prop :=
  ∀ text, SqlValue.text text ∈ s.params → IsLine ends text.toList

/-- **The lines below the head are those of the values,** the first line of each behind its
label. -/
theorem lines_comments (hends : LineRule ends) (s : Statement) :
    s.comments.flatMap (lines ends) = s.params.zipIdx.flatMap fun (v, i) =>
      (lines ends v.inline.toList).modifyHead ((label (i + 1)).toList ++ ·) := by
  rw [comments, List.flatMap_map]
  exact congrArg (List.flatMap · _) (funext fun p => (isLine_label hends _).lines_append _)

/-- **A comment is one line exactly when its value is shown on one.** -/
theorem isLine_comments_iff (hends : LineRule ends) :
    (∀ comment ∈ s.comments, IsLine ends comment) ↔ s.BindsLines ends := by
  have hvalue : ∀ (v : SqlValue) (i : Nat),
      IsLine ends ((label (i + 1)).toList ++ v.inline.toList) ↔
        ∀ text, v = .text text → IsLine ends text.toList := by
    intro v i
    rw [← v.isLine_inline_iff hends, IsLine, List.forall_mem_append]
    exact and_iff_right (isLine_label hends _)
  rw [comments, List.forall_mem_map]
  constructor
  · intro h text htext
    obtain ⟨i, hi⟩ := List.mem_iff_getElem?.1 htext
    have hmem : (SqlValue.text text, i) ∈ s.params.zipIdx := List.mk_mem_zipIdx_iff_getElem?.2 hi
    have hline := h _ hmem
    exact (hvalue (.text text) i).1 hline text rfl
  · rintro h ⟨v, i⟩ hv
    refine (hvalue v i).2 fun text htext => h text ?_
    exact htext ▸ List.mem_of_getElem? (List.mk_mem_zipIdx_iff_getElem?.1 hv)

/-- A comment begins with two hyphens behind two blanks. -/
theorem prefix_of_mem_comments {comment : List Char} (h : comment ∈ s.comments) :
    "  -- ".toList <+: comment := by
  obtain ⟨⟨v, i⟩, -, rfl⟩ := List.mem_map.1 h
  exact ⟨(Text.ofNat (i + 1) ++ " = ").toList ++ v.inline.toList, by simp [label]⟩

/-- A comment whose value is shown on one line is nothing but a comment. -/
theorem isCommentLine_comments (hends : LineRule ends) (h : s.BindsLines ends) :
    ∀ comment ∈ s.comments, Place.IsCommentLine ends comment := by
  have hmark : "  --".toList <+: "  -- ".toList := by decide
  exact fun comment hcomment => ⟨hmark.trans (prefix_of_mem_comments hcomment),
    (isLine_comments_iff hends).2 h comment hcomment⟩

/-- The text can be the head of a dry run: it stands on one line and leaves no quote open. -/
structure IsHead (ends : Char → Bool) (head : String) : Prop where
  line : IsLine ends head.toList
  outside : (Place.run ends .code head.toList).2.IsOutside

/-- One line for the head, and one for each bound value, which begins as a comment. -/
def IsAligned (ends : Char → Bool) (s : Statement) (head printed : String) : Prop :=
  ∃ comments, lines ends printed.toList = head.toList :: comments ∧
    comments.length = s.params.length ∧ ∀ comment ∈ comments, "  -- ".toList <+: comment

/-- **What a dry run prints with a head.**  The lines below the head are those of the values, with
the first line of each behind its label.  They are comments, one for each value, exactly when every
bound text stands on one line, and exactly then the head is run and nothing else but blanks. -/
structure ShownBelow (ends : Char → Bool) (s : Statement) (head printed : String) : Prop where
  lines_eq : lines ends printed.toList = head.toList :: s.params.zipIdx.flatMap fun (v, i) =>
    (lines ends v.inline.toList).modifyHead ((label (i + 1)).toList ++ ·)
  aligned_iff : s.IsAligned ends head printed ↔ s.BindsLines ends
  executed_iff : executed ends printed.toList =
    executed ends head.toList ++ Place.blankLines s.params.length ↔ s.BindsLines ends

variable {head : String}

/-- The lines that are printed with a head. -/
theorem lines_toList_below (hends : LineRule ends) (hhead : IsHead ends head) :
    lines ends (s.below head).toList = head.toList :: s.comments.flatMap (lines ends) := by
  rw [toList_below, lines_below hends, hhead.line.lines]
  rfl

/-- The lines of a listing are its head and one for each value exactly when all values are shown on
one line. -/
theorem isAligned_below_iff (hends : LineRule ends) (hhead : IsHead ends head) :
    s.IsAligned ends head (s.below head) ↔ s.BindsLines ends := by
  rw [← isLine_comments_iff hends, IsAligned, lines_toList_below hends hhead]
  constructor
  · rintro ⟨comments, heq, hlength, -⟩
    rw [← (List.cons.inj heq).2, ← s.length_comments] at hlength
    exact forall_isLine_of_length hlength
  · intro h
    refine ⟨s.comments, ?_, s.length_comments, fun _ => prefix_of_mem_comments⟩
    rw [List.flatMap_congr fun comment hcomment => (h comment hcomment).lines,
      List.flatMap_singleton']

/-- What is run of a listing is its head alone exactly when all values are shown on one line. -/
theorem executed_below_iff (hends : LineRule ends) (hhead : IsHead ends head) :
    executed ends (s.below head).toList =
      executed ends head.toList ++ Place.blankLines s.params.length ↔ s.BindsLines ends := by
  constructor
  · intro h
    -- What is run has as many lines as what is printed, so no value has more than one.
    have hcount := congrArg (List.countP ends) h
    have hlength := congrArg List.length (lines_toList_below (s := s) hends hhead)
    rw [List.countP_append, countP_executed hends, countP_executed hends,
      Place.countP_blankLines hends, IsLine.countP.1 hhead.line] at hcount
    rw [length_lines, List.length_cons, hcount] at hlength
    have hcomments : (s.comments.flatMap (lines ends)).length = s.comments.length := by
      rw [length_comments]
      omega
    exact (isLine_comments_iff hends).1 (forall_isLine_of_length hcomments)
  · intro h
    rw [toList_below, executed_commentLines hends hhead.outside
      (isCommentLine_comments hends h), length_comments]

/-- **A listing shows its values below its head,** with the two conditions for when it does so line
by line. -/
theorem shownBelow (hends : LineRule ends) (hhead : IsHead ends head) :
    s.ShownBelow ends head (s.below head) where
  lines_eq := by rw [lines_toList_below hends hhead, lines_comments hends]
  aligned_iff := isAligned_below_iff hends hhead
  executed_iff := executed_below_iff hends hhead

/-- A semicolon behind a head is part of the head. -/
theorem IsHead.semicolon (hends : LineRule ends) (h : IsHead ends head) :
    IsHead ends (head ++ ";") := by
  have hsemicolon : IsLine ends [';'] := by
    simp [IsLine, hends.eq_false]
  constructor
  · rw [String.toList_append, IsLine, List.forall_mem_append]
    exact ⟨h.line, hsemicolon⟩
  · rw [String.toList_append, Place.run_append]
    exact Place.isOutside_run (by simp) h.outside

/-- What is run of a statement that the program prints. -/
def executedListing (ends : Char → Bool) (s : Statement) : List Char :=
  executed ends (s.sql ++ ";").toList ++ Place.blankLines s.params.length ++ ['\n']

/-- **Statements printed one after another are run one after another.** -/
theorem executed_listings (hends : LineRule ends) {ss : List Statement}
    (hhead : ∀ s ∈ ss, IsHead ends s.sql) (h : ∀ s ∈ ss, s.BindsLines ends) :
    executed ends (String.join (ss.map CommandLine.Operation.listing)).toList =
      ss.flatMap (executedListing ends) := by
  induction ss with
  | nil => rfl
  | cons s ss ih =>
    rw [List.forall_mem_cons] at hhead h
    have htext : (String.join ((s :: ss).map CommandLine.Operation.listing)).toList =
        (s.sql ++ ";").toList ++ s.comments.flatMap ('\n' :: ·) ++
          '\n' :: (String.join (ss.map CommandLine.Operation.listing)).toList := by
      rw [List.map_cons, String.join_cons, listing_eq_below, String.toList_append,
        String.toList_append, toList_below]
      simp
    rw [htext, executed_commentLines_append hends (hhead.1.semicolon hends).outside
      (isCommentLine_comments hends h.1), length_comments, ih hhead.2 h.2, List.flatMap_cons,
      executedListing]
    simp

end Statement

namespace Compiler

open Statement (IsHead executedListing)

variable {c : Compiler} {call : Call} {ss : List Statement} {ends : Char → Bool}

/-- **A statement can be the head of a dry run** when its names and casts stand on one line. -/
theorem isHead_sql (hd : c.dialect.Bundled) (hends : LineRule ends)
    (hcasts : c.dialect.typeCasts = true → ∀ rule ∈ c.casts.rules, ∀ ch ∈ rule.target.toList,
      ends ch = false ∧ ch ≠ '\'' ∧ ch ≠ '"')
    (h : c.statements call = .ok ss)
    (hnames : ∀ name ∈ c.suppliedNames call, IsLine ends name.toList) :
    ∀ s ∈ ss, IsHead ends s.sql := by
  have htargets : c.dialect.typeCasts = true → ∀ target ∈ c.castTargets, ∀ ch ∈ target.toList,
      ends ch = false ∧ ch ≠ '\'' ∧ ch ≠ '"' := by
    intro hwritten
    rw [castTargets, List.forall_mem_cons, List.forall_mem_map]
    exact ⟨by simp [hends.eq_false], hcasts hwritten⟩
  intro s hs
  obtain ⟨f, returnsRows, hwrites, rfl⟩ := exists_writes_of_statements h s hs
  have hlegible := legible_of_writes hwrites
  have hsupplied : ∀ name ∈ f.names, IsLine ends name.toList := fun name hname =>
    hnames name (names_of_writes hwrites hname)
  constructor
  · exact Fragment.isLine_sql hd hends hlegible (inLine_of_writes hwrites) hsupplied
      (fun hwritten target ht ch hch => (htargets hwritten target ht ch hch).1) 0
  · exact Fragment.isOutside_run_sql hd hends hlegible hsupplied
      (fun hwritten target ht ch hch => (htargets hwritten target ht ch hch).2)
      Place.isOutside_code 0

/-- **A dry run prints each statement on one line and its values below it,** whatever is bound, when
the names of the call and the targets of the casts stand on one line.  The values are comments, one
line each, exactly when every bound text stands on one line, and then nothing of them is run: what
is printed runs as the statements alone, and so does all that the program prints. -/
theorem dry_run_of_statements (hd : c.dialect.Bundled) (hends : LineRule ends)
    (hcasts : c.dialect.typeCasts = true → ∀ rule ∈ c.casts.rules, ∀ ch ∈ rule.target.toList,
      ends ch = false ∧ ch ≠ '\'' ∧ ch ≠ '"')
    (h : c.statements call = .ok ss)
    (hnames : ∀ name ∈ c.suppliedNames call, IsLine ends name.toList) :
    (∀ s ∈ ss, s.ShownBelow ends s.sql s.display ∧
      ∃ printed, CommandLine.Operation.listing s = printed ++ "\n" ∧
        s.ShownBelow ends (s.sql ++ ";") printed) ∧
    ((∀ s ∈ ss, s.BindsLines ends) →
      executed ends (String.join (ss.map CommandLine.Operation.listing)).toList =
        ss.flatMap (executedListing ends)) := by
  have hhead := isHead_sql hd hends hcasts h hnames
  refine ⟨fun s hs => ⟨?_, s.below (s.sql ++ ";"), s.listing_eq_below, ?_⟩, fun hbinds => ?_⟩
  · rw [s.display_eq_below]
    exact Statement.shownBelow hends (hhead s hs)
  · exact Statement.shownBelow hends ((hhead s hs).semicolon hends)
  · exact Statement.executed_listings hends hhead hbinds

/-- A text of two lines: the second one is run, up to two hyphens that it holds. -/
theorem dry_run_of_injected : ∃ s : Statement,
    (ofDialect .postgres).statements
      (.count "t" (.and [.equal "a" (.str "x\n; DROP TABLE t; --")]) none) = .ok [s] ∧
    ¬ s.IsAligned (fun c => c == '\n' || c == '\r') s.sql s.display ∧
    executed (fun c => c == '\n' || c == '\r') s.display.toList =
      executed (fun c => c == '\n' || c == '\r') s.sql.toList ++
        "\n  \n; DROP TABLE t; ".toList := by
  have hrules : ∀ rule ∈ (ofDialect .postgres).casts.rules, rule.target.toList.all (fun ch =>
      decide ((ch == '\n' || ch == '\r') = false ∧ ch ≠ '\'' ∧ ch ≠ '"')) = true :=
    forall_mem_of_all (by decide)
  have hnames : (ofDialect .postgres).suppliedNames
      (.count "t" (.and [.equal "a" (.str "x\n; DROP TABLE t; --")]) none) = ["t", "a"] := rfl
  obtain ⟨s, h, rfl⟩ : ∃ s, (ofDialect .postgres).statements
      (.count "t" (.and [.equal "a" (.str "x\n; DROP TABLE t; --")]) none) = .ok [s] ∧
      s = ⟨"SELECT count(*) AS number FROM \"t\" WHERE ((\"a\" = $1))",
        [.text "x\n; DROP TABLE t; --"], true⟩ := ⟨_, rfl, by decide +kernel⟩
  have hshown := (dry_run_of_statements .postgres .postgres
    (fun _ rule hrule => forall_mem_of_all (hrules rule hrule)) h
    (by rw [hnames]; simp [IsLine])).1 _ List.mem_cons_self
  refine ⟨_, h, ?_, by decide +kernel⟩
  rw [hshown.1.aligned_iff]
  intro hlines
  exact absurd (hlines _ List.mem_cons_self '\n' (by decide)) (by decide)

end Compiler
end Querysmith
