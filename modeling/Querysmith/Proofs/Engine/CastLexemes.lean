/-
# Casts in PostgreSQL text

What casts should make of a text is said of its lexemes: each placeholder without a cast gets the
one of its entry, and everything else is copied (`recast`).  The reader of places knows quotes and
digits only.  It takes a text apart as the server does where comments, tagged texts and words hold
no quote and nothing that looks like a placeholder (`insertFrom_lexeme`).  Elsewhere it may take a
part of one of them for a placeholder, or a placeholder for a part of a quoted text, and what it
writes is right exactly when it does not (`recast_iff`).
-/

import Querysmith.Proofs.Engine.CastStability
import Querysmith.Proofs.Sql.Lexeme

namespace Querysmith

namespace Sql.Lexeme

/-- The cast behind a lexeme, in front of a text. -/
def castBefore (casts : List (Option String)) : Lexeme → List Char → List Char
  | placeholder digits, behind => Symbol.castBefore casts (Text.readDecimal digits) behind
  | _, _ => []

/-- The text of lexemes with a cast behind each placeholder that has none and whose entry is set. -/
def recast (casts : List (Option String)) : List Lexeme → List Char
  | [] => []
  | l :: ls => l.spelled ++ (l.castBefore casts (text ls) ++ recast casts ls)

/-- A placeholder ends behind a text. -/
def EndsPlaceholder (ls : List Lexeme) (before : List Char) : Prop :=
  ∃ start digits rest, ls = start ++ placeholder digits :: rest ∧
    before = text (start ++ [placeholder digits])

/-- The text holds no quote and, in front of another text, no `$` before a digit. -/
def isQuiet : List Char → List Char → Bool
  | [], _ => true
  | c :: cs, rest =>
    !(c = '\'' || c = '"') && !(c = '$' && (cs ++ rest).head?.any Char.isDigit) && isQuiet cs rest

/-- The lexeme looks like no other one inside: it is between quotes itself, a placeholder or one
character, or else it holds no quote and no placeholder. -/
def Quiet : Lexeme → List Char → Prop
  | dollarQuoted tag body, rest => isQuiet (dollarQuoted tag body).spelled rest = true
  | comment body, rest => isQuiet (comment body).spelled rest = true
  | word cs, rest => isQuiet cs rest = true
  | _, _ => True

end Sql.Lexeme

namespace InferredCast

open Sql

variable {casts : List (Option String)}

/-- Behind digits that end, the piece is the cast that belongs there. -/
theorem pieceAt_digits {behind : List Char} (h : behind.head?.any Char.isDigit = false)
    (number : Nat) :
    pieceAt casts (.digits number) behind = Symbol.castBefore casts number behind := by
  have hseen : seen casts (.digits number) behind = seen casts .outside behind := by
    cases behind with
    | nil => rfl
    | cons c cs =>
      have hc : c.isDigit = false := by simpa using h
      simp [seen, Place.next, hc]
  have hinsert := @insertFrom_behind casts behind h number
  rw [insertFrom_eq_written, insertFrom_eq_written .outside, hseen] at hinsert
  exact List.append_cancel_right hinsert

/-! ### A quiet text -/

/-- A quiet text is copied. -/
theorem insertFrom_quiet {cs rest : List Char} (h : Lexeme.isQuiet cs rest = true) :
    insertFrom casts .outside (cs ++ rest) = cs ++ insertFrom casts .outside rest := by
  induction cs with
  | nil => rfl
  | cons c cs ih =>
    simp only [Lexeme.isQuiet, Bool.and_eq_true, Bool.not_eq_true', Bool.or_eq_false_iff,
      decide_eq_false_iff_not] at h
    obtain ⟨⟨hquote, hsign⟩, hcs⟩ := h
    rw [List.cons_append, insertFrom,
      insertFrom_after (by simpa using hquote) (by simpa using hsign), ih hcs, List.cons_append]

/-- **A quiet lexeme is copied and followed by its cast.** -/
theorem insertFrom_lexeme {l : Lexeme} {rest : List Char} (hends : l.EndsAt rest)
    (hquiet : l.Quiet rest) :
    insertFrom casts .outside (l.spelled ++ rest) =
      l.spelled ++ (l.castBefore casts rest ++ insertFrom casts .outside rest) := by
  cases l with
  | literal body =>
    have hbody := @insertFrom_double casts '\'' rfl body rest
    simp only [Lexeme.spelled, Lexeme.castBefore, List.cons_append, List.append_assoc,
      List.nil_append]
    rw [insertFrom]
    exact congrArg ('\'' :: ·) hbody
  | name body =>
    have hbody := @insertFrom_name casts body rest
    simpa only [Lexeme.spelled, Lexeme.castBefore, List.cons_append, List.append_assoc,
      List.singleton_append, List.nil_append] using hbody
  -- These hold nothing that the reader of places looks at, or they would not be quiet.
  | dollarQuoted tag body => exact insertFrom_quiet hquiet
  | comment body => exact insertFrom_quiet hquiet
  | word cs => exact insertFrom_quiet hquiet
  | placeholder digits =>
    obtain ⟨hne, hdigits, hbehind⟩ := hends
    rw [Lexeme.spelled, List.cons_append, insertFrom_placeholder hne hdigits,
      insertFrom_behind hbehind]
    rfl
  | other c =>
    rw [Lexeme.spelled, List.singleton_append, insertFrom, insertFrom_after hends.1 hends.2]
    rfl

/-- **Lexeme by lexeme the scan writes what is meant,** if no lexeme is one that it misreads. -/
theorem insertFrom_lexemes {ls : List Lexeme} (hended : Lexeme.Ended ls)
    (hquiet : ∀ start l rest, ls = start ++ l :: rest → l.Quiet (Lexeme.text rest)) :
    insertFrom casts .outside (Lexeme.text ls) = Lexeme.recast casts ls := by
  induction ls with
  | nil => rfl
  | cons l ls ih =>
    obtain ⟨-, hends, hended⟩ := hended
    have hrest := ih hended fun start m rest h => hquiet (l :: start) m rest (congrArg (l :: ·) h)
    rw [Lexeme.text_cons, insertFrom_lexeme hends (hquiet [] l ls rfl), hrest, Lexeme.recast]

/-! ### Any text -/

/-- The lexemes' text with the casts that belong behind its characters. -/
def meant (casts : List (Option String)) : List Lexeme → Marked
  | [] => []
  | l :: ls => Marked.withEnd l.spelled (l.castBefore casts (Lexeme.text ls)) ++ meant casts ls

/-- Without the casts that are meant the text is the one that was taken apart. -/
theorem original_meant (ls : List Lexeme) : (meant casts ls).original = Lexeme.text ls := by
  induction ls with
  | nil => rfl
  | cons l ls ih =>
    rw [meant, Marked.original_append, Marked.original_withEnd, ih, Lexeme.text_cons]

/-- The cast of a lexeme is one behind what the lexeme ends. -/
theorem isCast_castBefore {l : Lexeme} {behind : List Char} (h : l.EndsAt behind)
    (before : List Char) :
    l.castBefore casts behind = [] ∨
      IsCast casts (before ++ l.spelled) (l.castBefore casts behind) behind := by
  cases l with
  | placeholder digits =>
    obtain ⟨hne, hdigits, hbehind⟩ := h
    have hfollows : (Place.digits (Text.readDecimal digits)).Follows (before ++ '$' :: digits) :=
      ⟨before, digits, rfl, hne, hdigits, rfl⟩
    have hcast := @isCast_pieceAt casts _ _ hfollows behind
    rwa [pieceAt_digits hbehind] at hcast
  | literal | name | dollarQuoted | comment | word | other => exact .inl rfl

/-- **The casts that are meant stand behind placeholders,** each its own. -/
theorem placed_meant {ls : List Lexeme} (h : Lexeme.Ended ls) (before : List Char) :
    Placed casts before (meant casts ls) := by
  induction ls generalizing before with
  | nil => trivial
  | cons l ls ih =>
    obtain ⟨hne, hends, hended⟩ := h
    refine Placed.withEnd_append hne ?_ (ih hended (before ++ l.spelled))
    rw [original_meant]
    exact isCast_castBefore hends before

/-- With the casts that are meant the text is the one that a server understands. -/
theorem written_meant {ls : List Lexeme} (h : Lexeme.Ended ls) :
    (meant casts ls).written = Lexeme.recast casts ls := by
  induction ls with
  | nil => rfl
  | cons l ls ih =>
    rw [meant, Marked.written_append, Marked.written_withEnd h.1, ih h.2.2, Lexeme.recast,
      List.append_assoc]

/-- A cast is meant behind what ends with a lexeme that gets one. -/
theorem hasPiece_meant_iff {ls : List Lexeme} (h : Lexeme.Ended ls) {before : List Char} :
    (meant casts ls).HasPiece before ↔ ∃ start l rest, ls = start ++ l :: rest ∧
      before = Lexeme.text (start ++ [l]) ∧ l.castBefore casts (Lexeme.text rest) ≠ [] := by
  induction ls generalizing before with
  | nil => simp [meant]
  | cons l ls ih =>
    rw [meant, Marked.hasPiece_withEnd_append h.1]
    constructor
    · rintro (⟨rfl, hpiece⟩ | ⟨tail, rfl, htail⟩)
      · exact ⟨[], l, ls, rfl, by simp, hpiece⟩
      · obtain ⟨start, m, rest, rfl, rfl, hpiece⟩ := (ih h.2.2).1 htail
        exact ⟨l :: start, m, rest, rfl, rfl, hpiece⟩
    · rintro ⟨start, m, rest, hls, rfl, hpiece⟩
      cases start with
      | nil =>
        obtain ⟨rfl, rfl⟩ := List.cons.inj hls
        exact .inl ⟨by simp, hpiece⟩
      | cons n start =>
        obtain ⟨rfl, rfl⟩ := List.cons.inj hls
        exact .inr ⟨_, rfl, (ih h.2.2).2 ⟨start, m, rest, rfl, rfl, hpiece⟩⟩

/-- **A cast is meant** where one may stand and where a placeholder ends. -/
theorem hasPiece_meant {ls : List Lexeme} (h : Lexeme.Ended ls) {before : List Char} :
    (meant casts ls).HasPiece before ↔ ∃ piece behind, Lexeme.text ls = before ++ behind ∧
      IsCast casts before piece behind ∧ Lexeme.EndsPlaceholder ls before := by
  rw [hasPiece_meant_iff h]
  constructor
  · rintro ⟨start, l, rest, rfl, rfl, hpiece⟩
    have hcast := (isCast_castBefore h.endsAt (Lexeme.text start)).resolve_left hpiece
    refine ⟨_, Lexeme.text rest, by simp, by simpa using hcast, ?_⟩
    -- Of all lexemes only a placeholder is followed by a cast.
    cases l with
    | placeholder digits => exact ⟨start, digits, rest, rfl, rfl⟩
    | literal | name | dollarQuoted | comment | word | other => exact absurd rfl hpiece
  · rintro ⟨piece, behind, htext, hcast, start, digits, rest, rfl, rfl⟩
    refine ⟨start, _, rest, rfl, rfl, ?_⟩
    obtain ⟨hne, hdigits, hrest⟩ := h.endsAt
    obtain rfl : Lexeme.text rest = behind := by
      rw [← List.singleton_append, ← List.append_assoc, Lexeme.text_append] at htext
      exact List.append_cancel_left htext
    -- Conversely, behind a placeholder the place is that of its digits, and what may stand there is
    -- determined.
    have hfollows : (Place.digits (Text.readDecimal digits)).Follows
        (Lexeme.text (start ++ [.placeholder digits])) :=
      ⟨Lexeme.text start, digits, by simp [Lexeme.spelled], hne, hdigits, rfl⟩
    rw [Lexeme.castBefore, ← pieceAt_digits hrest, hcast.pieceAt_eq hfollows]
    exact hcast.piece_ne_nil.2

/-- **Casts land on the placeholders of a text and nowhere else** exactly when the reader of places
reads digits as those of a placeholder just where the text has a placeholder, of all digits behind
which a cast may stand. -/
theorem recast_iff {sql : String} {ls : List Lexeme} (h : Lexeme.read? sql = some ls)
    (casts : List (Option String)) :
    Lexeme.text ls = sql.toList ∧
    ((insert sql casts).toList = Lexeme.recast casts ls ↔
      ∀ before piece behind, sql.toList = before ++ behind → IsCast casts before piece behind →
        ((∃ number, reached before = .digits number) ↔ Lexeme.EndsPlaceholder ls before)) ∧
    ((∀ start l rest, ls = start ++ l :: rest → l.Quiet (Lexeme.text rest)) →
      (insert sql casts).toList = Lexeme.recast casts ls) := by
  obtain ⟨htext, hended⟩ := Lexeme.text_read? h
  -- Both ways to cast write the same text apart from the casts, so they write the same exactly when
  -- their casts stand in the same places.
  have horiginal : (seen casts .outside sql.toList).original = (meant casts ls).original := by
    rw [original_seen, original_meant, htext]
  have hstart : Place.outside.Follows [] := trivial
  have hseen := @placed_seen casts _ _ hstart sql.toList
  have hmeant := @placed_meant casts ls hended []
  refine ⟨htext, ?_, fun hquiet => ?_⟩
  · rw [toList_insert, ← written_meant hended]
    have hsame : (seen casts .outside sql.toList).written = (meant casts ls).written ↔
        seen casts .outside sql.toList = meant casts ls :=
      ⟨hseen.eq_of_written hmeant horiginal, congrArg Marked.written⟩
    rw [hsame, hseen.ext_iff hmeant horiginal]
    simp only [hasPiece_seen, hasPiece_meant hended, htext]
    constructor
    · intro hall before piece behind hsplit hcast
      constructor
      · intro hnumber
        obtain ⟨-, -, -, -, hends⟩ := (hall before).1 ⟨piece, behind, hsplit, hcast, hnumber⟩
        exact hends
      · intro hends
        obtain ⟨-, -, -, -, hnumber⟩ := (hall before).2 ⟨piece, behind, hsplit, hcast, hends⟩
        exact hnumber
    · intro hall before
      constructor
      · rintro ⟨piece, behind, hsplit, hcast, hnumber⟩
        exact ⟨piece, behind, hsplit, hcast, (hall before piece behind hsplit hcast).1 hnumber⟩
      · rintro ⟨piece, behind, hsplit, hcast, hends⟩
        exact ⟨piece, behind, hsplit, hcast, (hall before piece behind hsplit hcast).2 hends⟩
  · rw [insert, String.toList_ofList, ← htext]
    exact insertFrom_lexemes hended hquiet

/-- A text between two dollar signs each: what it says of a price is taken for a placeholder. -/
theorem recast_iff_tagged :
    ∃ ls, Lexeme.read? "SELECT $$price $1$$, $1" = some ls ∧
      insert "SELECT $$price $1$$, $1" [some "DATE"] = "SELECT $$price $1::DATE$$, $1::DATE" ∧
      Lexeme.recast [some "DATE"] ls = "SELECT $$price $1$$, $1::DATE".toList ∧
      ¬∀ before piece behind, "SELECT $$price $1$$, $1".toList = before ++ behind →
        IsCast [some "DATE"] before piece behind →
          ((∃ number, reached before = .digits number) ↔ Lexeme.EndsPlaceholder ls before) := by
  have hread : Lexeme.read? "SELECT $$price $1$$, $1" =
      some [.word "SELECT".toList, .other ' ', .dollarQuoted [] "price $1".toList, .other ',',
        .other ' ', .placeholder ['1']] := by
    decide +kernel
  refine ⟨_, hread, by decide +kernel, by decide +kernel, ?_⟩
  refine (recast_iff hread [some "DATE"]).2.1.not.1 ?_
  decide +kernel

end InferredCast
end Querysmith
