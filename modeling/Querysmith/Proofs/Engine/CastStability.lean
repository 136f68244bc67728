/-
# Writing casts again

One character takes the reader of SQL text from a place to the next (`Place.next`), and in front of
it a cast may be written (`pieceAt`), so the result is the text with a piece behind each character
(`seen`), and every piece is a cast behind the last digit of a placeholder (`placed_seen`).

A second run finds the first one's casts where it would write its own, and leaves them
(`insertFrom_insertFrom`).  What it needs is that a cast leads it back outside quotes, which a word
does and a quoted name too (`IsTarget.insertFrom`).
-/

import Querysmith.Proofs.Engine.CastPlace
import Querysmith.Proofs.Engine.InferredCast

namespace Querysmith
namespace InferredCast

variable {casts : List (Option String)}

/-- The place behind one more character. -/
def Place.next : Place → Char → Place
  | .outside, c => .after c
  | .inside quote, c => if c = quote then .outside else .inside quote
  | .sign, c => if c.isDigit then .digits (Text.digitValue c) else .after c
  | .digits number, c =>
    if c.isDigit then .digits (10 * number + Text.digitValue c) else .after c

/-- What is written at a place in front of a text. -/
def pieceAt (casts : List (Option String)) : Place → List Char → List Char
  | .digits number, behind =>
    if behind.head?.any Char.isDigit || [':', ':'].isPrefixOf behind then []
    else castText casts number
  | _, _ => []

/-- At the end of the text stands the piece of the last placeholder. -/
theorem insertFrom_nil (place : Place) : insertFrom casts place [] = pieceAt casts place [] := by
  cases place <;> rfl

/-- **One character is copied,** with a cast in front of it perhaps. -/
theorem insertFrom_cons (place : Place) (c : Char) (cs : List Char) :
    insertFrom casts place (c :: cs) =
      pieceAt casts place (c :: cs) ++ c :: insertFrom casts (place.next c) cs := by
  cases place with
  | outside | inside | sign => rfl
  | digits number =>
    by_cases hc : c.isDigit = true
    · simp [insertFrom, pieceAt, Place.next, hc]
    · simp [insertFrom, pieceAt, Place.next, hc]

/-- Behind a character that begins nothing the reader is outside, and behind a sign without a
number as well. -/
theorem insertFrom_after {c : Char} {cs : List Char} (hquote : ¬(c = '\'' ∨ c = '"'))
    (hsign : ¬(c = '$' ∧ cs.head?.any Char.isDigit)) :
    insertFrom casts (.after c) cs = insertFrom casts .outside cs := by
  rw [Place.after, if_neg hquote]
  split
  · cases cs with
    | nil => rfl
    | cons d cs =>
      have hd : d.isDigit = false := by simpa [*] using hsign
      simp [insertFrom, hd]
  · rfl

/-- The text with the cast behind each character that the reader writes there. -/
def seen (casts : List (Option String)) : Place → List Char → Marked
  | _, [] => []
  | place, c :: cs => (c, pieceAt casts (place.next c) cs) :: seen casts (place.next c) cs

/-- The scan keeps all characters. -/
theorem original_seen (place : Place) (cs : List Char) : (seen casts place cs).original = cs := by
  induction cs generalizing place with
  | nil => rfl
  | cons c cs ih => exact congrArg (c :: ·) (ih (place.next c))

/-- **The scan writes its characters with their pieces,** behind the piece that is due in front. -/
theorem insertFrom_eq_written (place : Place) (cs : List Char) :
    insertFrom casts place cs = pieceAt casts place cs ++ (seen casts place cs).written := by
  induction cs generalizing place with
  | nil => rw [insertFrom_nil, seen, Marked.written, List.flatMap_nil, List.append_nil]
  | cons c cs ih => rw [insertFrom_cons, ih, seen, Marked.written_cons]

/-- A whole text is scanned from outside of everything, where no piece is due. -/
theorem toList_insert (sql : String) :
    (insert sql casts).toList = (seen casts .outside sql.toList).written := by
  rw [insert, String.toList_ofList, insertFrom_eq_written]
  rfl

/-! ### Where casts stand -/

/-- What the place of the reader says of the text before it. -/
def Place.Follows : List Char → Place → Prop
  | before, .sign => ∃ start, before = start ++ ['$']
  | before, .digits number => ∃ start digits, before = start ++ '$' :: digits ∧ digits ≠ [] ∧
      (∀ c ∈ digits, c.isDigit = true) ∧ Text.readDecimal digits = number
  | _, .outside | _, .inside _ => True

/-- Behind a character outside the scan stands where that character puts it. -/
theorem Place.follows_after (before : List Char) (c : Char) :
    (Place.after c).Follows (before ++ [c]) := by
  rw [Place.after]
  split
  · trivial
  · split
    · exact ⟨before, by simp [*]⟩
    · trivial

/-- A character takes the scan from a place that follows the text to one that follows the longer
text. -/
theorem Place.Follows.next {place : Place} {before : List Char} (h : place.Follows before)
    (c : Char) : (place.next c).Follows (before ++ [c]) := by
  cases place with
  | outside => exact follows_after before c
  | inside quote =>
    rw [Place.next]
    split <;> trivial
  | sign =>
    obtain ⟨start, rfl⟩ := h
    rw [Place.next]
    split
    · rename_i hc
      exact ⟨start, [c], by simp, by simp, by simpa using hc, by simp [Text.readDecimal]⟩
    · exact follows_after _ c
  | digits number =>
    -- A further digit makes the number ten times as large, and anything else ends it.
    obtain ⟨start, digits, rfl, hne, hdigits, rfl⟩ := h
    rw [Place.next]
    split
    · rename_i hc
      refine ⟨start, digits ++ [c], by simp, by simp, ?_, Text.readDecimal_append_singleton _ c⟩
      exact List.forall_mem_append.2 ⟨hdigits, by simpa using hc⟩
    · exact follows_after _ c

/-- **What is written at a place** is nothing, or the cast of a placeholder whose entry is set and
that ends there without one. -/
theorem pieceAt_cases (casts : List (Option String)) (place : Place) (behind : List Char) :
    pieceAt casts place behind = [] ∨ ∃ number target, place = .digits number ∧ 0 < number ∧
      casts[number - 1]? = some (some target) ∧ behind.head?.any Char.isDigit = false ∧
      [':', ':'].isPrefixOf behind = false ∧
      pieceAt casts place behind = ':' :: ':' :: target.toList := by
  cases place with
  | outside | inside | sign => exact .inl rfl
  | digits number =>
    rw [pieceAt, castText]
    split
    · exact .inl rfl
    · rename_i hbehind
      rw [Bool.or_eq_true, not_or, Bool.not_eq_true, Bool.not_eq_true] at hbehind
      by_cases hnumber : number = 0
      · exact .inl (if_pos hnumber)
      · rw [if_neg hnumber]
        split
        · rename_i target htarget
          exact .inr ⟨number, target, rfl, Nat.pos_of_ne_zero hnumber,
            Option.join_eq_some_iff.1 htarget, hbehind.1, hbehind.2, rfl⟩
        · exact .inl rfl

/-- What is written behind a text is a cast of the placeholder that the text ends in. -/
theorem isCast_pieceAt {place : Place} {before : List Char} (h : place.Follows before)
    (behind : List Char) :
    pieceAt casts place behind = [] ∨ IsCast casts before (pieceAt casts place behind) behind := by
  refine (pieceAt_cases casts place behind).imp_right ?_
  rintro ⟨number, target, rfl, hnumber, htarget, hdigit, hcast, hpiece⟩
  obtain ⟨start, digits, rfl, hne, hdigits, rfl⟩ := h
  exact ⟨⟨start, digits, rfl, hne, hdigits, target, hnumber, htarget, hpiece⟩, hdigit, hcast⟩

/-- **Every cast stands behind a placeholder.** -/
theorem placed_seen {place : Place} {before : List Char} (h : place.Follows before)
    (cs : List Char) : Placed casts before (seen casts place cs) := by
  induction cs generalizing place before with
  | nil => trivial
  | cons c cs ih =>
    refine ⟨?_, ih (h.next c)⟩
    rw [original_seen]
    exact isCast_pieceAt (h.next c) cs

/-- The place behind a text. -/
def reached (before : List Char) : Place := before.foldl Place.next .outside

/-- **The scan always stands where the text puts it.** -/
theorem follows_foldl {place : Place} {before : List Char} (h : place.Follows before)
    (cs : List Char) : (cs.foldl Place.next place).Follows (before ++ cs) := by
  induction cs generalizing place before with
  | nil => rwa [List.append_nil]
  | cons c cs ih =>
    rw [List.foldl_cons, ← List.singleton_append, ← List.append_assoc]
    exact ih (h.next c)

/-- The place that a whole text leads to follows it. -/
theorem follows_reached (before : List Char) : (reached before).Follows before := by
  have hstart : Place.outside.Follows [] := trivial
  exact follows_foldl hstart before

/-- Where a cast may stand, it is written when the digits in front of it are read as digits. -/
theorem IsCast.pieceAt_eq {before piece behind : List Char} (h : IsCast casts before piece behind)
    {number : Nat} (hfollows : (Place.digits number).Follows before) :
    pieceAt casts (.digits number) behind = piece := by
  obtain ⟨start, digits, rfl, hne, hdigits, target, hnumber, htarget, rfl⟩ := h.exists_placeholder
  obtain ⟨start', digits', hbefore, -, hdigits', rfl⟩ := hfollows
  obtain rfl := digits_unique hbefore hdigits hdigits'
  simp [pieceAt, castText, h.no_digit, h.no_cast, hnumber.ne', htarget]

/-- A cast is not empty, and it stands behind a placeholder. -/
theorem IsCast.piece_ne_nil {before piece behind : List Char}
    (h : IsCast casts before piece behind) : before ≠ [] ∧ piece ≠ [] := by
  obtain ⟨start, digits, rfl, -, -, target, -, -, rfl⟩ := h.exists_placeholder
  simp

/-- Behind a text stands what is written at the place behind it. -/
theorem hasPiece_seen_iff {place : Place} {sql before : List Char} :
    (seen casts place sql).HasPiece before ↔ before ≠ [] ∧ ∃ behind, sql = before ++ behind ∧
      pieceAt casts (before.foldl Place.next place) behind ≠ [] := by
  induction sql generalizing place before with
  | nil =>
    rw [seen]
    refine ⟨fun h => absurd h (Marked.not_hasPiece_nil before), ?_⟩
    rintro ⟨hne, behind, heq, -⟩
    exact absurd (List.append_eq_nil_iff.1 heq.symm).1 hne
  | cons c sql ih =>
    rw [seen, Marked.hasPiece_cons]
    constructor
    · rintro (⟨rfl, hpiece⟩ | ⟨rest, rfl, hrest⟩)
      · exact ⟨List.cons_ne_nil c [], sql, rfl, hpiece⟩
      · obtain ⟨-, behind, rfl, hpiece⟩ := ih.1 hrest
        exact ⟨List.cons_ne_nil c rest, behind, rfl, hpiece⟩
    · rintro ⟨hne, behind, heq, hpiece⟩
      -- Either the cast stands behind the first character, or it is one of the rest of the text.
      match before, heq with
      | [d], heq =>
        obtain ⟨rfl, rfl⟩ := List.cons.inj heq
        exact .inl ⟨rfl, hpiece⟩
      | d :: e :: rest, heq =>
        obtain ⟨rfl, rfl⟩ := List.cons.inj heq
        exact .inr ⟨_, rfl, ih.2 ⟨List.cons_ne_nil e rest, behind, rfl, hpiece⟩⟩

/-- **The reader writes a cast** where one may stand and where it has read the digits of a
placeholder. -/
theorem hasPiece_seen {sql before : List Char} :
    (seen casts .outside sql).HasPiece before ↔ ∃ piece behind, sql = before ++ behind ∧
      IsCast casts before piece behind ∧ ∃ number, reached before = .digits number := by
  rw [hasPiece_seen_iff, ← reached]
  constructor
  · rintro ⟨-, behind, rfl, hpiece⟩
    have hcast := (isCast_pieceAt (follows_reached before) behind).resolve_left hpiece
    obtain ⟨number, -, hplace, -⟩ := (pieceAt_cases casts _ behind).resolve_left hpiece
    exact ⟨_, behind, rfl, hcast, number, hplace⟩
  · rintro ⟨piece, behind, rfl, hcast, number, hplace⟩
    have hfollows := follows_reached before
    rw [hplace] at hfollows
    refine ⟨hcast.piece_ne_nil.1, behind, rfl, ?_⟩
    rw [hplace, hcast.pieceAt_eq hfollows]
    exact hcast.piece_ne_nil.2

/-! ### The second run -/

/-- Without entries nothing is written. -/
theorem insertFrom_of_absent (h : ∀ cast ∈ casts, cast = none) (place : Place) (cs : List Char) :
    insertFrom casts place cs = cs := by
  have hpiece : ∀ place behind, pieceAt casts place behind = [] := by
    intro place behind
    obtain hpiece | ⟨number, target, -, -, htarget, -⟩ := pieceAt_cases casts place behind
    · exact hpiece
    · cases h _ (List.mem_of_getElem? htarget)
  induction cs generalizing place with
  | nil => rw [insertFrom_nil, hpiece]
  | cons c cs ih => rw [insertFrom_cons, hpiece, List.nil_append, ih]

/-- A target that a type has: a word, or a name between quotes. -/
inductive IsTarget : String → Prop
  | word {target : String} (h : ∀ c ∈ target.toList, c ≠ '"' ∧ c ≠ '\'' ∧ c ≠ '$') :
    IsTarget target
  | quoted (name : String) :
    IsTarget (String.ofList ('"' :: Text.double '"' name.toList ++ ['"']))

/-- The casts of the server's types have such targets, when its own types are named by words. -/
theorem isTarget_of_castTarget {type : ServerType} {target : String}
    (hword : type.builtin = true → ∀ c ∈ type.name.toList, c ≠ '"' ∧ c ≠ '\'' ∧ c ≠ '$')
    (h : castTarget type = some target) : IsTarget target := by
  rw [castTarget] at h
  split at h
  · cases h
  · split at h
    · obtain rfl := Option.some.inj h
      exact .word (hword ‹_›)
    · obtain rfl := Option.some.inj h
      exact .quoted type.name

/-- A target is copied and leads back outside quotes. -/
theorem IsTarget.insertFrom {target : String} (h : IsTarget target) (rest : List Char) :
    insertFrom casts .outside (target.toList ++ rest) =
      target.toList ++ InferredCast.insertFrom casts .outside rest := by
  cases h with
  | word h => exact insertFrom_plain h rest
  | quoted name =>
    rw [String.toList_ofList, List.append_assoc, List.cons_append, List.singleton_append,
      insertFrom_name]
    simp

/-- Where no cast was written in front of a text, none is written in front of what became of it. -/
theorem pieceAt_insertFrom {place : Place} {c : Char} {cs : List Char}
    (h : pieceAt casts place (c :: cs) = []) :
    pieceAt casts place (c :: insertFrom casts (place.next c) cs) = [] := by
  cases place with
  | outside | inside | sign => rfl
  | digits number =>
    rw [pieceAt] at h ⊢
    split at h
    · rename_i hbehind
      refine if_pos ?_
      rw [Bool.or_eq_true] at hbehind ⊢
      refine hbehind.imp_right fun hcast => ?_
      -- Behind the first colon the reader is outside, and there the second one is copied at once.
      cases cs with
      | nil => simp [List.isPrefixOf] at hcast
      | cons d cs =>
        obtain ⟨rfl, rfl⟩ : ':' = c ∧ ':' = d := by simpa [List.isPrefixOf] using hcast
        rfl
    · rw [h, ite_self]

/-- A placeholder with a cast keeps it. -/
theorem insertFrom_cast (number : Nat) (rest : List Char) :
    insertFrom casts (.digits number) (':' :: ':' :: rest) =
      ':' :: ':' :: insertFrom casts .outside rest := rfl

/-- **A second run changes nothing.** -/
theorem insertFrom_insertFrom (h : ∀ target, some target ∈ casts → IsTarget target) (place : Place)
    (cs : List Char) :
    insertFrom casts place (insertFrom casts place cs) = insertFrom casts place cs := by
  -- A target holds nothing that a cast is written for, so a second run copies it.
  have htarget : ∀ {number : Nat} {target : String}, casts[number]? = some (some target) →
      ∀ rest, insertFrom casts .outside (target.toList ++ rest) =
        target.toList ++ insertFrom casts .outside rest := fun htarget =>
    (h _ (List.mem_of_getElem? htarget)).insertFrom
  induction cs generalizing place with
  | nil =>
    rw [insertFrom_nil]
    obtain hpiece | ⟨number, target, rfl, -, hentry, -, -, hpiece⟩ := pieceAt_cases casts place []
    · rw [hpiece, insertFrom_nil, hpiece]
    · have hcopied : insertFrom casts .outside target.toList = target.toList := by
        simpa [insertFrom_nil, pieceAt] using htarget hentry []
      rw [hpiece, insertFrom_cast, hcopied]
  | cons c cs ih =>
    rw [insertFrom_cons]
    obtain hpiece | ⟨number, target, rfl, -, hentry, hdigit, -, hpiece⟩ :=
      pieceAt_cases casts place (c :: cs)
    · rw [hpiece, List.nil_append, insertFrom_cons, pieceAt_insertFrom hpiece, List.nil_append, ih]
    · -- Behind its cast the second run is outside, as the first one was behind the digits.
      have hnext : Place.next .outside c = Place.next (.digits number) c := by
        rw [List.head?_cons, Option.any_some] at hdigit
        simp [Place.next, hdigit]
      rw [hpiece, List.cons_append, List.cons_append, insertFrom_cast, htarget hentry,
        insertFrom_cons, hnext, ih]
      rfl

end InferredCast
end Querysmith
