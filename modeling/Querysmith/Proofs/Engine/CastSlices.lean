/-
# Casts written in one pass over bytes

The casts are written in one pass over the characters and their byte offsets, and a placeholder is
cut out of the text between two offsets (`inPlace?`).  Cutting fails inside a character and behind
the end, and a number that exceeds a word is not read at all.  Neither happens to any text: the
offsets are those of the text that was passed (`scan?_eq`), and a number beyond a word has no entry
anyway.  So the pass ends with the text that the reader of places writes.
-/

import Querysmith.Compiler
import Querysmith.Proofs.Engine.CastStability
import Querysmith.Proofs.Lists

namespace Querysmith
namespace InferredCast

/-- The number of bytes that a text takes. -/
def byteLength : List Char → Nat
  | [] => 0
  | c :: cs => c.utf8Size + byteLength cs

/-- The characters of a text with the offsets that they begin at. -/
def indexed : Nat → List Char → List (Nat × Char)
  | _, [] => []
  | start, c :: cs => (start, c) :: indexed (start + c.utf8Size) cs

/-- The text in front of an offset and the text behind it.  There is none inside a character and
none behind the end. -/
def splitBytes? : Nat → List Char → Option (List Char × List Char)
  | 0, cs => some ([], cs)
  | _ + 1, [] => none
  | n + 1, c :: cs =>
    if n + 1 < c.utf8Size then none
    else (splitBytes? (n + 1 - c.utf8Size) cs).map fun parts => (c :: parts.1, parts.2)

/-- The text between two offsets. -/
def slice? (cs : List Char) (start stop : Nat) : Option (List Char) := do
  if stop < start then none
  let front ← splitBytes? start cs
  let back ← splitBytes? (stop - start) front.2
  return back.1

/-- The entry of a placeholder's digits, if they write a number that fits a word. -/
def castAt? (casts : List (Option String)) (digits : List Char) : Option String :=
  let number := Text.readDecimal digits
  if number = 0 ∨ maxWord < number then none else (casts[number - 1]?).join

/-- The placeholder between two offsets with its cast. -/
def placeholder? (sql : List Char) (casts : List (Option String)) (start stop : Nat) :
    Option (List Char) := do
  let placeholder ← slice? sql start stop
  let behind ← slice? sql stop (byteLength sql)
  if [':', ':'].isPrefixOf behind then return placeholder
  let digits ← slice? placeholder 1 (byteLength placeholder)
  match castAt? casts digits with
  | some target => return placeholder ++ ':' :: ':' :: target.toList
  | none => return placeholder

/-- Copies the characters that are left and writes the casts behind the placeholders. -/
def scan? (sql : List Char) (casts : List (Option String)) :
    List (Nat × Char) → Option (List Char)
  | [] => some []
  | (start, c) :: rest =>
    if c = '\'' ∨ c = '"' then do
      let stop := (rest.takeWhile fun p => decide (p.2 ≠ c)).length + 1
      let out ← scan? sql casts (rest.drop stop)
      return c :: ((rest.take stop).map (·.2) ++ out)
    else if c = '$' ∧ rest.head?.any (fun p => p.2.isDigit) then do
      let digits := rest.takeWhile fun p => p.2.isDigit
      let stop := digits.foldl (fun _ p => p.1 + p.2.utf8Size) (start + 1)
      let placeholder ← placeholder? sql casts start stop
      let out ← scan? sql casts (rest.drop digits.length)
      return placeholder ++ out
    else do
      let out ← scan? sql casts rest
      return c :: out
termination_by ps => ps.length
decreasing_by
  all_goals simp only [List.length_cons, List.length_drop]
  all_goals omega

/-- The pass over a whole text. -/
def inPlace? (sql : String) (casts : List (Option String)) : Option String :=
  (scan? sql.toList casts (indexed 0 sql.toList)).map String.ofList

/-! ### Offsets -/

/-- No characters take no bytes. -/
@[simp] theorem byteLength_nil : byteLength [] = 0 := rfl

/-- A character takes its bytes in front of the others. -/
@[simp] theorem byteLength_cons (c : Char) (cs : List Char) :
    byteLength (c :: cs) = c.utf8Size + byteLength cs := rfl

/-- The bytes of two texts add up. -/
@[simp] theorem byteLength_append (cs ds : List Char) :
    byteLength (cs ++ ds) = byteLength cs + byteLength ds := by
  induction cs with
  | nil => exact (Nat.zero_add _).symm
  | cons c cs ih => rw [List.cons_append, byteLength_cons, byteLength_cons, ih, Nat.add_assoc]

/-- Places are put beside the characters and change none. -/
@[simp] theorem map_snd_indexed (start : Nat) (cs : List Char) :
    (indexed start cs).map (·.2) = cs := by
  induction cs generalizing start with
  | nil => rfl
  | cons c cs ih => exact congrArg (c :: ·) (ih _)

/-- Every character has one place. -/
@[simp] theorem length_indexed (start : Nat) (cs : List Char) :
    (indexed start cs).length = cs.length := by
  rw [← List.length_map (·.2), map_snd_indexed]

/-- The second text begins where the bytes of the first one end. -/
theorem indexed_append (start : Nat) (cs ds : List Char) :
    indexed start (cs ++ ds) = indexed start cs ++ indexed (start + byteLength cs) ds := by
  induction cs generalizing start with
  | nil => rfl
  | cons c cs ih => simp [indexed, ih, Nat.add_assoc]

/-- What is taken by its characters is taken with its places. -/
theorem takeWhile_indexed (p : Char → Bool) (start : Nat) (cs : List Char) :
    (indexed start cs).takeWhile (fun q => p q.2) = indexed start (cs.takeWhile p) := by
  induction cs generalizing start with
  | nil => rfl
  | cons c cs ih =>
    rw [indexed, List.takeWhile_cons, List.takeWhile_cons, ih]
    split <;> rfl

/-- What is left begins behind the bytes of what was dropped. -/
theorem drop_indexed (n start : Nat) (cs : List Char) :
    (indexed start cs).drop n = indexed (start + byteLength (cs.take n)) (cs.drop n) := by
  conv_lhs => rw [← List.take_append_drop n cs, indexed_append]
  rcases Nat.le_total n cs.length with hn | hn
  · exact List.drop_left' (by simp [hn])
  · simp [List.drop_of_length_le hn, indexed, hn]

/-- The offset behind a run is the one behind its last character. -/
theorem foldl_indexed (start : Nat) (cs : List Char) :
    (indexed start cs).foldl (fun _ p => p.1 + p.2.utf8Size) start = start + byteLength cs := by
  induction cs generalizing start with
  | nil => rfl
  | cons c cs ih => rw [indexed, List.foldl_cons, ih, byteLength_cons, Nat.add_assoc]

/-! ### Slices -/

/-- **A text is cut at the bytes of its first part,** which is between two characters. -/
theorem splitBytes?_append (cs ds : List Char) :
    splitBytes? (byteLength cs) (cs ++ ds) = some (cs, ds) := by
  induction cs with
  | nil => rw [byteLength_nil, splitBytes?, List.nil_append]
  | cons c cs ih =>
    have hsize : 0 < c.utf8Size := c.utf8Size_pos
    obtain ⟨n, hn⟩ : ∃ n, byteLength (c :: cs) = n + 1 :=
      Nat.exists_eq_add_one.2 (Nat.add_pos_left hsize _)
    have hrest : n + 1 - c.utf8Size = byteLength cs := by
      rw [← hn, byteLength_cons, Nat.add_sub_cancel_left]
    have hle : ¬n + 1 < c.utf8Size := by
      rw [← hn, byteLength_cons]
      omega
    rw [hn, List.cons_append, splitBytes?, if_neg hle, hrest, ih, Option.map_some]

/-- A slice between two places of a text is what stands between them. -/
theorem slice?_append (before slice behind : List Char) :
    slice? (before ++ (slice ++ behind)) (byteLength before) (byteLength (before ++ slice)) =
      some slice := by
  simp [slice?, splitBytes?_append]

/-- A placeholder is cut out whole, and its number is read whenever it has an entry. -/
theorem placeholder?_eq {casts : List (Option String)} (hcasts : casts.length ≤ maxWord)
    (before digits behind : List Char) :
    placeholder? (before ++ ('$' :: digits ++ behind)) casts (byteLength before)
        (byteLength (before ++ '$' :: digits)) =
      some ('$' :: (digits ++
        Sql.Symbol.castBefore casts (Text.readDecimal digits) behind)) := by
  have hbehind : slice? (before ++ ('$' :: digits ++ behind))
      (byteLength (before ++ '$' :: digits))
      (byteLength (before ++ ('$' :: digits ++ behind))) = some behind := by
    have := slice?_append (before ++ '$' :: digits) behind []
    rwa [List.append_nil, List.append_assoc] at this
  have hdigits : slice? ('$' :: digits) 1 (byteLength ('$' :: digits)) = some digits := by
    have := slice?_append ['$'] digits []
    rwa [List.append_nil] at this
  have hentry : castAt? casts digits =
      if Text.readDecimal digits = 0 then none else (casts[Text.readDecimal digits - 1]?).join := by
    rw [castAt?]
    -- A number beyond a machine word has no entry, since the list of casts is shorter.
    by_cases hword : maxWord < Text.readDecimal digits
    · have hnone : casts[Text.readDecimal digits - 1]? = none :=
        List.getElem?_eq_none (by omega)
      simp [hword, hnone]
    · simp [hword]
  have hcolons : "::".toList = [':', ':'] := rfl
  rw [placeholder?, slice?_append, Sql.Symbol.castBefore.eq_def, hcolons]
  simp only [hbehind, hdigits, hentry, Option.bind_eq_bind, Option.bind_some]
  split
  · simp
  · cases Text.readDecimal digits with
    | zero => simp
    | succ n => cases h : casts[n]? with
      | none => simp [h]
      | some entry => cases entry <;> simp [h]

/-! ### The pass -/

variable {casts : List (Option String)}

/-- A quoted text is copied up to its quote, or up to the end. -/
theorem insertFrom_inside (q : Char) (cs : List Char) :
    insertFrom casts (.inside q) cs =
      cs.take ((cs.takeWhile fun c => decide (c ≠ q)).length + 1) ++
        insertFrom casts .outside
          (cs.drop ((cs.takeWhile fun c => decide (c ≠ q)).length + 1)) := by
  induction cs with
  | nil => rfl
  | cons c cs ih =>
    by_cases hc : c = q
    · simp [insertFrom, hc]
    · simp [insertFrom, hc, ih]

/-- **The pass goes on from the offset behind what was passed.** -/
theorem scan?_eq (hcasts : casts.length ≤ maxWord) {sql before : List Char} (cs : List Char)
    (hsql : sql = before ++ cs) :
    scan? sql casts (indexed (byteLength before) cs) = some (insertFrom casts .outside cs) := by
  match cs with
  | [] => simp [indexed, scan?, insertFrom]
  | c :: cs =>
    -- The offset behind what is passed next is the length of it.
    have hrest : ∀ n, scan? sql casts ((indexed (byteLength before + c.utf8Size) cs).drop n) =
        some (insertFrom casts .outside (cs.drop n)) := by
      intro n
      have hlength : byteLength before + c.utf8Size + byteLength (cs.take n) =
          byteLength (before ++ c :: cs.take n) := by simp [Nat.add_assoc]
      rw [drop_indexed, hlength]
      exact scan?_eq hcasts (cs.drop n) (by simp [hsql])
    rw [indexed, scan?]
    by_cases hquote : c = '\'' ∨ c = '"'
    · have hafter : Place.after c = .inside c := if_pos hquote
      rw [if_pos hquote, insertFrom, hafter, insertFrom_inside,
        takeWhile_indexed (fun d => decide (d ≠ c)), length_indexed]
      simp only [hrest, List.map_take, map_snd_indexed, Option.bind_eq_bind, Option.bind_some]
      rfl
    · rw [if_neg hquote]
      by_cases hsign : c = '$' ∧ cs.head?.any Char.isDigit
      · obtain ⟨rfl, hdigit⟩ := hsign
        have hhead : (indexed (byteLength before + '$'.utf8Size) cs).head?.any
            (fun p => p.2.isDigit) = true := by
          cases cs <;> exact hdigit
        obtain ⟨hne, hdigits, hbehind⟩ := run_of_head? hdigit
        have hcs := (List.takeWhile_append_dropWhile (p := Char.isDigit) (l := cs)).symm
        generalize hrun : cs.takeWhile Char.isDigit = digits at hne hdigits hcs
        generalize cs.dropWhile Char.isDigit = behind at hbehind hcs
        have hstop : (indexed (byteLength before + '$'.utf8Size) digits).foldl
            (fun _ p => p.1 + p.2.utf8Size) (byteLength before + 1) =
              byteLength (before ++ '$' :: digits) := by
          rw [byteLength_append, byteLength_cons, ← Nat.add_assoc]
          exact foldl_indexed _ _
        have hplaceholder := placeholder?_eq hcasts before digits behind
        have hout := hrest digits.length
        rw [List.cons_append, ← hcs, ← hsql] at hplaceholder
        rw [hcs, List.drop_left, ← hcs] at hout
        rw [if_pos ⟨rfl, hhead⟩, takeWhile_indexed Char.isDigit, hrun]
        simp only [hstop, hplaceholder, length_indexed, hout, Option.bind_eq_bind,
          Option.bind_some]
        rw [hcs, insertFrom_placeholder hne hdigits, insertFrom_behind hbehind, List.cons_append,
          List.append_assoc]
        rfl
      · have hhead : ¬(c = '$' ∧ (indexed (byteLength before + c.utf8Size) cs).head?.any
            (fun p => p.2.isDigit) = true) := by
          cases cs <;> exact hsign
        have := hrest 0
        rw [List.drop_zero, List.drop_zero] at this
        rw [if_neg hhead, this, insertFrom, insertFrom_after hquote hsign]
        rfl
termination_by cs.length
decreasing_by
  simp only [List.length_cons, List.length_drop]
  omega

/-- **Casts are inserted into any text, and once.**  The pass over bytes never cuts a text wrongly.
Without what it inserts the text is the one it was given, and each piece that it inserts is a cast
behind all the digits of a placeholder.  Without entries it inserts nothing, and a second run
inserts nothing when the targets are such as types have. -/
theorem inserts_once (sql : String) (casts : List (Option String)) :
    (casts.length ≤ maxWord → inPlace? sql casts = some (insert sql casts)) ∧
    (∃ ms : Marked, ms.original = sql.toList ∧ ms.written = (insert sql casts).toList ∧
      Placed casts [] ms) ∧
    ((∀ cast ∈ casts, cast = none) → insert sql casts = sql) ∧
    ((∀ target, some target ∈ casts → IsTarget target) →
      insert (insert sql casts) casts = insert sql casts) := by
  have hstart : Place.outside.Follows [] := trivial
  refine ⟨fun hcasts => ?_, ⟨seen casts .outside sql.toList, original_seen .outside sql.toList,
    (toList_insert sql).symm, placed_seen hstart sql.toList⟩, fun habsent => ?_, fun htargets => ?_⟩
  · have hscan := scan?_eq hcasts sql.toList (List.nil_append _).symm
    rw [byteLength_nil] at hscan
    rw [inPlace?, hscan, Option.map_some, insert]
  · rw [insert, insertFrom_of_absent habsent, String.ofList_toList]
  · rw [insert, insert, String.toList_ofList, insertFrom_insertFrom htargets]

/-- A text with a letter of two bytes, a placeholder that counts from zero, one with a zero in
front, one beyond a word and a quote that is never closed, for a type of the server and one of a
user. -/
theorem inserts_once_unclosed :
    ∃ sql casts, sql = "é$0, $02, $1::x, $1::, $18446744073709551617, '$1'$1'$2$" ∧
      casts = [castTarget ⟨"DATE", true⟩, castTarget ⟨"Mood $1", false⟩] ∧
      insert sql casts =
        "é$0, $02::\"Mood $1\", $1::x, $1::, $18446744073709551617, '$1'$1::DATE'$2$" ∧
      inPlace? sql casts = some (insert sql casts) ∧
      (∃ ms : Marked, ms.original = sql.toList ∧ ms.written = (insert sql casts).toList ∧
        Placed casts [] ms) ∧
      insert (insert sql casts) casts = insert sql casts ∧ insert sql [none] = sql := by
  have htargets : ∀ target, some target ∈ [castTarget ⟨"DATE", true⟩,
      castTarget ⟨"Mood $1", false⟩] → IsTarget target := by
    intro target htarget
    rcases List.mem_pair.1 htarget with htarget | htarget
    · have hword : "DATE".toList.all (fun c => c != '"' && c != '\'' && c != '$') = true := by
        decide +kernel
      refine isTarget_of_castTarget (fun _ c hc => ?_) htarget.symm
      simpa [and_assoc] using List.all_eq_true.1 hword c hc
    · exact isTarget_of_castTarget (fun h => absurd h (by decide)) htarget.symm
  have h := inserts_once "é$0, $02, $1::x, $1::, $18446744073709551617, '$1'$1'$2$"
    [castTarget ⟨"DATE", true⟩, castTarget ⟨"Mood $1", false⟩]
  exact ⟨_, _, rfl, rfl, by decide +kernel, h.1 (by decide), h.2.1, h.2.2.2 htargets,
    (inserts_once _ [none]).2.2.1 (by simp)⟩

end InferredCast
end Querysmith
