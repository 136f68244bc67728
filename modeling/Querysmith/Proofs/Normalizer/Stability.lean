/-
# Normalizing twice

Most values that were normalized stay as they are when they are normalized again.  A pass can change
the kind of a leaf, though, and then the next pass applies other rules to it:

| the leaf is | under a name | first becomes | then |
| --- | --- | --- | --- |
| a boolean | with a text marker | its text | the boolean again |
| a boolean word | with a text marker | the boolean | its text |
| a decimal with a 64-bit floor | of ids, without a marker | the floating number | its floor |

These leaves are `IsUnstable`, and there are no others: a value is a fixed point after one pass
exactly when it has none of them (`normalize_normalize_iff`).
-/

import Querysmith.Proofs.Normalizer.Forms
import Querysmith.Proofs.Normalizer.Leaf

namespace Querysmith
namespace Normalizer

variable (n : Normalizer) (name : String)

/-- What a text becomes, with the reasons that a further pass depends on. -/
inductive TextOutcome (s : String) : Json → Prop where
  /-- A boolean word is read. -/
  | word {b : Bool} (hword : booleanText? s = some b) : TextOutcome s (.bool b)
  /-- The text stays. -/
  | kept (hword : booleanText? s = none) : TextOutcome s (.str s)
  /-- Digits are read. -/
  | integer {i : Int} (hword : booleanText? s = none) (hdigits : ¬SpellsDecimal s.toList)
      (hname : isIdColumn name = true ∨ n.keepsText name = false) : TextOutcome s (.int i)
  /-- A decimal is read. -/
  | floating {x : Binary64} (hspells : SpellsDecimal s.toList)
      (hread : Binary64.ofText? s = some x) (hfinite : x.isFinite = true)
      (hname : n.keepsText name = false) : TextOutcome s (.float x)

/-- **A text is normalized by one of the listed reasons.** -/
theorem textOutcome_normalizeText (s : String) :
    n.TextOutcome name s (n.normalizeText name s) := by
  rw [normalizeText]
  cases hword : booleanText? s with
  | some b => exact .word hword
  | none =>
    simp only
    split
    · exact .kept hword
    · split
      · rename_i hdigits
        rw [Bool.and_eq_true] at hdigits
        split
        · refine .integer hword (fun hspells => ?_) (.inl hdigits.1)
          rw [hspells.isDigits] at hdigits
          cases hdigits.2
        · exact .kept hword
      · split
        · exact .kept hword
        · rename_i hname
          rw [Bool.not_eq_true] at hname
          split
          · rename_i hdigits
            split
            · refine .integer hword (fun hspells => ?_) (.inr hname)
              rw [hspells.isSignedDigits] at hdigits
              cases hdigits
            · exact .kept hword
          · split
            · rename_i hspells
              split
              · rename_i x hread
                split
                · exact .floating ((spellsDecimal_iff _).2 hspells) hread ‹_› hname
                · exact .kept hword
              · exact .kept hword
            · exact .kept hword

/-- A decimal is read where no text marker keeps it. -/
theorem normalizeText_of_spellsDecimal {s : String} {x : Binary64}
    (hspells : SpellsDecimal s.toList) (hread : Binary64.ofText? s = some x)
    (hfinite : x.isFinite = true) (hname : n.keepsText name = false) :
    n.normalizeText name s = .float x := by
  simp [normalizeText, hspells.booleanText?, hspells.isDocumentText, hspells.isDigits,
    hspells.isSignedDigits, (spellsDecimal_iff _).1 hspells, hread, hfinite, hname]

/-- The leaf spells a boolean: it is one, or a text that is `true` or `false` in some case. -/
def SpellsBoolean : Json → Prop
  | .bool _ => True
  | .str s => Text.lowerAscii s = "true" ∨ Text.lowerAscii s = "false"
  | _ => False

/-- The leaf is a text that spells a decimal, and the number that it is read as is finite and has a
floor of 64 bits. -/
def SpellsFloored : Json → Prop
  | .str s => SpellsDecimal s.toList ∧ ∃ x i, Binary64.ofText? s = some x ∧ x.isFinite = true ∧
      x.floor? = some i ∧ SqlValue.minInt ≤ i ∧ i ≤ SqlValue.maxInt
  | _ => False

/-- A further pass changes the leaf again. -/
def IsUnstable (leaf : Json) : Prop :=
  (n.keepsText name = true ∧ SpellsBoolean leaf) ∨
    (isIdColumn name = true ∧ n.keepsText name = false ∧ SpellsFloored leaf)

/-- A string spells a boolean when it is a boolean word. -/
theorem spellsBoolean_str_iff {s : String} :
    SpellsBoolean (.str s) ↔ ∃ b, booleanText? s = some b := by
  simp only [SpellsBoolean, booleanText?_eq_some_iff]
  constructor
  · rintro (h | h)
    · exact ⟨true, h⟩
    · exact ⟨false, h⟩
  · rintro ⟨b, h⟩
    cases b
    · exact .inr h
    · exact .inl h

/-- A floating number is floored to an integer of 64 bits. -/
theorem floorInteger?_eq_some_iff {x : Binary64} {i : Int} :
    floorInteger? x = some i ↔
      x.floor? = some i ∧ SqlValue.minInt ≤ i ∧ i ≤ SqlValue.maxInt := by
  simp [floorInteger?, Option.filter_eq_some_iff]

variable {n name}

/-- A boolean word becomes the boolean, whatever the column is called. -/
theorem normalizeText_of_word {s : String} {b : Bool} (h : booleanText? s = some b) :
    n.normalizeText name s = .bool b := by
  rw [normalizeText, h]

/-- The text of a number stays under a name with a text marker. -/
theorem normalizeText_of_keepsText {s : String} (hid : ¬isIdColumn name = true)
    (hname : n.keepsText name = true) (hword : booleanText? s = none) :
    n.normalizeText name s = .str s := by
  simp [normalizeText, hid, hname, hword]

/-- Numbers are stable. -/
theorem normalize_normalizeInt (i : Int) :
    n.normalize name (n.normalizeInt name i) = n.normalizeInt name i := by
  rw [normalizeInt]
  split
  · rw [normalize, normalizeInt, if_pos ‹_›]
  · rename_i hid
    split
    · exact normalizeText_of_keepsText hid ‹_› (booleanText?_ofInt i)
    · rw [normalize, normalizeInt, if_neg hid, if_neg ‹_›]

/-- **A floating number is normalized once and for all.** -/
theorem normalize_normalizeFloat (x : Binary64) :
    n.normalize name (n.normalizeFloat name x) = n.normalizeFloat name x := by
  rw [normalizeFloat]
  split
  · rename_i hid
    split
    · rw [normalize, normalizeInt, if_pos hid]
    · rename_i hfloor
      rw [normalize, normalizeFloat, if_pos hid, hfloor]
  · rename_i hid
    split
    · exact normalizeText_of_keepsText hid ‹_› (Binary64.booleanText?_text _ x)
    · rw [normalize, normalizeFloat, if_neg hid, if_neg ‹_›]

/-- A boolean is stable where it is no text. -/
theorem normalize_normalize_bool (b : Bool) :
    n.normalize name (n.normalize name (.bool b)) = n.normalize name (.bool b) ↔
      ¬n.IsUnstable name (.bool b) := by
  have hunstable : n.IsUnstable name (.bool b) ↔ n.keepsText name = true := by
    simp [IsUnstable, SpellsBoolean, SpellsFloored]
  rw [hunstable]
  by_cases hname : n.keepsText name = true
  · have hword : booleanText? (if b then "true" else "false") = some b := by
      cases b <;> decide
    simp [normalize, hname, normalizeText_of_word hword]
  · simp [normalize, hname]

/-- Where a decimal was read, it is rounded down by a second pass under a name of ids. -/
theorem normalize_float_eq_iff {s : String} {x : Binary64} (hspells : SpellsDecimal s.toList)
    (hread : Binary64.ofText? s = some x) (hfinite : x.isFinite = true)
    (hname : n.keepsText name = false) :
    n.normalize name (.float x) = .float x ↔ ¬n.IsUnstable name (.str s) := by
  have hunstable : n.IsUnstable name (.str s) ↔
      isIdColumn name = true ∧ ∃ i, floorInteger? x = some i := by
    simp [IsUnstable, SpellsFloored, hname, hspells, hread, hfinite, floorInteger?_eq_some_iff]
  rw [hunstable, normalize, normalizeFloat]
  split
  · rename_i hid
    cases hfloor : floorInteger? x with
    | none => simp
    | some i => simp [hid]
  · rename_i hid
    simp [hname, hid]

/-- A text is stable unless it spells a boolean that becomes a text again, or a decimal that is
rounded down. -/
theorem normalize_normalize_str (s : String) :
    n.normalize name (n.normalize name (.str s)) = n.normalize name (.str s) ↔
      ¬n.IsUnstable name (.str s) := by
  have houtcome := n.textOutcome_normalizeText name s
  change n.normalize name (n.normalizeText name s) = n.normalizeText name s ↔ _
  generalize hresult : n.normalizeText name s = result at houtcome
  cases houtcome with
  | @word b hword =>
    -- A boolean is stable unless its column keeps texts, where it becomes the word again.
    have hspells : ¬SpellsDecimal s.toList := fun hspells => by
      rw [hspells.booleanText?] at hword
      cases hword
    have hunstable : n.IsUnstable name (.str s) ↔ n.keepsText name = true := by
      rw [IsUnstable, spellsBoolean_str_iff]
      simp [hword, SpellsFloored, hspells]
    rw [hunstable]
    by_cases hname : n.keepsText name = true
    · simp [normalize, hname]
    · simp [normalize, hname]
  | kept hword =>
    refine iff_of_true hresult ?_
    rw [IsUnstable, spellsBoolean_str_iff]
    -- A text that stays is stable, and none of the two reasons to be unstable can apply to it.
    rintro (⟨-, b, hb⟩ | ⟨-, hname, hspells, x, i, hread, hfinite, -⟩)
    · rw [hword] at hb
      cases hb
    · rw [n.normalizeText_of_spellsDecimal name hspells hread hfinite hname] at hresult
      cases hresult
  | @integer i hword hspells hname =>
    -- An integer stays one: its column is an id, or does not keep texts.
    have hint : n.normalize name (.int i) = .int i := by
      rw [normalize, normalizeInt]
      rcases hname with hid | hname
      · rw [if_pos hid]
      · simp [hname]
    refine iff_of_true hint ?_
    rw [IsUnstable, spellsBoolean_str_iff]
    simp [hword, SpellsFloored, hspells]
  | floating hspells hread hfinite hname =>
    exact normalize_float_eq_iff hspells hread hfinite hname

/-- A leaf is stable unless it is one of the unstable ones. -/
theorem normalize_normalize_leaf {leaf : Json} (h : leaf.isStructured = false) :
    n.normalize name (n.normalize name leaf) = n.normalize name leaf ↔
      ¬n.IsUnstable name leaf := by
  cases leaf with
  | arr _ | obj _ => cases h
  | null => simp [normalize, IsUnstable, SpellsBoolean, SpellsFloored]
  | bool b => exact normalize_normalize_bool b
  | int i =>
    refine iff_of_true (normalize_normalizeInt i) ?_
    simp [IsUnstable, SpellsBoolean, SpellsFloored]
  | float x =>
    refine iff_of_true (normalize_normalizeFloat x) ?_
    simp [IsUnstable, SpellsBoolean, SpellsFloored]
  | str s => exact normalize_normalize_str s

/-- **One pass reaches a fixed point** on the values without an unstable leaf, and on no others. -/
theorem normalize_normalize_iff (n : Normalizer) (column : String) (v : Json) :
    n.normalize column (n.normalize column v) = n.normalize column v ↔
      ∀ leaf ∈ v.leaves column, ¬n.IsUnstable leaf.1 leaf.2 := by
  have htwice := n.normalize_mapLeaves column n.normalize v
  rw [← n.normalize_eq_mapLeaves] at htwice
  rw [htwice, n.normalize_eq_mapLeaves column v, Json.mapLeaves_eq_iff]
  exact forall₂_congr fun leaf hleaf =>
    normalize_normalize_leaf (Json.isStructured_of_mem_leaves hleaf)

example : ({} : Normalizer).normalize "phone" (.str "True") = .bool true ∧
    ({} : Normalizer).normalize "phone" (.bool true) = .str "true" := ⟨rfl, rfl⟩

end Normalizer
end Querysmith
