/-
# The text of a fragment, piece by piece

What a fragment writes is what its first piece writes and then the rest.  For the dialects that come
with the compiler a name stands between double quotes, and a placeholder is a sign, the digits of
its number, and perhaps a cast.
-/

import Querysmith.Proofs.Fragment.Legible

namespace Querysmith

/-- The dialects that come with the compiler. -/
inductive Dialect.Bundled : Dialect → Prop
  | postgres : Bundled .postgres
  | sqlite : Bundled .sqlite

namespace Dialect

variable {d : Dialect}

/-- The bundled dialects have the double quote. -/
theorem quote_of_bundled (hd : d.Bundled) : d.quote = '"' := by
  cases hd <;> rfl

/-- The text behind the number of a placeholder. -/
def castText (d : Dialect) : Option String → List Char
  | some target => if d.typeCasts then ':' :: ':' :: target.toList else []
  | none => []

/-- A cast is written with colons and its target. -/
theorem mem_castText {c : Char} {cast : Option String} (h : c ∈ d.castText cast) :
    c = ':' ∨ ∃ target ∈ cast, c ∈ target.toList := by
  cases cast with
  | none => cases h
  | some target =>
    rw [castText] at h
    split at h
    · simpa [or_assoc] using h
    · cases h

/-- A placeholder with a number is a sign, digits and a cast. -/
theorem castPlaceholder_of_numbered (sign : String) (h : d.marker = .numbered sign) (n : Nat)
    (cast : Option String) :
    (d.castPlaceholder n cast).toList = sign.toList ++ (Text.decimal n ++ d.castText cast) := by
  cases cast with
  | none => simp [castPlaceholder, placeholder, h, castText, Text.ofNat]
  | some target =>
    rw [castPlaceholder, Dialect.cast, castText]
    split <;> simp [placeholder, h, Text.ofNat]

/-- **A placeholder is a sign, the digits of its number, and its cast.** -/
theorem castPlaceholder_of_bundled (hd : d.Bundled) (n : Nat) (cast : Option String) :
    ∃ sign, (sign = '$' ∨ sign = '?') ∧
      (d.castPlaceholder n cast).toList = sign :: (Text.decimal n ++ d.castText cast) := by
  cases hd with
  | postgres => exact ⟨'$', .inl rfl, castPlaceholder_of_numbered "$" rfl n cast⟩
  | sqlite => exact ⟨'?', .inr rfl, castPlaceholder_of_numbered "?" rfl n cast⟩

end Dialect

namespace Fragment

variable {d : Dialect}

@[simp] theorem sql_nil (bound : Nat) : sql d bound [] = "" := rfl

/-- A text is written as it is. -/
theorem sql_text (bound : Nat) (s : String) (f : Fragment) :
    (sql d bound (.text s :: f)).toList = s.toList ++ (sql d bound f).toList := by
  rw [sql, write, write_eq, String.empty_append, String.toList_append]

/-- A name is written between quotes, with the quotes inside it doubled. -/
theorem sql_name (hd : d.Bundled) (bound : Nat) (s : String) (f : Fragment) :
    (sql d bound (.name s :: f)).toList =
      '"' :: (Text.double '"' s.toList ++ '"' :: (sql d bound f).toList) := by
  rw [sql, write, write_eq, String.empty_append, String.toList_append, Dialect.quoteIdentifier,
    String.toList_ofList, Dialect.quote_of_bundled hd]
  simp

/-- A hole is written as the placeholder with the next number. -/
theorem sql_hole (bound : Nat) (v : SqlValue) (cast : Option String) (f : Fragment) :
    (sql d bound (.hole v cast :: f)).toList =
      (d.castPlaceholder (bound + 1) cast).toList ++ (sql d (bound + 1) f).toList := by
  rw [sql, write, write_eq, String.empty_append, String.toList_append]

variable {targets : List String}

/-- No quote follows a name. -/
theorem head?_sql_of_name {s : String} {f : Fragment} (hf : Legible targets (.name s :: f))
    (bound : Nat) : (sql d bound f).toList.head? ≠ some '"' := by
  cases f with
  | nil => simp [sql_nil]
  | cons q f =>
    have hmeets := (List.isChain_cons_cons.1 hf.spaced).1
    cases q with
    | text t =>
      have hplain : isPlain t = true := hf.tail.plain _ List.mem_cons_self
      rw [sql_text]
      cases h : t.toList with
      | nil => exact absurd (String.toList_eq_nil_iff.1 h) hmeets
      | cons c cs =>
        rw [isPlain, h, List.all_cons, Bool.and_eq_true] at hplain
        rintro heq
        obtain rfl : c = '"' := by simpa using heq
        exact absurd hplain.1 (by decide)
    | name t => exact absurd hmeets id
    | hole v cast => exact absurd hmeets id

/-- Nothing but a separator follows a placeholder. -/
theorem head?_sql_of_hole {v : SqlValue} {cast : Option String} {f : Fragment}
    (hf : Legible targets (.hole v cast :: f)) (bound : Nat) :
    (sql d bound f).toList.head?.all isSeparator = true := by
  cases f with
  | nil => rfl
  | cons q f =>
    have hmeets := (List.isChain_cons_cons.1 hf.spaced).1
    cases q with
    | text s =>
      obtain ⟨c, cs, hcs, hc⟩ := exists_cons_of_opens hmeets
      rw [sql_text, hcs]
      exact hc
    | name s => exact absurd hmeets id
    | hole v cast => exact absurd hmeets id

end Fragment
end Querysmith
