/-
# Conditions as SQL reads them

The condition behind `WHERE`, read by precedence: `AND` binds tighter than `OR`, and parentheses
group.  The reader knows nothing of the form in which filters are written, so what it finds is what
a database finds.  A condition is an OR of its `disjuncts`, and each of them an AND of its
`conjuncts`.
-/

import Querysmith.Proofs.Lists
import Querysmith.Sql.Reader
import Mathlib.Data.List.Forall2

namespace Querysmith
namespace Sql

/-- A condition. -/
inductive Formula where
  | test (t : Test)
  | all (parts : List Formula)
  | any (parts : List Formula)
  deriving Repr, Inhabited

namespace Formula

open Reader (isKeyword separated parenthesized)

/-- The conjunction of parts; one part stands for itself. -/
def conj : List Formula → Formula
  | [f] => f
  | fs => all fs

/-- The disjunction of parts; one part stands for itself. -/
def disj : List Formula → Formula
  | [f] => f
  | fs => any fs

/-- The branches of a condition. -/
def disjuncts : Formula → List Formula
  | any fs => fs
  | f => [f]

/-- The parts of a branch. -/
def conjuncts : Formula → List Formula
  | all fs => fs
  | f => [f]

/-- A test, or a condition between parentheses. -/
def factor (fuel : Nat) (inner : Reader Formula) : Reader Formula
  | .sign "(" :: ts => parenthesized inner (.sign "(" :: ts)
  | ts => (test <$> Reader.test fuel) ts

/-- Factors with `AND` between them. -/
def term (fuel : Nat) (inner : Reader Formula) : Reader Formula :=
  conj <$> separated (isKeyword "and") (factor fuel inner) fuel []

/-- Terms with `OR` between them.  The depth bounds the nesting of parentheses, the fuel the length
of lists. -/
def read (fuel : Nat) : Nat → Reader Formula
  | 0 => fun _ => none
  | depth + 1 => disj <$> separated (isKeyword "or") (term fuel (read fuel depth)) fuel []

/-- What stands before the first `WHERE` of a text, and the condition behind it, when that takes the
rest of the text. -/
def ofWhere? (sql : String) : Option (List Token × Formula) := do
  let ts ← Token.read? sql
  match read ts.length ts.length ((ts.dropWhile (!isKeyword "where" ·)).drop 1) with
  | some (f, []) => some (ts.takeWhile (!isKeyword "where" ·), f)
  | _ => none

/-- An OR of ANDs of tests. -/
def ofTests (groups : List (List Test)) : Formula :=
  disj (groups.map fun group => conj (group.map test))

/-- The branches of an OR of ANDs, and their parts, are the groups and their tests. -/
theorem branches_ofTests (groups : List (List Test)) :
    (ofTests groups).disjuncts.map conjuncts = groups.map (·.map test) := by
  have hconj : ∀ group : List Test, (conj (group.map test)).conjuncts = group.map test ∧
      (conj (group.map test)).disjuncts = [conj (group.map test)] := by
    intro group
    match group with
    | [] => exact ⟨rfl, rfl⟩
    | [t] => exact ⟨rfl, rfl⟩
    | t :: u :: group => exact ⟨rfl, rfl⟩
  have hdisj : (ofTests groups).disjuncts = groups.map fun group => conj (group.map test) := by
    match groups with
    | [] => rfl
    | [group] => exact (hconj group).2
    | g :: h :: groups => rfl
  rw [hdisj, List.map_map]
  exact List.map_congr_left fun group _ => (hconj group).1

end Formula

namespace Reader

variable {α β : Type}

/-- A reader goes on where the one before it has stopped. -/
theorem bind_eq {r : Reader α} {f : α → Reader β} {ts rest : List Token} {a : α}
    (h : r ts = some (a, rest)) : (r >>= f) ts = f a rest := by
  change (r ts).bind (fun (a, rest) => f a rest) = f a rest
  rw [h]
  rfl

/-- A mapped reader takes what the reader takes. -/
theorem map_eq {r : Reader α} {f : α → β} {ts rest : List Token} {a : α}
    (h : r ts = some (a, rest)) : (f <$> r) ts = some (f a, rest) := by
  change (r ts).bind (fun (a, rest) => some (f a, rest)) = some (f a, rest)
  rw [h]
  rfl

/-- The reader takes each part as its item, when what follows is as `Follows` says. -/
def ReadsItems (item : Reader α) (Follows : List Token → Prop) (parts : List (List Token))
    (items : List α) : Prop :=
  List.Forall₂ (fun part a => ∀ rest, Follows rest → item (part ++ rest) = some (a, rest)) parts
    items

/-- **A list reads back item by item,** when nothing behind it goes on with a further item. -/
theorem separated_intercalate {isSeparator : Token → Bool} {item : Reader α} {sep : Token}
    (hsep : isSeparator sep = true) {Follows : List Token → Prop}
    (hfollows : ∀ ts, Follows (sep :: ts)) {parts : List (List Token)} {items : List α}
    (h : ReadsItems item Follows parts items) (hne : parts ≠ []) {fuel : Nat}
    (hfuel : parts.length ≤ fuel) (acc : List α) {rest : List Token} (hrest : Follows rest)
    (hstop : rest.head?.any isSeparator = false) :
    separated isSeparator item fuel acc ([sep].intercalate parts ++ rest) =
      some (acc.reverse ++ items, rest) := by
  -- Along the parts: the last one meets what follows the list, every other one a separator.
  induction h generalizing fuel acc with
  | nil => exact absurd rfl hne
  | @cons part a parts items hpart hparts ih =>
    cases fuel with
    | zero => simp at hfuel
    | succ fuel =>
      cases hparts with
      | nil =>
        rw [List.intercalate_singleton, separated, hpart rest hrest]
        cases rest with
        | nil => simp
        | cons t rest =>
          have ht : isSeparator t = false := hstop
          simp [ht]
      | @cons q b parts items hq hparts =>
        have hsplit : [sep].intercalate (part :: q :: parts) ++ rest =
            part ++ sep :: ([sep].intercalate (q :: parts) ++ rest) := by
          simp [List.intercalate_cons_cons]
        rw [hsplit, separated, hpart _ (hfollows _)]
        simp only [hsep, if_true]
        rw [ih (List.cons_ne_nil q parts) (Nat.le_of_succ_le_succ hfuel) (a :: acc)]
        simp

/-- What stands between parentheses reads back. -/
theorem parenthesized_eq {r : Reader α} {part : List Token} {a : α} {rest : List Token}
    (h : r (part ++ .sign ")" :: rest) = some (a, .sign ")" :: rest)) :
    parenthesized r (.sign "(" :: (part ++ .sign ")" :: rest)) = some (a, rest) := by
  have hopen : sign "(" (.sign "(" :: (part ++ .sign ")" :: rest)) =
      some ((), part ++ .sign ")" :: rest) := rfl
  have hclose : sign ")" (.sign ")" :: rest) = some ((), rest) := rfl
  rw [parenthesized, bind_eq hopen, bind_eq h, bind_eq hclose]
  rfl

end Reader

namespace Formula

open Reader

/-- Neither `AND` nor `OR` follows. -/
def Ends (rest : List Token) : Prop :=
  rest.head?.any (isKeyword "and") = false ∧ rest.head?.any (isKeyword "or") = false

/-- **Factors with `AND` between them are read as their conjunction.** -/
theorem term_eq {fuel : Nat} {inner : Reader Formula} {parts : List (List Token)}
    {fs : List Formula} (h : ReadsItems (factor fuel inner) (fun _ => True) parts fs)
    (hne : parts ≠ []) (hfuel : parts.length ≤ fuel) {rest : List Token}
    (hrest : rest.head?.any (isKeyword "and") = false) :
    term fuel inner ([.word "AND"].intercalate parts ++ rest) = some (conj fs, rest) :=
  map_eq (separated_intercalate rfl (fun _ => trivial) h hne hfuel [] trivial hrest)

/-- **Terms with `OR` between them are read as their disjunction.** -/
theorem read_eq {fuel depth : Nat} {parts : List (List Token)} {fs : List Formula}
    (h : ReadsItems (term fuel (read fuel depth))
      (fun rest => rest.head?.any (isKeyword "and") = false) parts fs)
    (hne : parts ≠ []) (hfuel : parts.length ≤ fuel) {rest : List Token} (hrest : Ends rest) :
    read fuel (depth + 1) ([.word "OR"].intercalate parts ++ rest) = some (disj fs, rest) :=
  map_eq (separated_intercalate rfl (fun _ => rfl) h hne hfuel [] hrest.1 hrest.2)

/-- A single term is a condition. -/
theorem read_term {fuel depth : Nat} (hfuel : 0 < fuel) {part : List Token} {f : Formula}
    (h : ∀ rest, rest.head?.any (isKeyword "and") = false →
      term fuel (read fuel depth) (part ++ rest) = some (f, rest))
    {rest : List Token} (hrest : Ends rest) :
    read fuel (depth + 1) (part ++ rest) = some (f, rest) := by
  have hread := read_eq (.cons h .nil) (List.cons_ne_nil part []) hfuel hrest
  rwa [List.intercalate_singleton] at hread

/-- A single factor is a term. -/
theorem term_factor {fuel : Nat} (hfuel : 0 < fuel) {inner : Reader Formula} {part : List Token}
    {f : Formula} (h : ∀ rest, factor fuel inner (part ++ rest) = some (f, rest))
    (rest : List Token) (hrest : rest.head?.any (isKeyword "and") = false) :
    term fuel inner (part ++ rest) = some (f, rest) := by
  have hread := term_eq (.cons (fun rest _ => h rest) .nil) (List.cons_ne_nil part []) hfuel hrest
  rwa [List.intercalate_singleton] at hread

/-- The part reads as the test, with as much fuel as it is long, and does not begin with a
parenthesis. -/
def ReadsTest (part : List Token) (t : Test) : Prop :=
  part.head?.any (· != .sign "(") = true ∧
    ∀ fuel rest, part.length ≤ fuel → Reader.test fuel (part ++ rest) = some (t, rest)

/-- A test that reads back is a factor. -/
theorem factor_test {fuel : Nat} {part : List Token} {t : Test} (h : ReadsTest part t)
    (hfuel : part.length ≤ fuel) (inner : Reader Formula) (rest : List Token) :
    factor fuel inner (part ++ rest) = some (test t, rest) := by
  obtain ⟨hhead, hread⟩ := h
  have htest := hread fuel rest hfuel
  cases part with
  | nil => cases hhead
  | cons first part =>
    have hfirst : first ≠ .sign "(" := by simpa using hhead
    rw [List.cons_append] at htest ⊢
    unfold factor
    split
    · rename_i heq
      exact absurd (List.cons.inj heq).1 hfirst
    · exact map_eq htest

/-- The tokens of a part between parentheses. -/
def wrap (part : List Token) : List Token := [.sign "("] ++ part ++ [.sign ")"]

/-- Brackets are two tokens. -/
@[simp] theorem length_wrap (part : List Token) : (wrap part).length = part.length + 2 := by
  simp [wrap]

/-- A formula that reads back is a factor between brackets. -/
theorem factor_wrap {fuel : Nat} {inner : Reader Formula} {part : List Token} {f : Formula}
    (h : ∀ rest, inner (part ++ .sign ")" :: rest) = some (f, .sign ")" :: rest))
    (rest : List Token) : factor fuel inner (wrap part ++ rest) = some (f, rest) := by
  have hwrap : wrap part ++ rest = .sign "(" :: (part ++ .sign ")" :: rest) := by
    simp [wrap]
  rw [hwrap]
  exact parenthesized_eq (h rest)

/-- A closing parenthesis ends every condition. -/
theorem ends_parenthesis (rest : List Token) : Ends (.sign ")" :: rest) := ⟨rfl, rfl⟩

/-- The tokens of an AND between parentheses. -/
def writtenGroup (parts : List (List Token)) : List Token := wrap ([.word "AND"].intercalate parts)

/-- The tokens of an OR of ANDs, with parentheses around the whole. -/
def written (groups : List (List (List Token))) : List Token :=
  wrap ([.word "OR"].intercalate (groups.map writtenGroup))

/-- A group of tests between parentheses reads as their conjunction. -/
theorem factor_group {fuel depth : Nat} {parts : List (List Token)} {tests : List Test}
    (h : List.Forall₂ ReadsTest parts tests) (hne : parts ≠ [])
    (hfuel : (writtenGroup parts).length ≤ fuel) (rest : List Token) :
    factor fuel (read fuel (depth + 1)) (writtenGroup parts ++ rest) =
      some (conj (tests.map test), rest) := by
  rw [writtenGroup, length_wrap] at hfuel
  have hparts : ∀ part ∈ parts, part.length ≤ fuel := fun part hpart => by
    have := length_le_intercalate [.word "AND"] hpart
    omega
  have hlength := length_le_length_intercalate (.word "AND") parts
  have hitems : ReadsItems (factor fuel (read fuel depth)) (fun _ => True) parts
      (tests.map test) := by
    refine List.forall₂_map_right_iff.2 (((List.forall₂_and_left _ _).2 ⟨hparts, h⟩).imp ?_)
    rintro part t ⟨hpart, ht⟩ rest -
    exact factor_test ht hpart _ rest
  exact factor_wrap (fun rest => read_term (by omega) (fun _ => term_eq hitems hne (by omega))
    (ends_parenthesis rest)) rest

/-- **An OR of ANDs reads back.** -/
theorem read_written {fuel : Nat} {groups : List (List (List Token))} {tests : List (List Test)}
    (h : List.Forall₂ (fun parts tests => parts ≠ [] ∧ List.Forall₂ ReadsTest parts tests) groups
      tests)
    (hne : groups ≠ []) (hfuel : (written groups).length ≤ fuel) (depth : Nat) :
    read fuel (depth + 3) (written groups) = some (ofTests tests, []) := by
  rw [written, length_wrap] at hfuel
  have hgroups : ∀ parts ∈ groups, (writtenGroup parts).length ≤ fuel := fun parts hparts => by
    have := length_le_intercalate [.word "OR"] (List.mem_map_of_mem (f := writtenGroup) hparts)
    omega
  have hlength := length_le_length_intercalate (.word "OR") (groups.map writtenGroup)
  have hterms : ReadsItems (term fuel (read fuel (depth + 1)))
      (fun rest => rest.head?.any (isKeyword "and") = false)
      (groups.map writtenGroup) (tests.map fun group => conj (group.map test)) := by
    refine List.forall₂_map_left_iff.2 (List.forall₂_map_right_iff.2
      (((List.forall₂_and_left _ _).2 ⟨hgroups, h⟩).imp ?_))
    rintro parts tests ⟨hparts, hne, htests⟩
    exact term_factor (by omega) (factor_group htests hne hparts)
  -- The outer parentheses make the whole a single factor, of which nothing is left to follow.
  have hwhole : ∀ rest, factor fuel (read fuel (depth + 2)) (written groups ++ rest) =
      some (ofTests tests, rest) :=
    factor_wrap fun rest => read_eq hterms (by simpa using hne) (by omega) (ends_parenthesis rest)
  have hread := read_term (by omega) (term_factor (by omega) hwhole)
    (show Ends [] from ⟨rfl, rfl⟩)
  rwa [List.append_nil] at hread

/-- **The condition behind `WHERE` reads back,** whatever stands before the keyword. -/
theorem ofWhere?_written {sql : String} {before : List Token} {groups : List (List (List Token))}
    {tests : List (List Test)}
    (hsql : Token.read? sql = some (before ++ .word "WHERE" :: written groups))
    (hbefore : ∀ t ∈ before, isKeyword "where" t = false)
    (h : List.Forall₂ (fun parts tests => parts ≠ [] ∧ List.Forall₂ ReadsTest parts tests) groups
      tests)
    (hne : groups ≠ []) : ofWhere? sql = some (before, ofTests tests) := by
  have hall : ∀ t ∈ before, (!isKeyword "where" t) = true := fun t ht => by simp [hbefore t ht]
  have hhead : (before ++ .word "WHERE" :: written groups).takeWhile (!isKeyword "where" ·) =
      before := by
    rw [List.takeWhile_append_of_pos hall]
    exact List.append_nil before
  have hrest : ((before ++ .word "WHERE" :: written groups).dropWhile
      (!isKeyword "where" ·)).drop 1 = written groups := by
    rw [List.dropWhile_append_of_pos hall]
    rfl
  -- The reader has as much fuel as there are tokens, which is enough for the three levels of the
  -- formula.
  obtain ⟨depth, hdepth⟩ : ∃ depth,
      (before ++ .word "WHERE" :: written groups).length = depth + 3 :=
    ⟨(before ++ .word "WHERE" :: written groups).length - 3, by simp [written]; omega⟩
  have hfuel : (written groups).length ≤ depth + 3 := by
    simp only [List.length_append, List.length_cons] at hdepth
    omega
  have hread := read_written h hne hfuel depth
  rw [ofWhere?, hsql]
  change (match read (before ++ .word "WHERE" :: written groups).length _ _ with
    | some (f, []) => some (_, f)
    | _ => none) = _
  rw [hdepth, hrest, hread, hhead]

end Formula
end Sql
end Querysmith
