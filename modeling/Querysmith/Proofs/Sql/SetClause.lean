/-
# `SET` clauses

Which columns a statement overwrites in the rows that it finds, read from its tokens.  Every keyword
`SET` begins a clause: the columns that are set, each to its own value in the new record.  The rows
are found by the target of the last `ON CONFLICT`, or by the groups behind `FROM source_data WHERE`.
A `SET` that cannot be read makes the whole statement unreadable, so none is passed over, and tokens
without `SET` and `CONFLICT` change nothing (`setClausesFrom_quiet`).
-/

import Querysmith.Proofs.Sql.Formula

namespace Querysmith
namespace Sql

/-- A `SET` clause: the groups of columns of which a row agrees with the new record on one, and the
columns that are set in that row. -/
structure SetClause where
  groups : List (List String)
  columns : List String
  deriving DecidableEq, Repr

namespace SetClause

/-- The clause sets no constrained column, unless to the value on which the row was found. -/
def Keeps (constrained : List String) (clause : SetClause) : Prop :=
  ∀ column ∈ clause.columns, column ∉ constrained ∨ ∀ group ∈ clause.groups, column ∈ group

instance (constrained : List String) (clause : SetClause) : Decidable (clause.Keeps constrained) :=
  inferInstanceAs (Decidable (∀ column ∈ clause.columns, _))

end SetClause

namespace Reader

/-- `a = source.a`: a column with its own value in the new record, which is `EXCLUDED` in a conflict
and `source_data` in a merge. -/
def ownValue : Reader String := do
  let column ← name
  sign "="
  let source ← next
  guard (isKeyword "excluded" source ∨ isKeyword "source_data" source)
  sign "."
  let value ← name
  guard (value = column)
  return column

/-- `target.a = source.a`: a column on which the row and the new record agree. -/
def agreement : Reader String := do
  keyword "target"
  sign "."
  ownValue

/-- `FROM source_data WHERE (a AND b) OR (c)`: the groups on which a row and the new record may
agree. -/
def agreements (fuel : Nat) : Reader (List (List String)) := do
  keywords ["from", "source_data", "where"]
  separated (isKeyword "or")
    (parenthesized (separated (isKeyword "and") agreement fuel [])) fuel []

/-- The `SET` clauses among tokens that stand behind an `ON CONFLICT` with this target. -/
def setClausesFrom (fuel : Nat) : Option (List String) → List Token → Option (List SetClause)
  | _, [] => some []
  | target, t :: rest =>
    if isKeyword "conflict" t then do
      let (target, _) ← parenthesized (list fuel name) rest
      setClausesFrom fuel (some target) rest
    else if isKeyword "set" t then do
      let (columns, behind) ← list fuel ownValue rest
      let groups ← ((agreements fuel behind).map (·.1)).or (target.map ([·]))
      let clauses ← setClausesFrom fuel target rest
      return ⟨groups, columns⟩ :: clauses
    else setClausesFrom fuel target rest

/-- The `SET` clauses of a text. -/
def setClauses? (sql : String) : Option (List SetClause) := do
  let ts ← Token.read? sql
  setClausesFrom ts.length none ts

/-- The token begins no clause. -/
def isQuiet (t : Token) : Bool := !isKeyword "conflict" t && !isKeyword "set" t

/-- Tokens that begin no clause change nothing. -/
theorem setClausesFrom_quiet {fuel : Nat} {target : Option (List String)} {ts : List Token}
    (h : ∀ t ∈ ts, isQuiet t = true) (rest : List Token) :
    setClausesFrom fuel target (ts ++ rest) = setClausesFrom fuel target rest := by
  induction ts with
  | nil => rfl
  | cons t ts ih =>
    rw [List.forall_mem_cons] at h
    obtain ⟨ht, hts⟩ := h
    rw [isQuiet, Bool.and_eq_true, Bool.not_eq_true', Bool.not_eq_true'] at ht
    rw [List.cons_append, setClausesFrom, ht.1, ht.2]
    exact ih hts

/-- A `CONFLICT` tells the target of the clause that follows. -/
theorem setClausesFrom_target {fuel : Nat} {before : Option (List String)} {t : Token}
    (ht : isKeyword "conflict" t = true) {rest behind : List Token} {target : List String}
    (h : parenthesized (list fuel name) rest = some (target, behind)) :
    setClausesFrom fuel before (t :: rest) = setClausesFrom fuel (some target) rest := by
  rw [setClausesFrom, if_pos ht, h]
  rfl

/-- A `SET` begins a clause. -/
theorem setClausesFrom_set {fuel : Nat} {target : Option (List String)} {rest behind : List Token}
    {columns : List String} {groups : List (List String)}
    (h : list fuel ownValue rest = some (columns, behind))
    (hgroups : ((agreements fuel behind).map (·.1)).or (target.map ([·])) = some groups) :
    setClausesFrom fuel target (.word "SET" :: rest) =
      (setClausesFrom fuel target rest).map (⟨groups, columns⟩ :: ·) := by
  have hconflict : isKeyword "conflict" (.word "SET") = false := rfl
  have hset : isKeyword "set" (.word "SET") = true := rfl
  rw [setClausesFrom, hconflict, hset, h]
  simp only [Bool.false_eq_true, if_false, if_true, Option.bind_eq_bind, Option.bind_some, hgroups]
  cases setClausesFrom fuel target rest <;> rfl

/-- What fails at its start fails. -/
theorem bind_eq_none {α β : Type} {r : Reader α} {f : α → Reader β} {ts : List Token}
    (h : r ts = none) : (r >>= f) ts = none := by
  change (r ts).bind (fun (a, rest) => f a rest) = none
  rw [h]
  rfl

/-- A condition that holds takes no token. -/
theorem guard_eq {p : Prop} [Decidable p] (h : p) (ts : List Token) :
    (guard p : Reader Unit) ts = some ((), ts) := by
  rw [guard, if_pos h]
  rfl

/-- A list whose parts are read alike reads back, when no separator follows it. -/
theorem separated_map {α : Type} {isSeparator : Token → Bool} {sep : Token}
    (hsep : isSeparator sep = true) {item : Reader α} {part : α → List Token} {xs : List α}
    (h : ∀ x ∈ xs, ∀ rest, item (part x ++ rest) = some (x, rest)) (hne : xs ≠ []) {fuel : Nat}
    (hfuel : xs.length ≤ fuel) {rest : List Token}
    (hstop : rest.head?.any isSeparator = false) :
    separated isSeparator item fuel [] ([sep].intercalate (xs.map part) ++ rest) =
      some (xs, rest) := by
  have hitems : ReadsItems item (fun _ => True) (xs.map part) xs :=
    List.forall₂_map_left_iff.2 (List.forall₂_same.2 fun x hx rest _ => h x hx rest)
  exact separated_intercalate hsep (fun _ => trivial) hitems (by simpa using hne)
    (by simpa using hfuel) [] trivial hstop

/-- The tokens of names with commas between them. -/
def nameTokens (names : List String) : List Token :=
  [.sign ","].intercalate (names.map ([.name ·]))

/-- The tokens of `a = source.a`. -/
def ownTokens (source column : String) : List Token :=
  [.name column, .sign "=", .word source, .sign ".", .name column]

/-- The tokens of `a = source.a` for each column. -/
def setTokens (source : String) (columns : List String) : List Token :=
  [.sign ","].intercalate (columns.map (ownTokens source))

/-- The tokens of `(target.a = source_data.a AND ...)`. -/
def groupTokens (group : List String) : List Token :=
  .sign "(" :: ([.word "AND"].intercalate (group.map fun column =>
    .word "target" :: .sign "." :: ownTokens "source_data" column) ++ [.sign ")"])

/-- The tokens of an `ON CONFLICT` clause. -/
def conflictTokens (updates target : List String) : List Token :=
  .word "ON" :: .word "CONFLICT" :: .sign "(" :: (nameTokens target ++ .sign ")" ::
    .word "DO" :: .word "UPDATE" :: .word "SET" :: setTokens "EXCLUDED" updates)

/-- The tokens of the `SET` clause of a merge. -/
def mergeTokens (groups : List (List String)) (updates : List String) : List Token :=
  .word "SET" :: (setTokens "source_data" updates ++ .word "FROM" :: .word "source_data" ::
    .word "WHERE" :: [.word "OR"].intercalate (groups.map groupTokens))

/-- The name of the new record. -/
def IsNew (source : String) : Prop := source = "EXCLUDED" ∨ source = "source_data"

/-- The new value of a column is read as its column. -/
theorem ownValue_eq {source : String} (hsource : IsNew source) (column : String)
    (rest : List Token) :
    ownValue (ownTokens source column ++ rest) = some (column, rest) := by
  have hname : ∀ ts, name (.name column :: ts) = some (column, ts) := fun _ => rfl
  have hnext : ∀ t ts, next (t :: ts) = some (t, ts) := fun _ _ => rfl
  have hequal : ∀ ts, sign "=" (.sign "=" :: ts) = some ((), ts) := fun _ => rfl
  have hdot : ∀ ts, sign "." (.sign "." :: ts) = some ((), ts) := fun _ => rfl
  have hnew : isKeyword "excluded" (.word source) = true ∨
      isKeyword "source_data" (.word source) = true := by
    rcases hsource with rfl | rfl
    · exact .inl rfl
    · exact .inr rfl
  simp only [ownTokens, List.cons_append, List.nil_append]
  rw [ownValue, bind_eq (hname _), bind_eq (hequal _), bind_eq (hnext _ _),
    bind_eq (guard_eq hnew _), bind_eq (hdot _), bind_eq (hname _), bind_eq (guard_eq rfl _)]
  rfl

/-- The columns that are set read back. -/
theorem list_setTokens {source : String} (hsource : IsNew source) {columns : List String}
    (hne : columns ≠ []) {fuel : Nat} (hfuel : columns.length ≤ fuel) {rest : List Token}
    (hstop : rest.head?.any (· == .sign ",") = false) :
    list fuel ownValue (setTokens source columns ++ rest) = some (columns, rest) :=
  separated_map rfl (fun column _ => ownValue_eq hsource column) hne hfuel hstop

/-- The target of a conflict reads back. -/
theorem parenthesized_nameTokens {names : List String} (hne : names ≠ []) {fuel : Nat}
    (hfuel : names.length ≤ fuel) (rest : List Token) :
    parenthesized (list fuel name) (.sign "(" :: (nameTokens names ++ .sign ")" :: rest)) =
      some (names, rest) :=
  parenthesized_eq (separated_map rfl (fun _ _ _ => rfl) hne hfuel rfl)

/-- The groups of a merge read back. -/
theorem agreements_eq {groups : List (List String)} (hne : groups ≠ []) {fuel : Nat}
    (hfuel : groups.length ≤ fuel) (hgroups : ∀ group ∈ groups, group ≠ [] ∧ group.length ≤ fuel)
    {rest : List Token} (hstop : rest.head?.any (isKeyword "or") = false) :
    agreements fuel (.word "FROM" :: .word "source_data" :: .word "WHERE" ::
      ([.word "OR"].intercalate (groups.map groupTokens) ++ rest)) = some (groups, rest) := by
  have hwords : ∀ ts, keywords ["from", "source_data", "where"]
      (.word "FROM" :: .word "source_data" :: .word "WHERE" :: ts) = some ((), ts) := fun _ => rfl
  have hcolumn : ∀ (column : String) (ts : List Token),
      agreement (.word "target" :: .sign "." :: ownTokens "source_data" column ++ ts) =
        some (column, ts) := fun column ts => ownValue_eq (.inr rfl) column ts
  have hgroup : ∀ group ∈ groups, ∀ ts,
      parenthesized (separated (isKeyword "and") agreement fuel []) (groupTokens group ++ ts) =
        some (group, ts) := fun group hmem ts => by
    rw [groupTokens, List.cons_append, List.append_assoc]
    exact parenthesized_eq (separated_map rfl (fun column _ => hcolumn column)
      (hgroups group hmem).1 (hgroups group hmem).2 rfl)
  rw [agreements, bind_eq (hwords _)]
  exact separated_map rfl hgroup hne hfuel hstop

/-- Nothing else than `FROM` begins the groups of a merge. -/
theorem agreements_eq_none (fuel : Nat) {ts : List Token}
    (h : ts.head?.any (isKeyword "from") = false) : agreements fuel ts = none := by
  cases ts with
  | nil => rfl
  | cons t ts =>
    have ht : isKeyword "from" t = false := h
    have hkeyword : keyword "from" (t :: ts) = none := by
      have hnext : next (t :: ts) = some (t, ts) := rfl
      rw [keyword, bind_eq hnext, ht]
      rfl
    exact bind_eq_none (bind_eq_none hkeyword)

/-- A list of names begins no clause. -/
theorem isQuiet_nameTokens (names : List String) : ∀ t ∈ nameTokens names, isQuiet t = true :=
  forall_mem_intercalate (by decide) (by simp [isQuiet, isKeyword])

/-- The new value of a column begins no clause. -/
theorem isQuiet_ownTokens {source : String} (hsource : IsNew source) (column : String) :
    ∀ t ∈ ownTokens source column, isQuiet t = true := by
  rcases hsource with rfl | rfl <;> simp only [ownTokens, List.forall_mem_cons] <;>
    exact ⟨rfl, rfl, rfl, rfl, rfl, by simp⟩

/-- A list of assignments begins no clause. -/
theorem isQuiet_setTokens {source : String} (hsource : IsNew source) (columns : List String) :
    ∀ t ∈ setTokens source columns, isQuiet t = true := by
  refine forall_mem_intercalate (by decide) ?_
  rw [List.forall_mem_map]
  exact fun column _ => isQuiet_ownTokens hsource column

/-- The comparison of a constraint group begins no clause. -/
theorem isQuiet_groupTokens (group : List String) : ∀ t ∈ groupTokens group, isQuiet t = true := by
  have hcolumns : ∀ part ∈ group.map fun column =>
      Token.word "target" :: .sign "." :: ownTokens "source_data" column,
      ∀ t ∈ part, isQuiet t = true := by
    rw [List.forall_mem_map]
    intro column _
    rw [List.forall_mem_cons, List.forall_mem_cons]
    exact ⟨rfl, rfl, isQuiet_ownTokens (.inr rfl) column⟩
  rw [groupTokens, List.forall_mem_cons, List.forall_mem_append]
  exact ⟨rfl, forall_mem_intercalate (by decide) hcolumns, by decide⟩

/-- As many tokens as a clause has are fuel enough for its lists. -/
theorem length_le_conflictTokens (updates target : List String) :
    target.length ≤ (conflictTokens updates target).length ∧
      updates.length ≤ (conflictTokens updates target).length := by
  have htarget := length_le_length_intercalate (.sign ",") (target.map ([Token.name ·]))
  have hupdates := length_le_length_intercalate (.sign ",") (updates.map (ownTokens "EXCLUDED"))
  rw [List.length_map] at htarget hupdates
  simp only [conflictTokens, nameTokens, setTokens, List.length_cons, List.length_append]
  omega

/-- A merge has at least as many tokens as groups, as updates and as columns of any group. -/
theorem length_le_mergeTokens (groups : List (List String)) (updates : List String) :
    groups.length ≤ (mergeTokens groups updates).length ∧
      updates.length ≤ (mergeTokens groups updates).length ∧
      ∀ group ∈ groups, group.length ≤ (mergeTokens groups updates).length := by
  have hgroups := length_le_length_intercalate (.word "OR") (groups.map groupTokens)
  have hupdates := length_le_length_intercalate (.sign ",")
    (updates.map (ownTokens "source_data"))
  rw [List.length_map] at hgroups hupdates
  have hgroup : ∀ group ∈ groups,
      group.length ≤ ([Token.word "OR"].intercalate (groups.map groupTokens)).length := by
    intro group hmem
    have hcolumns := length_le_length_intercalate (.word "AND") (group.map fun column =>
      Token.word "target" :: .sign "." :: ownTokens "source_data" column)
    have hpart := length_le_intercalate [.word "OR"] (List.mem_map_of_mem (f := groupTokens) hmem)
    rw [List.length_map] at hcolumns
    have hwidth : group.length ≤ (groupTokens group).length := by
      simp only [groupTokens, List.length_cons, List.length_append]
      omega
    exact Nat.le_trans hwidth hpart
  simp only [mergeTokens, setTokens, List.length_cons, List.length_append]
  refine ⟨by omega, by omega, fun group hmem => ?_⟩
  have hwidth := hgroup group hmem
  omega

/-- **An `ON CONFLICT` clause reads back,** with its own target. -/
theorem setClausesFrom_conflict {target updates : List String} (htarget : target ≠ [])
    (hupdates : updates ≠ []) {fuel : Nat} (hfuel : (conflictTokens updates target).length ≤ fuel)
    {rest : List Token} (hstop : rest.head?.any (· == .sign ",") = false)
    (hfrom : rest.head?.any (isKeyword "from") = false) (before : Option (List String)) :
    setClausesFrom fuel before (conflictTokens updates target ++ rest) =
      (setClausesFrom fuel (some target) rest).map (⟨[target], updates⟩ :: ·) := by
  obtain ⟨hlong, hlong'⟩ := length_le_conflictTokens updates target
  have hread := parenthesized_nameTokens htarget (Nat.le_trans hlong hfuel)
    (.word "DO" :: .word "UPDATE" :: .word "SET" :: (setTokens "EXCLUDED" updates ++ rest))
  have hon : ∀ t ∈ [Token.word "ON"], isQuiet t = true := by decide
  have hquiet : ∀ t ∈ .sign "(" :: (nameTokens target ++ [.sign ")", .word "DO", .word "UPDATE"]),
      isQuiet t = true := by
    rw [List.forall_mem_cons, List.forall_mem_append]
    exact ⟨rfl, isQuiet_nameTokens target, by decide⟩
  have hnone := agreements_eq_none fuel hfrom
  have hlist := list_setTokens (.inl rfl) hupdates (Nat.le_trans hlong' hfuel) hstop
  calc setClausesFrom fuel before (conflictTokens updates target ++ rest)
      = setClausesFrom fuel before (.word "CONFLICT" :: .sign "(" :: (nameTokens target ++
          .sign ")" :: .word "DO" :: .word "UPDATE" :: .word "SET" ::
            (setTokens "EXCLUDED" updates ++ rest))) := by
        rw [conflictTokens]
        simp only [List.cons_append, List.append_assoc]
        exact setClausesFrom_quiet hon _
    _ = setClausesFrom fuel (some target) (.sign "(" :: (nameTokens target ++
          .sign ")" :: .word "DO" :: .word "UPDATE" :: .word "SET" ::
            (setTokens "EXCLUDED" updates ++ rest))) := setClausesFrom_target rfl hread
    _ = setClausesFrom fuel (some target) (.word "SET" ::
          (setTokens "EXCLUDED" updates ++ rest)) := by
        rw [← setClausesFrom_quiet hquiet (.word "SET" :: (setTokens "EXCLUDED" updates ++ rest))]
        simp
    _ = (setClausesFrom fuel (some target) rest).map (⟨[target], updates⟩ :: ·) := by
        rw [setClausesFrom_set hlist (by rw [hnone]; rfl),
          setClausesFrom_quiet (isQuiet_setTokens (.inl rfl) updates)]

/-- `ON CONFLICT` clauses one after another read back, when no clause stands behind them. -/
theorem setClausesFrom_conflicts {targets : List (List String)} {updates : List String}
    (htargets : ∀ target ∈ targets, target ≠ []) (hupdates : updates ≠ []) {fuel : Nat}
    {rest : List Token} (hfuel : (targets.flatMap (conflictTokens updates)).length ≤ fuel)
    (hquiet : ∀ t ∈ rest, isQuiet t = true) (hstop : rest.head?.any (· == .sign ",") = false)
    (hfrom : rest.head?.any (isKeyword "from") = false) (before : Option (List String)) :
    setClausesFrom fuel before (targets.flatMap (conflictTokens updates) ++ rest) =
      some (targets.map fun target => ⟨[target], updates⟩) := by
  induction targets generalizing before with
  | nil =>
    have hskip : setClausesFrom fuel before (rest ++ []) = setClausesFrom fuel before [] :=
      setClausesFrom_quiet hquiet []
    rw [List.append_nil] at hskip
    exact hskip
  | cons target targets ih =>
    rw [List.forall_mem_cons] at htargets
    rw [List.flatMap_cons, List.length_append] at hfuel
    have hrest := ih htargets.2 (by omega) (some target)
    -- Behind the clause stands the next one, or else what follows all of them.
    have hnext : (targets.flatMap (conflictTokens updates) ++ rest).head?.any (· == .sign ",") =
        false ∧ (targets.flatMap (conflictTokens updates) ++ rest).head?.any (isKeyword "from") =
          false := by
      cases targets with
      | nil => exact ⟨hstop, hfrom⟩
      | cons next targets => exact ⟨rfl, rfl⟩
    rw [List.flatMap_cons, List.append_assoc,
      setClausesFrom_conflict htargets.1 hupdates (by omega) hnext.1 hnext.2, hrest]
    rfl

/-- **The clause of a merge reads back,** with its groups. -/
theorem setClausesFrom_merge {groups : List (List String)} {updates : List String}
    (hne : groups ≠ []) (hgroups : ∀ group ∈ groups, group ≠ []) (hupdates : updates ≠ [])
    {fuel : Nat} (hfuel : (mergeTokens groups updates).length ≤ fuel) {rest : List Token}
    (hstop : rest.head?.any (isKeyword "or") = false) (before : Option (List String)) :
    setClausesFrom fuel before (mergeTokens groups updates ++ rest) =
      (setClausesFrom fuel before rest).map (⟨groups, updates⟩ :: ·) := by
  obtain ⟨hlong, hlong', hlongs⟩ := length_le_mergeTokens groups updates
  have hread := agreements_eq hne (Nat.le_trans hlong hfuel)
    (fun group hmem => ⟨hgroups group hmem, Nat.le_trans (hlongs group hmem) hfuel⟩) hstop
  have hlist : list fuel ownValue (setTokens "source_data" updates ++ .word "FROM" ::
      .word "source_data" :: .word "WHERE" ::
        ([.word "OR"].intercalate (groups.map groupTokens) ++ rest)) = some (updates, _) :=
    list_setTokens (.inr rfl) hupdates (Nat.le_trans hlong' hfuel) rfl
  -- The tokens behind `SET` begin no further clause, so the reader passes them.
  have hquiet : ∀ t ∈ setTokens "source_data" updates ++ .word "FROM" :: .word "source_data" ::
      .word "WHERE" :: [.word "OR"].intercalate (groups.map groupTokens), isQuiet t = true := by
    have hparts : ∀ part ∈ groups.map groupTokens, ∀ t ∈ part, isQuiet t = true := by
      rw [List.forall_mem_map]
      exact fun group _ => isQuiet_groupTokens group
    rw [List.forall_mem_append, List.forall_mem_cons, List.forall_mem_cons, List.forall_mem_cons]
    exact ⟨isQuiet_setTokens (.inr rfl) updates, rfl, rfl, rfl,
      forall_mem_intercalate (by decide) hparts⟩
  calc setClausesFrom fuel before (mergeTokens groups updates ++ rest)
      = setClausesFrom fuel before (.word "SET" :: (setTokens "source_data" updates ++
          .word "FROM" :: .word "source_data" :: .word "WHERE" ::
            ([.word "OR"].intercalate (groups.map groupTokens) ++ rest))) := by
        simp [mergeTokens]
    _ = (setClausesFrom fuel before (setTokens "source_data" updates ++
          .word "FROM" :: .word "source_data" :: .word "WHERE" ::
            ([.word "OR"].intercalate (groups.map groupTokens) ++ rest))).map
              (⟨groups, updates⟩ :: ·) := setClausesFrom_set hlist (by rw [hread]; rfl)
    _ = (setClausesFrom fuel before rest).map (⟨groups, updates⟩ :: ·) := by
        rw [← setClausesFrom_quiet hquiet rest]
        simp

end Reader
end Sql
end Querysmith
