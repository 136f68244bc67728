/-
# Names read back

Whatever a name holds, what is written for it between the quotes of a dialect is read as that name
and nothing else, as long as no further quote follows (`reads_quoteIdentifier`).  So a list of names
and a table behind its schema are read back from their texts: between two names stand a comma and a
blank, or a dot, and none of them is the quote (`quoting_reads_back`).  Lists of names with one text
are one list.

A text names a table when neither of its parts is empty.  A NUL in a part is found later, when the
name is quoted, so not every table that a text names is written (`resolve_nul`).
-/

import Querysmith.Proofs.Compiler.Conflicts
import Querysmith.Proofs.Compiler.Refusal

namespace Querysmith

namespace Sql.Symbol

/-- A reading with further symbols in front. -/
def behind (ss : List Symbol) (reading : List Symbol × List Char) : List Symbol × List Char :=
  (ss ++ reading.1, reading.2)

@[simp] theorem behind_nil (reading : List Symbol × List Char) : behind [] reading = reading := rfl

/-- What stands behind two stretches stands behind both together. -/
@[simp] theorem behind_behind (ss ts : List Symbol) (reading : List Symbol × List Char) :
    behind ss (behind ts reading) = behind (ss ++ ts) reading := by
  simp [behind]

/-- The symbols of a text, read from left to right: a name begins at a quote and ends at the next
one that is not written twice.  A name that is left open is not read, and the text is left over from
its quote on. -/
def readQuoted (q : Char) : List Char → List Symbol × List Char
  | [] => ([], [])
  | c :: cs =>
    if c = q then
      match _h : Token.quotedBody q cs with
      | some (body, rest) => behind [name (String.ofList body)] (readQuoted q rest)
      | none => ([], c :: cs)
    else behind [char c] (readQuoted q cs)
termination_by cs => cs.length
decreasing_by
  · exact Nat.lt_succ_of_lt (Token.length_of_quotedBody _h)
  · exact Nat.lt_succ_self _

/-- The text is read as these symbols, whatever follows it but another quote. -/
def Reads (q : Char) (text : String) (ss : List Symbol) : Prop :=
  ∀ rest : List Char, rest.head? ≠ some q →
    readQuoted q (text.toList ++ rest) = behind ss (readQuoted q rest)

variable {q : Char}

/-- What is read in front of any text is read alone, and to its end. -/
theorem Reads.alone {text : String} {ss : List Symbol} (h : Reads q text ss) :
    readQuoted q text.toList = (ss, []) := by
  have halone := h [] (by simp)
  rw [List.append_nil, readQuoted, behind, List.append_nil] at halone
  exact halone

/-- **A quoted name is read as the name.** -/
theorem reads_quoteIdentifier (d : Dialect) (s : String) :
    Reads d.quote (d.quoteIdentifier s) [name s] := by
  intro rest hrest
  have htext : (d.quoteIdentifier s).toList ++ rest =
      d.quote :: (Text.double d.quote s.toList ++ d.quote :: rest) := by
    simp [Dialect.quoteIdentifier]
  have hbody := Token.quotedBody_double d.quote s.toList rest hrest
  rw [htext, readQuoted, if_pos rfl]
  split
  · rename_i body rest' h
    obtain ⟨rfl, rfl⟩ := Prod.mk.inj (Option.some.inj (hbody.symm.trans h))
    rw [String.ofList_toList]
  · rename_i h
    cases hbody.symm.trans h

/-- Characters that are no quote stand for themselves. -/
theorem readQuoted_append {cs : List Char} (h : q ∉ cs) (rest : List Char) :
    readQuoted q (cs ++ rest) = behind (chars cs) (readQuoted q rest) := by
  induction cs with
  | nil => simp [chars]
  | cons c cs ih =>
    rw [List.mem_cons, not_or] at h
    rw [List.cons_append, readQuoted, if_neg (Ne.symm h.1), ih h.2, behind_behind]
    rfl

/-- Two texts with one between them that holds no quote are read one after the other. -/
theorem Reads.append {first between last : String} {ss ts : List Symbol} (hfirst : Reads q first ss)
    (hne : between.toList ≠ []) (hquote : q ∉ between.toList) (hlast : Reads q last ts) :
    Reads q (first ++ between ++ last) (ss ++ chars between.toList ++ ts) := by
  intro rest hrest
  have hhead : (between.toList ++ (last.toList ++ rest)).head? ≠ some q := by
    cases hcs : between.toList with
    | nil => exact absurd hcs hne
    | cons c cs =>
      rw [hcs, List.mem_cons, not_or] at hquote
      simpa using Ne.symm hquote.1
  rw [String.toList_append, String.toList_append, List.append_assoc, List.append_assoc,
    hfirst _ hhead, readQuoted_append hquote, hlast rest hrest, behind_behind, behind_behind]

/-- Names with a comma and a blank between two neighbours. -/
def listed (names : List String) : List Symbol :=
  (chars ", ".toList).intercalate (names.map ([name ·]))

/-- Between two names of a list stands a comma. -/
theorem listed_cons_cons (n m : String) (ns : List String) :
    listed (n :: m :: ns) = [name n] ++ chars ", ".toList ++ listed (m :: ns) :=
  List.intercalate_cons_cons

/-- The names of a list are listed in their order. -/
theorem names_listed (ns : List String) : names (listed ns) = ns := by
  induction ns with
  | nil => rfl
  | cons n ns ih =>
    cases ns with
    | nil => rfl
    | cons m ns =>
      rw [listed_cons_cons, names_append, names_append, names_chars, ih]
      rfl

/-- **A list of quoted names is read as the names.** -/
theorem reads_joinWith (d : Dialect) (hquote : d.quote ∉ ", ".toList) (ns : List String) :
    Reads d.quote (Text.joinWith ", " (ns.map d.quoteIdentifier)) (listed ns) := by
  rw [Text.joinWith_eq_intercalate]
  induction ns with
  | nil =>
    intro rest _
    simp [listed]
  | cons n ns ih =>
    cases ns with
    | nil => simpa [listed] using reads_quoteIdentifier d n
    | cons m ns =>
      rw [List.map_cons] at ih
      rw [listed_cons_cons, List.map_cons, List.map_cons, String.intercalate_cons_cons]
      exact (reads_quoteIdentifier d n).append (by simp) hquote ih

end Sql.Symbol

open Sql (Symbol)

namespace TableName

/-- The schema of a table, if it has one, a dot, and its name. -/
def symbols (t : TableName) : List Symbol :=
  match t.schema with
  | some schema => [.name schema, .char '.', .name t.name]
  | none => [.name t.name]

/-- The text of a table whose names are usable. -/
theorem sql_pieces (d : Dialect) (t : TableName) : Fragment.sql d 0 t.pieces =
    match t.schema with
    | some schema => d.quoteIdentifier schema ++ "." ++ d.quoteIdentifier t.name
    | none => d.quoteIdentifier t.name := by
  obtain ⟨schema, name⟩ := t
  cases schema <;>
    simp [pieces, Fragment.sql_name_cons, Fragment.sql_text_cons, String.append_assoc]

/-- **A quoted table is read as its schema and its name.** -/
theorem reads_sql_pieces (d : Dialect) (hdot : d.quote ≠ '.') (t : TableName) :
    Symbol.Reads d.quote (Fragment.sql d 0 t.pieces) t.symbols := by
  rw [sql_pieces]
  obtain ⟨schema, name⟩ := t
  cases schema with
  | none => exact Symbol.reads_quoteIdentifier d name
  | some schema =>
    have hquote : d.quote ∉ ".".toList := by simp [hdot]
    exact (Symbol.reads_quoteIdentifier d schema).append (by simp) hquote
      (Symbol.reads_quoteIdentifier d name)

/-- A table is written when its names are usable. -/
theorem sql_yields (d : Dialect) (t : TableName) :
    Yields (t.sql d) (AllUsable t.names) (Fragment.sql d 0 t.pieces) :=
  t.fragment_yields.bind_pure (Fragment.sql d 0)

/-- No part of a table that a text names is empty. -/
theorem ne_empty_of_resolve {table : String} {schema : Option String} {t : TableName}
    (h : resolve table schema = .ok t) : ∀ name ∈ t.names, name ≠ "" := by
  unfold resolve at h
  split at h
  split at h
  · cases h
  · rename_i schema' name hne
    obtain rfl := Except.ok.inj h
    rw [not_or] at hne
    intro part hpart
    rcases List.mem_append.1 hpart with hschema | hname
    · rintro rfl
      exact hne.2 (by simpa using hschema)
    · rw [List.mem_singleton.1 hname]
      exact hne.1

/-- A schema without a dot, a dot and a name are resolved to these. -/
theorem resolve_append {schema name : String} (hschema : schema ≠ "") (hdot : '.' ∉ schema.toList)
    (hname : name ≠ "") (default : Option String) :
    resolve (schema ++ "." ++ name) default = .ok ⟨some schema, name⟩ := by
  rw [resolve, Text.splitOnce_point.2 ⟨rfl, hdot⟩]
  exact if_neg (by simp [hschema, hname])

end TableName

namespace Identifier

/-- A list of names is written when all are usable. -/
theorem quoteList_yields (d : Dialect) (names : List String) :
    Yields (quoteList d names) (AllUsable names)
      (Text.joinWith ", " (names.map d.quoteIdentifier)) := by
  rw [← sql_listPieces d 0 names]
  exact (listFragment_yields names).bind_pure (Fragment.sql d 0)

/-- **A name can be used unless it is empty or holds a NUL.** -/
theorem isUsable_iff {name : String} :
    isUsable name = true ↔ name ≠ "" ∧ Char.ofNat 0 ∉ name.toList := by
  simp [isUsable]

/-- **Quoted names are an unambiguous text,** in every dialect whose quote is no comma, dot or
blank.  A list of names is read back from its text, alone and in front of any text that does not go
on with a quote, so no other list has the same text.  A table that a text names is written unless
one of its parts holds a NUL, and what is written is read back as its schema and its name.  A schema
without a dot, a dot and a name are the text of the table in that schema. -/
theorem quoting_reads_back (d : Dialect) (hcomma : d.quote ≠ ',') (hdot : d.quote ≠ '.')
    (hblank : d.quote ≠ ' ') :
    (∀ names text, quoteList d names = .ok text →
      Symbol.readQuoted d.quote text.toList = (Symbol.listed names, []) ∧
      Symbol.Reads d.quote text (Symbol.listed names) ∧
      Symbol.names (Symbol.listed names) = names ∧
      ∀ others, quoteList d others = .ok text → others = names) ∧
    (∀ table schema t, TableName.resolve table schema = .ok t →
      ((∃ text, t.sql d = .ok text) ↔ ∀ name ∈ t.names, Char.ofNat 0 ∉ name.toList) ∧
      ∀ text, t.sql d = .ok text →
        Symbol.readQuoted d.quote text.toList = (t.symbols, []) ∧
        Symbol.Reads d.quote text t.symbols) ∧
    ∀ schema name default, schema ≠ "" → '.' ∉ schema.toList → name ≠ "" →
      TableName.resolve (schema ++ "." ++ name) default = .ok ⟨some schema, name⟩ := by
  have hlist : ∀ names text, quoteList d names = .ok text →
      Symbol.Reads d.quote text (Symbol.listed names) := by
    intro names text h
    obtain ⟨-, rfl⟩ := (quoteList_yields d names).eq_of_ok h
    exact Symbol.reads_joinWith d (by simp [hcomma, hblank]) names
  refine ⟨fun names text h => ?_, fun table schema t ht => ⟨?_, fun text h => ?_⟩,
    fun schema name default hschema hpoint hname =>
      TableName.resolve_append hschema hpoint hname default⟩
  · have hreads := hlist names text h
    refine ⟨hreads.alone, hreads, Symbol.names_listed names, fun others hothers => ?_⟩
    have hsame := (hlist others text hothers).alone.symm.trans hreads.alone
    rw [← Symbol.names_listed others, (Prod.mk.inj hsame).1, Symbol.names_listed]
  · have hne := TableName.ne_empty_of_resolve ht
    have hwritten : (∃ text, t.sql d = .ok text) ↔ AllUsable t.names := by
      simp [t.sql_yields d _]
    rw [hwritten, AllUsable]
    exact forall₂_congr fun name hname => by simp [isUsable_iff, hne name hname]
  · obtain ⟨-, rfl⟩ := (t.sql_yields d).eq_of_ok h
    have hreads := TableName.reads_sql_pieces d hdot t
    exact ⟨hreads.alone, hreads⟩

/-- A quote at the end of a name, the text between two names inside one, and a dot behind the first
dot of a table. -/
theorem quoting_reads_back_sqlite :
    quoteList .sqlite ["a\"", ", \"b"] = .ok "\"a\"\"\", \", \"\"b\"" ∧
    (∀ others, quoteList .sqlite others = .ok "\"a\"\"\", \", \"\"b\"" →
      others = ["a\"", ", \"b"]) ∧
    TableName.resolve "s.t.\"" none = .ok ⟨some "s", "t.\""⟩ ∧
    Symbol.readQuoted '"' "\"s\".\"t.\"\"\"".toList =
      ([.name "s", .char '.', .name "t.\""], []) := by
  obtain ⟨hlist, htable, hresolve⟩ :=
    quoting_reads_back .sqlite (by decide) (by decide) (by decide)
  have hquoted : quoteList .sqlite ["a\"", ", \"b"] = .ok "\"a\"\"\", \", \"\"b\"" := rfl
  have hresolved : TableName.resolve ("s" ++ "." ++ "t.\"") none = .ok ⟨some "s", "t.\""⟩ :=
    hresolve "s" "t.\"" none (by decide) (by decide) (by decide)
  refine ⟨hquoted, (hlist _ _ hquoted).2.2.2, hresolved, ?_⟩
  exact ((htable _ _ _ hresolved).2 "\"s\".\"t.\"\"\"" rfl).1

/-- **A text with a NUL names a table that is never written.** -/
theorem resolve_nul : ∃ t, TableName.resolve "a\x00b" none = .ok t ∧
    ¬ ∃ text, t.sql .postgres = .ok text := by
  refine ⟨⟨none, "a\x00b"⟩, rfl, ?_⟩
  rintro ⟨text, h⟩
  have hnul : TableName.sql .postgres ⟨none, "a\x00b"⟩ =
      .error (.invalidIdentifier (.holdsNul "a\x00b")) := rfl
  cases hnul.symm.trans h

end Identifier
end Querysmith
