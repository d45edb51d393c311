import DdlCatalog.Proofs.Statement.Print

/-!
# Tables written and read again

* `columnDefinitions` — the definitions of a command's columns, in order;
* `exists_last_definition` : a column is what the last of its definitions says;
* `printable_described` : what a command without faults describes can be written;
* `create_toSql` : written and read again, a table is the same, unless the last definition of a column ends in a
  second `NULL`.
-/

namespace DdlCatalog

open Sql Text

/-- The name and the definition in the text of a column's clause. -/
def Clause.definition? (text : List Char) : Option (String × String) :=
  match ofText text with
  | .ok (.column name definition) => some (name, definition)
  | _ => none

/-- The names and the definitions in a command's column clauses, in order. -/
def columnDefinitions (command : String) : List (String × String) :=
  match Heading.ofCommand command with
  | .error _ => []
  | .ok heading =>
    (ColumnList.ofBody (dropTerminator heading.rest.toList)).clauses.filterMap Clause.definition?

variable {text tail : List Char} {clauses : List (List Char)} {name definition : String}

/-! ### Columns -/

namespace Clause

theorem definition?_eq_some_iff :
    definition? text = some (name, definition) ↔ ofText text = .ok (.column name definition) := by
  unfold definition?
  constructor
  · intro h
    split at h
    · cases h
      assumption
    · cases h
  · intro h
    rw [h]

theorem constraint?_eq_some_iff {c : Constraint} :
    constraint? text = some c ↔ ofText text = .ok (.constraint c.name c.definition) := by
  unfold constraint?
  constructor
  · intro h
    split at h
    · cases h
      assumption
    · cases h
  · intro h
    rw [h]

/-- The column that a name and a definition make. -/
def declared? (p : String × String) : Option Column :=
  (Definition.ofText? p.2.toList).map fun d => d.column p.1

theorem column?_eq_bind (text : List Char) : column? text = (definition? text).bind declared? := by
  unfold column? definition?
  cases ofText text with
  | error e => rfl
  | ok clause =>
    cases clause with
    | empty => rfl
    | constraint name definition => rfl
    | column name definition =>
      dsimp only
      rw [Option.bind_some, declared?]

theorem filterMap_column? (clauses : List (List Char)) :
    clauses.filterMap column? = (clauses.filterMap definition?).filterMap declared? := by
  rw [List.filterMap_filterMap]
  exact List.filterMap_congr fun text _ => column?_eq_bind text

theorem isSome_declared? (hgood : fault? text = none) (h : definition? text = some (name, definition)) :
    (declared? (name, definition)).isSome := by
  have htext := definition?_eq_some_iff.1 h
  cases hd : Definition.ofText? definition.toList with
  | none =>
    rw [ColumnList.fault?_of_none htext hd] at hgood
    cases hgood
  | some d => simp [declared?, hd]

end Clause

/-- The first column of a name comes from the first definition of that name. -/
theorem exists_get_declared? {ps : List (String × String)} (h : ∀ p ∈ ps, (Clause.declared? p).isSome)
    (hname : name ∈ Named.names (ps.filterMap Clause.declared?)) :
    ∃ definition d, ps.lookup name = some definition ∧ Definition.ofText? definition.toList = some d ∧
      Named.get name (ps.filterMap Clause.declared?) = d.column name := by
  induction ps with
  | nil => simp [Named.names] at hname
  | cons p ps ih =>
    obtain ⟨n, definition⟩ := p
    obtain ⟨c, hc⟩ := Option.isSome_iff_exists.1 (h (n, definition) (by simp))
    obtain ⟨d, hd, rfl⟩ := Option.map_eq_some_iff.1 hc
    have hn : Named.name (d.column n) = n := rfl
    rw [List.filterMap_cons_some hc] at hname ⊢
    rw [Named.get_cons, hn, List.lookup_cons]
    by_cases he : n = name
    · subst he
      exact ⟨definition, d, by simp, hd, if_pos rfl⟩
    · have hname' : name ∈ Named.names (ps.filterMap Clause.declared?) := by
        simpa [Named.names, hn, Ne.symm he] using hname
      obtain ⟨definition', d', hlookup, hd', hget⟩ := ih (fun q hq => h q (by simp [hq])) hname'
      refine ⟨definition', d', ?_, hd', ?_⟩
      · rw [beq_eq_false_iff_ne.2 (Ne.symm he)]
        exact hlookup
      · rw [if_neg he, hget]

/-- **A column is what the last of its definitions says.** -/
theorem exists_last_definition (hgood : ∀ c ∈ clauses, Clause.fault? c = none)
    (hname : name ∈ Named.names (clauses.filterMap Clause.column?)) :
    ∃ text ∈ clauses, ∃ definition d, Clause.ofText text = .ok (.column name definition) ∧
      Definition.ofText? definition.toList = some d ∧
      Named.get name (clauses.filterMap Clause.column?).reverse = d.column name ∧
      (clauses.filterMap Clause.definition?).reverse.lookup name = some definition := by
  have hclause : ∀ p ∈ (clauses.filterMap Clause.definition?).reverse,
      ∃ text ∈ clauses, Clause.definition? text = some p := by
    intro p hp
    exact List.mem_filterMap.1 (List.mem_reverse.1 hp)
  have hcolumns : (clauses.filterMap Clause.column?).reverse =
      (clauses.filterMap Clause.definition?).reverse.filterMap Clause.declared? := by
    rw [Clause.filterMap_column?, List.filterMap_reverse]
  have hname' : name ∈ Named.names ((clauses.filterMap Clause.definition?).reverse.filterMap Clause.declared?) := by
    rw [← hcolumns]
    simpa [Named.names] using hname
  obtain ⟨definition, d, hlookup, hd, hget⟩ := exists_get_declared? (fun p hp => by
    obtain ⟨text, htext, hdef⟩ := hclause p hp
    exact Clause.isSome_declared? (hgood text htext) hdef) hname'
  obtain ⟨before, after, e, -⟩ := List.lookup_eq_some_iff.1 hlookup
  obtain ⟨text, htext, hdef⟩ := hclause (name, definition) (by rw [e]; simp)
  rw [hcolumns]
  exact ⟨text, htext, definition, d, Clause.definition?_eq_some_iff.1 hdef, hd, hget, hlookup⟩

/-! ### Clauses written back -/

theorem skeleton_sql {d : Definition} {text remainder : List Char} (h : Definition.Read text d remainder) :
    skeleton d.sql = skeleton text := by
  rw [skeleton_eq_flatMap_words, skeleton_eq_flatMap_words text]
  rcases h.words_sql with e | e
  · rw [e]
  · have hnull : ["NULL".toList].flatMap skeleton = [] := by decide
    rw [e, List.flatMap_append, hnull, List.append_nil]

/-- A column whose definition is read back can be written. -/
theorem exists_entry_of_column {d : Definition} (hclause : IsClause text)
    (htext : Clause.ofText text = .ok (.column name definition)) (hd : Definition.ofText? definition.toList = some d)
    (hproviso : ¬ Definition.EndsNullNull (words definition.toList)) :
    ∃ e : Entry, IsClause e.text ∧ e.text = (d.column name).toSql.toList ∧ e.column? = some (d.column name) ∧
      e.constraint? = none := by
  obtain ⟨hs, hname⟩ := Clause.ofText_eq_column_iff.1 htext
  obtain ⟨remainder, hread⟩ := Definition.exists_read hd
  have hback := hread.ofText?_sql hproviso
  let decl : Declaration := {
    name := name.toList
    gap := .space
    definition := d.sql
    isWord_name := hs.isWord_name
    definition_ne_nil := hread.sql_ne_nil
    trimmed_definition := hread.trimmed_sql }
  have hasType : decl.HasType := by
    have hkey := (Definition.ofText?_isSome_iff.1 (Option.isSome_of_eq_some hback)).2
    simpa [Definition.startsWithKeyword, Declaration.HasType, decl] using hkey
  have hne : decl.name ≠ "CONSTRAINT".toList := fun h => hname (String.toList_inj.1 h)
  have htext : (Entry.column decl hasType hne).text = (d.column name).toSql.toList := by
    rw [Definition.toSql_column]
    rfl
  refine ⟨.column decl hasType hne, ?_, htext, ?_, rfl⟩
  · obtain ⟨gap, hgap, -, e⟩ := hs.eq
    rw [htext, Definition.toSql_column]
    refine (isClause_congr ?_).1 hclause
    rw [← skeleton_trim text, e]
    simp only [skeleton_append, skeleton_of_allBlank hgap, skeleton_of_allBlank allBlank_space,
      skeleton_sql hread]
  · have hget : (Definition.ofText? decl.definition).get hasType.isSome = d := by
      simp [decl, hback]
    have hcolumn : decl.column hasType = d.column name := by
      rw [Declaration.column, hget]
      simp [decl]
    rw [← hcolumn]
    rfl

theorem exists_entry_of_constraint {c : Constraint} (hclause : IsClause text)
    (htext : Clause.ofText text = .ok (.constraint c.name c.definition)) :
    ∃ e : Entry, IsClause e.text ∧ e.text = c.toSql.toList ∧ e.constraint? = some c ∧ e.column? = none := by
  obtain ⟨gap, rest, hgap, hgne, e, hs⟩ := Clause.ofText_eq_constraint_iff.1 htext
  let decl : Declaration := {
    name := c.name.toList
    gap := .space
    definition := c.definition.toList
    isWord_name := hs.isWord_name
    definition_ne_nil := hs.definition_ne_nil
    trimmed_definition := hs.trimmed_definition }
  have htext : (Entry.constraint .space decl).text =
      "CONSTRAINT".toList ++ [' '] ++ (c.name.toList ++ [' '] ++ c.definition.toList) := rfl
  refine ⟨.constraint .space decl, ?_, ?_, ?_, rfl⟩
  · obtain ⟨gap', hgap', -, rfl⟩ := hs.eq
    rw [htext]
    refine (isClause_congr ?_).1 hclause
    rw [← skeleton_trim text, e]
    simp only [skeleton_append, skeleton_of_allBlank hgap, skeleton_of_allBlank hgap',
      skeleton_of_allBlank allBlank_space]
  · rw [htext]
    unfold Constraint.toSql
    simp
  · simp [Entry.constraint?, Declaration.constraint, decl]

/-! ### Tables -/

/-- What a command without faults describes can be written. -/
theorem printable_described {heading : Heading} {command : String} (hh : Heading.ofCommand command = .ok heading)
    (hlist : ColumnList.ofBody (dropTerminator heading.rest.toList) = ⟨clauses, .tail tail⟩)
    (hgood : ∀ c ∈ clauses, Clause.fault? c = none)
    (hproviso : ∀ column definition, (clauses.filterMap Clause.definition?).reverse.lookup column = some definition →
      ¬ Definition.EndsNullNull (words definition.toList)) :
    (Table.described heading.table clauses tail).Printable := by
  have hclause : ∀ text ∈ clauses, IsClause text := by
    intro text htext
    have hmem : text ∈ (ColumnList.ofBody (dropTerminator heading.rest.toList)).clauses := by
      rw [hlist]
      exact htext
    exact isClause_iff.2 (ColumnList.passFrom_of_mem_ofBody hmem)
  have hparents : ∀ parents, (Options.parents? tail).map String.ofList = some parents →
      Enclosed parents.toList ∧ Trimmed parents.toList := by
    intro parents h
    obtain ⟨p, hp, rfl⟩ := Option.map_eq_some_iff.1 h
    rw [String.toList_ofList]
    exact Options.enclosed_of_parents? hp
  exact {
    isTableName_name := Heading.isTableName_of_ofCommand hh
    nodup_columns := Named.nodup_names_putAll_nil _
    nodup_constraints := Named.nodup_names_putAll_nil _
    enclosed_inherits := fun parents h => (hparents parents h).1
    trimmed_inherits := fun parents h => (hparents parents h).2
    columns := by
      intro c hc
      obtain ⟨hmem, hlast⟩ := Named.eq_get_of_mem_putAll_nil hc
      obtain ⟨text, htext, definition, d, hdef, hd, hget, hlookup⟩ :=
        exists_last_definition hgood (List.mem_map_of_mem (f := Named.name) hmem)
      rw [hlast, hget]
      exact exists_entry_of_column (hclause text htext) hdef hd (hproviso _ _ hlookup)
    constraints := by
      intro c hc
      obtain ⟨hmem, -⟩ := Named.eq_get_of_mem_putAll_nil hc
      obtain ⟨text, htext, hk⟩ := List.mem_filterMap.1 hmem
      exact exists_entry_of_constraint (hclause text htext) (Clause.constraint?_eq_some_iff.1 hk) }

namespace Table

/-- **Written and read again, a table is the same.**  The command may be any that a schema without tables accepts, as
long as the last definition of none of its columns ends in a second `NULL`. -/
theorem create_toSql (schema schema' command name : String) (s : Schema)
    (h : (Schema.ofName schema).create command = (s, .ok name))
    (hproviso : ∀ column definition, (columnDefinitions command).reverse.lookup column = some definition →
      ¬ Definition.EndsNullNull (words definition.toList)) :
    ∃ t, s = Schema.ofTable schema t ∧ t.name = name ∧
      (Schema.ofName schema').create t.toSql = (Schema.ofTable schema' t, .ok name) := by
  obtain ⟨heading, clauses, tail, hh, hlist, hgood, -, rfl, rfl⟩ := Schema.create_ofName_eq_ok_iff.1 h
  have hdefinitions : columnDefinitions command = clauses.filterMap Clause.definition? := by
    rw [columnDefinitions, hh]
    dsimp only
    rw [hlist]
  rw [hdefinitions] at hproviso
  refine ⟨described heading.table clauses tail, rfl, rfl, ?_⟩
  exact create_toSql_of_printable (printable_described hh hlist hgood hproviso) schema'

/-- A default that is a comma, a `NULL` that says nothing, and blanks that are not kept. -/
theorem create_toSql_of_two :
    let command := "CREATE TABLE t (a int NULL, b  text DEFAULT ',' NOT NULL) INHERITS ( p ) ;"
    let a : Column := { name := "a", dataType := some "int", default := none, nullable := true }
    let b : Column := { name := "b", dataType := some "text", default := some "','", nullable := false }
    let t : Table := { name := "t", columns := [a, b], constraints := [], inherits := some "p", withOids := none }
    (Schema.ofName "public").create command = (Schema.ofTable "public" t, .ok "t") ∧
      t.toSql = "CREATE TABLE t (a int, b text DEFAULT ',' NOT NULL) INHERITS (p);" ∧
      (Schema.ofName "x").create t.toSql = (Schema.ofTable "x" t, .ok "t") := by
  intro command a b t
  have h : (Schema.ofName "public").create command = (Schema.ofTable "public" t, .ok "t") := by
    decide +kernel
  have hdefinitions : columnDefinitions command = [("a", "int NULL"), ("b", "text DEFAULT ',' NOT NULL")] := by
    decide +kernel
  have hgood : ∀ p ∈ columnDefinitions command, ¬ Definition.EndsNullNull (words p.2.toList) := by
    rw [hdefinitions]
    decide +kernel
  have hproviso : ∀ column definition, (columnDefinitions command).reverse.lookup column = some definition →
      ¬ Definition.EndsNullNull (words definition.toList) := by
    intro column definition hlookup
    obtain ⟨before, after, e, -⟩ := List.lookup_eq_some_iff.1 hlookup
    exact hgood (column, definition) (List.mem_reverse.1 (by rw [e]; simp))
  obtain ⟨t', hs, -, hback⟩ := create_toSql "public" "x" command "t" _ h hproviso
  obtain rfl : t = t' := by simpa using hs
  exact ⟨h, by decide +kernel, hback⟩

end Table

end DdlCatalog
