import DdlCatalog.Proofs.Catalog.Definition
import DdlCatalog.Proofs.Statement.Clause
import DdlCatalog.Proofs.Statement.Heading
import DdlCatalog.Proofs.Statement.Sequence

/-!
# What statements alone leave

A table that only statements have changed, failed ones among them, has parts of a certain form, because they have been
cut out of statements.

* `Table.Stated` — that form;
* `Heading.stated_change` : what a statement changes in a table has it;
* `stated_createAll` : so have the tables after any statements.
-/

namespace DdlCatalog

open Sql Text

/-- What a column is that statements have declared, or only named. -/
structure Column.Stated (c : Column) : Prop where
  isWord_name : IsWord c.name.toList
  name_ne : c.name ≠ "CONSTRAINT"
  /-- Either no definition of the column has been read, or its type and its default have been cut out of one. -/
  content : c = Column.ofName c.name ∨ ∃ d : Definition, c = d.column c.name ∧
    (Trimmed d.dataType ∧ d.dataType ≠ [] ∧ Definition.startsWithKeyword d.dataType = false) ∧
    ∀ value, d.default = some value → Trimmed value ∧ value ≠ []

/-- What a constraint is that statements have declared. -/
structure Constraint.Stated (k : Constraint) : Prop where
  isWord_name : IsWord k.name.toList
  trimmed_definition : Trimmed k.definition.toList
  definition_ne : k.definition ≠ ""

/-- What a list of parents is that statements have given. -/
def StatedParents (parents : String) : Prop :=
  Enclosed parents.toList ∧ Trimmed parents.toList

/-- What a table is that only statements have changed. -/
structure Table.Stated (t : Table) : Prop where
  isTableName_name : Heading.IsTableName t.name.toList
  columns : ∀ c ∈ t.columns, c.Stated
  constraints : ∀ k ∈ t.constraints, k.Stated
  inherits : ∀ parents, t.inherits = some parents → StatedParents parents

/-- What a change is that a statement makes. -/
structure Table.Change.Stated (d : Table.Change) : Prop where
  columns : ∀ c ∈ d.columns, c.Stated
  mentioned : ∀ name, d.mentioned = some name → (Column.ofName name).Stated
  constraints : ∀ k ∈ d.constraints, k.Stated
  inherits : ∀ parents, d.inherits = some parents → StatedParents parents

variable {text : List Char} {t : Table} {d : Table.Change}

/-! ### Clauses -/

theorem stated_ofName {name definition : String} (h : Clause.ofText text = .ok (.column name definition)) :
    (Column.ofName name).Stated where
  isWord_name := (Clause.ofText_eq_column_iff.1 h).1.isWord_name
  name_ne := (Clause.ofText_eq_column_iff.1 h).2
  content := .inl rfl

theorem stated_of_column? {c : Column} (h : Clause.column? text = some c) : c.Stated := by
  unfold Clause.column? at h
  split at h
  next name definition htext =>
    obtain ⟨d, hd, rfl⟩ := Option.map_eq_some_iff.1 h
    obtain ⟨hs, hname⟩ := Clause.ofText_eq_column_iff.1 htext
    exact ⟨hs.isWord_name, hname, .inr ⟨d, rfl, Definition.trimmed_of_ofText? hd⟩⟩
  · cases h

theorem stated_of_constraint? {k : Constraint} (h : Clause.constraint? text = some k) : k.Stated := by
  unfold Clause.constraint? at h
  split at h
  next name definition htext =>
    cases h
    obtain ⟨gap, rest, -, -, -, hs⟩ := Clause.ofText_eq_constraint_iff.1 htext
    refine ⟨hs.isWord_name, hs.trimmed_definition, ?_⟩
    intro hempty
    have hempty : definition = "" := hempty
    subst hempty
    exact hs.definition_ne_nil rfl
  · cases h

theorem stated_of_mentioned? {name : String} (h : Clause.mentioned? text = some name) :
    (Column.ofName name).Stated := by
  unfold Clause.mentioned? at h
  split at h
  next n definition htext =>
    cases h
    exact stated_ofName htext
  · cases h

/-! ### Statements -/

theorem ColumnList.stated_change (list : ColumnList) : list.change.Stated where
  columns := by
    intro c hc
    obtain ⟨text, -, htext⟩ := List.mem_filterMap.1 hc
    exact stated_of_column? htext
  mentioned := by
    intro name hname
    obtain ⟨bad, -, hbad⟩ := Option.bind_eq_some_iff.1 hname
    exact stated_of_mentioned? hbad
  constraints := by
    intro k hk
    obtain ⟨text, -, htext⟩ := List.mem_filterMap.1 hk
    exact stated_of_constraint? htext
  inherits := by
    intro parents hparents
    cases hparents

theorem Table.Change.Stated.withOptions (hd : d.Stated) (text : List Char) : (d.withOptions text).Stated where
  columns := hd.columns
  mentioned := hd.mentioned
  constraints := hd.constraints
  inherits := by
    intro parents hparents
    rcases Option.or_eq_some_iff.1 hparents with hnew | ⟨-, hold⟩
    · obtain ⟨p, hp, rfl⟩ := Option.map_eq_some_iff.1 hnew
      unfold StatedParents
      rw [String.toList_ofList]
      exact Options.enclosed_of_parents? hp
    · exact hd.inherits parents hold

theorem Heading.stated_change (h : Heading) : h.change.Stated := by
  cases ht : h.list.tail with
  | error e =>
    rw [change_of_error ht]
    exact h.list.stated_change
  | ok text =>
    rw [change_of_ok ht]
    exact h.list.stated_change.withOptions text

/-! ### Tables -/

theorem Table.Change.Stated.mem_newColumns (hd : d.Stated) (ht : ∀ c ∈ t.columns, c.Stated) :
    ∀ c ∈ d.newColumns t.columns, c.Stated := by
  have hput : ∀ c ∈ Named.putAll d.columns t.columns, c.Stated := by
    intro c hc
    rcases Named.mem_of_mem_putAll hc with hc | hc
    · exact hd.columns c hc
    · exact ht c hc
  cases hm : d.mentioned with
  | none => rwa [newColumns_of_none hm]
  | some name =>
    rw [newColumns_of_some hm]
    intro c hc
    rcases Named.mem_of_mem_ensure hc with rfl | hc
    · exact hd.mentioned name hm
    · exact hput c hc

theorem Table.Stated.apply (ht : t.Stated) (hd : d.Stated) : (d.apply t).Stated where
  isTableName_name := ht.isTableName_name
  columns := hd.mem_newColumns ht.columns
  constraints := by
    intro k hk
    rcases Named.mem_of_mem_putAll hk with hk | hk
    · exact hd.constraints k hk
    · exact ht.constraints k hk
  inherits := by
    intro parents hparents
    rcases Option.or_eq_some_iff.1 hparents with hnew | ⟨-, hold⟩
    · exact hd.inherits parents hnew
    · exact ht.inherits parents hold

theorem Table.stated_ofName {name : String} (h : Heading.IsTableName name.toList) : (Table.ofName name).Stated where
  isTableName_name := h
  columns := by
    intro c hc
    cases hc
  constraints := by
    intro k hk
    cases hk
  inherits := by
    intro parents hparents
    cases hparents

namespace Schema

variable {s : Schema} {command : String}

theorem stated_table (hs : ∀ t ∈ s.tables, t.Stated) {name : String} (hname : Heading.IsTableName name.toList) :
    (s.table name).Stated := by
  rcases s.table_mem_or_eq name with hmem | hfresh
  · exact hs _ hmem
  · rw [hfresh]
    exact Table.stated_ofName hname

/-- A statement, whether it succeeds or fails, leaves tables of the form that they have. -/
theorem stated_create (hs : ∀ t ∈ s.tables, t.Stated) : ∀ t ∈ (s.create command).1.tables, t.Stated := by
  intro t ht
  cases hh : Heading.ofCommand command with
  | error e =>
    rw [create_of_no_heading s hh] at ht
    exact hs t ht
  | ok h =>
    rw [create_eq s hh] at ht
    rcases mem_tables_put ht with rfl | ht
    · exact (stated_table hs (Heading.isTableName_of_ofCommand hh)).apply h.stated_change
    · exact hs t ht

theorem stated_createAll (hs : ∀ t ∈ s.tables, t.Stated) (commands : List String) :
    ∀ t ∈ (s.createAll commands).tables, t.Stated := by
  induction commands generalizing s with
  | nil => exact hs
  | cons command commands ih => exact ih (stated_create hs)

end Schema

end DdlCatalog
