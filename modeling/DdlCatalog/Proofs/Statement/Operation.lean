import DdlCatalog.Proofs.Statement.Stated
import DdlCatalog.Proofs.Text.ByteOrder

/-!
# Catalogs that are used

A catalog is filled by statements, and by callers that look a table up and change it themselves.  An operation changes
one table, in the way that `Table.Change` describes; what holds of such a change holds of every catalog.

* `Operation` — what can be done to a catalog;
* `Table.Grows`, `Schema.Grows` — what an operation keeps;
* `Schema.Consistent` — how the tables of a catalog and their parts are named;
* `perform_cases` : all that an operation does;
* `performAll_invariant` : catalogs stay consistent and only grow, and what statements have put there has been cut out
  of statements.
-/

namespace DdlCatalog

open Text

/-- An operation on a table.  To look a column or a constraint up is one, because it is made if it is not there. -/
inductive Table.Operation where
  | column (name : String)
  | defineColumn (name definition : String)
  | constraint (name : String)
  | defineConstraint (name definition : String)
  | setInherits (parents : String)
  | setOids (oids : Bool)
  | applyOptions (text : List Char)

/-- An operation on a schema. -/
inductive Operation where
  | table (name : String)
  | change (name : String) (op : Table.Operation)
  | create (command : String)

/-- The table after an operation, whether that succeeds or fails. -/
def Table.perform (t : Table) : Table.Operation → Table
  | .column name => t.ensureColumn name
  | .defineColumn name definition => (t.defineColumn name definition).1
  | .constraint name => t.ensureConstraint name
  | .defineConstraint name definition => t.defineConstraint name definition
  | .setInherits parents => t.setInherits parents
  | .setOids oids => t.setOids oids
  | .applyOptions text => (t.applyOptions text).1

/-- The schema after an operation, whether that succeeds or fails. -/
def Schema.perform (s : Schema) : Operation → Schema
  | .table name => s.ensureTable name
  | .change name op => s.put ((s.table name).perform op)
  | .create command => (s.create command).1

/-- The schema after some operations. -/
def Schema.performAll (s : Schema) (ops : List Operation) : Schema :=
  ops.foldl Schema.perform s

/-! ### What a table keeps -/

/-- A table keeps its name, and the names of its columns and of its constraints in their places. -/
structure Table.Grows (t t' : Table) : Prop where
  name_eq : t'.name = t.name
  columnNames : t.columnNames <+: t'.columnNames
  constraintNames : t.constraintNames <+: t'.constraintNames

/-- No two columns of a table have the same name, and no two constraints. -/
structure Table.Distinct (t : Table) : Prop where
  columnNames : t.columnNames.Nodup
  constraintNames : t.constraintNames.Nodup

namespace Table

variable {t t₁ t₂ t₃ : Table}

theorem Grows.refl (t : Table) : t.Grows t where
  name_eq := rfl
  columnNames := List.prefix_refl _
  constraintNames := List.prefix_refl _

theorem Grows.trans (h : t₁.Grows t₂) (h' : t₂.Grows t₃) : t₁.Grows t₃ where
  name_eq := h'.name_eq.trans h.name_eq
  columnNames := h.columnNames.trans h'.columnNames
  constraintNames := h.constraintNames.trans h'.constraintNames

theorem distinct_ofName (name : String) : (ofName name).Distinct where
  columnNames := List.nodup_nil
  constraintNames := List.nodup_nil

namespace Change

variable (d : Change)

theorem names_prefix_newColumns (columns : List Column) :
    Named.names columns <+: Named.names (d.newColumns columns) := by
  have hput := Named.names_prefix_putAll d.columns columns
  cases hm : d.mentioned with
  | none => rwa [newColumns_of_none hm]
  | some name =>
    rw [newColumns_of_some hm]
    exact hput.trans (Named.names_prefix_ensure name _)

theorem nodup_names_newColumns {columns : List Column} (h : (Named.names columns).Nodup) :
    (Named.names (d.newColumns columns)).Nodup := by
  have hput : (Named.names (Named.putAll d.columns columns)).Nodup := Named.nodup_names_putAll h
  cases hm : d.mentioned with
  | none => rwa [newColumns_of_none hm]
  | some name =>
    rw [newColumns_of_some hm]
    exact Named.nodup_names_ensure hput

theorem grows_apply (t : Table) : t.Grows (d.apply t) where
  name_eq := rfl
  columnNames := d.names_prefix_newColumns t.columns
  constraintNames := Named.names_prefix_putAll d.constraints t.constraints

theorem distinct_apply (ht : t.Distinct) : (d.apply t).Distinct where
  columnNames := d.nodup_names_newColumns ht.columnNames
  constraintNames := Named.nodup_names_putAll ht.constraintNames

end Change

/-! ### What an operation is -/

/-- Every operation on a table is a change of it. -/
theorem exists_change (t : Table) (op : Table.Operation) : ∃ d : Change, t.perform op = d.apply t := by
  cases op with
  | column name => exact ⟨⟨[], some name, [], none, none⟩, rfl⟩
  | defineColumn name definition =>
    cases hd : (t.column name).define definition with
    | error e =>
      refine ⟨⟨[], some name, [], none, none⟩, ?_⟩
      show (t.defineColumn name definition).1 = _
      unfold defineColumn
      rw [hd]
      rfl
    | ok c =>
      refine ⟨⟨[c], none, [], none, none⟩, ?_⟩
      show (t.defineColumn name definition).1 = _
      unfold defineColumn
      rw [hd]
      rfl
  | constraint name => exact ⟨⟨[], none, [t.constraint name], none, none⟩, rfl⟩
  | defineConstraint name definition =>
    exact ⟨⟨[], none, [(t.constraint name).define definition], none, none⟩, rfl⟩
  | setInherits parents => exact ⟨⟨[], none, [], some parents, none⟩, rfl⟩
  | setOids oids => exact ⟨⟨[], none, [], none, some oids⟩, rfl⟩
  | applyOptions text =>
    let nothing : Change := ⟨[], none, [], none, none⟩
    refine ⟨nothing.withOptions text, ?_⟩
    rw [Change.apply_withOptions]
    rfl

end Table

namespace Schema

variable {s s₁ s₂ s₃ : Schema} {t : Table}

/-- **All that an operation does**: at most it changes one table. -/
theorem perform_cases (s : Schema) (op : Operation) :
    s.perform op = s ∨ ∃ (name : String) (d : Table.Change), s.perform op = s.put (d.apply (s.table name)) := by
  cases op with
  | table name => exact .inr ⟨name, ⟨[], none, [], none, none⟩, rfl⟩
  | change name op =>
    obtain ⟨d, hd⟩ := (s.table name).exists_change op
    exact .inr ⟨name, d, congrArg s.put hd⟩
  | create command =>
    show (s.create command).1 = s ∨ _
    cases hh : Heading.ofCommand command with
    | error e =>
      left
      rw [create_of_no_heading s hh]
    | ok h =>
      right
      refine ⟨h.table, h.change, ?_⟩
      show (s.create command).1 = _
      rw [create_eq s hh]

/-! ### What a schema keeps -/

/-- A schema keeps its name and its tables, and each of them keeps what a table keeps. -/
structure Grows (s s' : Schema) : Prop where
  name_eq : s'.name = s.name
  tables : ∀ name t, s.table? name = some t → ∃ t', s'.table? name = some t' ∧ t.Grows t'

theorem Grows.refl (s : Schema) : s.Grows s where
  name_eq := rfl
  tables := fun _ t ht => ⟨t, ht, .refl t⟩

theorem Grows.trans (h : s₁.Grows s₂) (h' : s₂.Grows s₃) : s₁.Grows s₃ where
  name_eq := h'.name_eq.trans h.name_eq
  tables := by
    intro name t₁ ht₁
    obtain ⟨t₂, ht₂, h₁₂⟩ := h.tables name t₁ ht₁
    obtain ⟨t₃, ht₃, h₂₃⟩ := h'.tables name t₂ ht₂
    exact ⟨t₃, ht₃, h₁₂.trans h₂₃⟩

theorem grows_put (h : (s.table t.name).Grows t) : s.Grows (s.put t) where
  name_eq := rfl
  tables := by
    intro name old hold
    rw [table?_put]
    split
    next hname =>
      subst hname
      rw [table_of_table? hold] at h
      exact ⟨t, rfl, h⟩
    next => exact ⟨old, hold, .refl old⟩

theorem grows_perform (s : Schema) (op : Operation) : s.Grows (s.perform op) := by
  rcases s.perform_cases op with h | ⟨name, d, h⟩
  · rw [h]
    exact .refl s
  · rw [h]
    apply grows_put
    rw [Table.Change.apply_name, name_table]
    exact d.grows_apply _

theorem grows_performAll (s : Schema) (ops : List Operation) : s.Grows (s.performAll ops) := by
  induction ops generalizing s with
  | nil => exact .refl s
  | cons op ops ih => exact (s.grows_perform op).trans (ih (s.perform op))

/-! ### What holds of every schema -/

/-- What an operation preserves: in no table does a name stand twice. -/
def Distinct (s : Schema) : Prop :=
  ∀ t ∈ s.tables, t.Distinct

theorem distinct_ofName (name : String) : (ofName name).Distinct := by
  intro t ht
  cases ht

theorem Distinct.table (hs : s.Distinct) (name : String) : (s.table name).Distinct := by
  rcases s.table_mem_or_eq name with hmem | hfresh
  · exact hs _ hmem
  · rw [hfresh]
    exact Table.distinct_ofName name

theorem Distinct.put (hs : s.Distinct) (ht : t.Distinct) : (s.put t).Distinct := by
  intro t' ht'
  rcases mem_tables_put ht' with rfl | ht'
  · exact ht
  · exact hs t' ht'

theorem Distinct.perform (hs : s.Distinct) (op : Operation) : (s.perform op).Distinct := by
  rcases s.perform_cases op with h | ⟨name, d, h⟩
  · rwa [h]
  · rw [h]
    exact hs.put (d.distinct_apply (hs.table name))

theorem Distinct.performAll (hs : s.Distinct) (ops : List Operation) : (s.performAll ops).Distinct := by
  induction ops generalizing s with
  | nil => exact hs
  | cons op ops ih => exact ih (hs.perform op)

/-- How the tables of a schema and their parts are named. -/
structure Consistent (s : Schema) : Prop where
  /-- A table is found under its own name and under no other. -/
  table?_eq_some_iff : ∀ name t, s.table? name = some t ↔ t ∈ s.tables ∧ t.name = name
  /-- The names of the tables stand in the order of their bytes, and none stands there twice. -/
  tableNames : s.tableNames.Pairwise fun a b => utf8 a < utf8 b
  /-- What is listed as names, as tables and as their number agrees. -/
  tableNames_eq : s.tableNames = s.tables.map Table.name
  length_tableNames : s.tableNames.length = s.tableCount
  columnNames : ∀ t ∈ s.tables, t.columnNames.Nodup
  constraintNames : ∀ t ∈ s.tables, t.constraintNames.Nodup

theorem pairwise_utf8_tableNames (s : Schema) : s.tableNames.Pairwise fun a b => utf8 a < utf8 b :=
  s.pairwise_tableNames.imp utf8_lt_utf8_iff.2

theorem Distinct.consistent (hs : s.Distinct) : s.Consistent where
  table?_eq_some_iff := s.table?_eq_some_iff
  tableNames := s.pairwise_utf8_tableNames
  tableNames_eq := s.tableNames_eq_map
  length_tableNames := s.length_tableNames
  columnNames := fun t ht => (hs t ht).columnNames
  constraintNames := fun t ht => (hs t ht).constraintNames

/-! ### Runs -/

theorem performAll_append (s : Schema) (ops later : List Operation) :
    s.performAll (ops ++ later) = (s.performAll ops).performAll later := by
  unfold performAll
  rw [List.foldl_append]

theorem performAll_map_create (s : Schema) (commands : List String) :
    s.performAll (commands.map .create) = s.createAll commands := by
  unfold performAll createAll
  rw [List.foldl_map]
  rfl

/-- **Catalogs stay consistent and only grow.**  After any operations on an empty schema, each of which succeeds or
fails, the schema is consistent, and whatever operations come later, it keeps its tables and the names in them.  If
the operations are statements only, every table has the form of what is cut out of statements. -/
theorem performAll_invariant (schema : String) (ops later : List Operation) (commands : List String) :
    ((ofName schema).performAll ops).Consistent ∧
      ((ofName schema).performAll ops).Grows ((ofName schema).performAll (ops ++ later)) ∧
      ∀ t ∈ ((ofName schema).performAll (commands.map .create)).tables, t.Stated := by
  refine ⟨?_, ?_, ?_⟩
  · exact ((distinct_ofName schema).performAll ops).consistent
  · rw [performAll_append]
    exact grows_performAll _ later
  · intro t ht
    rw [performAll_map_create] at ht
    refine stated_createAll ?_ commands t ht
    intro t ht
    cases ht

end Schema

end DdlCatalog
