import DdlCatalog.Catalog.Definition

/-!
# What a definition makes of a table

A definition that has a type replaces everything of its column but the name; one that has none leaves a column of
that name in the table, as it was or fresh.
-/

namespace DdlCatalog

def Definition.column (d : Definition) (name : String) : Column where
  name := name
  dataType := some (String.ofList d.dataType)
  default := d.default.map String.ofList
  nullable := d.nullable

variable {t : Table} {c : Column} {name definition : String} {d : Definition}

theorem Column.define_of_some (h : Definition.ofText? definition.toList = some d) :
    c.define definition = .ok (d.column c.name) := by
  unfold Column.define
  rw [h]
  rfl

theorem Column.define_of_none (h : Definition.ofText? definition.toList = none) :
    c.define definition = .error (.invalidDefinition c.name definition) := by
  unfold Column.define
  rw [h]

theorem Column.exists_of_define {c' : Column} (h : c.define definition = .ok c') :
    ∃ d, Definition.ofText? definition.toList = some d ∧ c' = d.column c.name := by
  cases hread : Definition.ofText? definition.toList with
  | some d =>
    rw [define_of_some hread] at h
    exact ⟨d, rfl, (Except.ok.inj h).symm⟩
  | none =>
    rw [define_of_none hread] at h
    cases h

theorem Definition.column_inj {d' : Definition} : d.column name = d'.column name ↔ d = d' := by
  obtain ⟨dataType, default, nullable⟩ := d
  obtain ⟨dataType', default', nullable'⟩ := d'
  simp only [column, Column.mk.injEq, Definition.mk.injEq, true_and, Option.some.injEq, String.ofList_inj,
    (Option.map_injective fun _ _ => String.ofList_inj.1).eq_iff]

theorem Column.define_eq_column_iff :
    c.define definition = .ok (d.column c.name) ↔ Definition.ofText? definition.toList = some d := by
  refine ⟨fun h => ?_, define_of_some⟩
  obtain ⟨d', hread, e⟩ := exists_of_define h
  rw [Definition.column_inj.1 e]
  exact hread

namespace Table

theorem name_column (t : Table) (name : String) : (t.column name).name = name :=
  Named.name_get name t.columns

theorem name_constraint (t : Table) (name : String) : (t.constraint name).name = name :=
  Named.name_get name t.constraints

theorem defineColumn_of_some (h : Definition.ofText? definition.toList = some d) :
    t.defineColumn name definition = (t.putColumn (d.column name), .ok (d.column name)) := by
  unfold defineColumn
  rw [Column.define_of_some h, name_column]

theorem defineColumn_of_none (h : Definition.ofText? definition.toList = none) :
    t.defineColumn name definition = (t.ensureColumn name, .error (.invalidDefinition name definition)) := by
  unfold defineColumn
  rw [Column.define_of_none h, name_column]

theorem defineConstraint_eq (t : Table) (name definition : String) :
    t.defineConstraint name definition = t.putConstraint { name, definition } := by
  rw [defineConstraint, Constraint.define, name_constraint]

end Table

end DdlCatalog
