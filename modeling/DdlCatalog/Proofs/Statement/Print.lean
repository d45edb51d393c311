import DdlCatalog.Proofs.Catalog.Written
import DdlCatalog.Proofs.Statement.Layout

/-!
# Tables written as statements

* `Table.toSql` — the statement that declares a table;
* `Table.Printable` — every part of the table can stand in a statement;
* `create_toSql_of_printable` : such a table comes out of its own statement.
-/

namespace DdlCatalog

open Sql Text

/-- The clause that declares a constraint. -/
def Constraint.toSql (c : Constraint) : String :=
  "CONSTRAINT " ++ c.name ++ " " ++ c.definition

namespace Table

/-- The clauses that declare the columns and the constraints of a table. -/
def clausesSql (t : Table) : List String :=
  t.columns.map Column.toSql ++ t.constraints.map Constraint.toSql

/-- The options of a table, each after a blank. -/
def optionsSql (t : Table) : String :=
  (t.inherits.elim "" fun parents => " INHERITS (" ++ parents ++ ")") ++
    (t.withOids.elim "" fun oids => if oids then " WITH OIDS" else " WITHOUT OIDS")

/-- The statement that declares a table. -/
def toSql (t : Table) : String :=
  "CREATE TABLE " ++ t.name ++ " (" ++ ", ".intercalate t.clausesSql ++ ")" ++ t.optionsSql ++ ";"

/-- The parts of a table are what a statement can give. -/
structure Printable (t : Table) : Prop where
  isTableName_name : Heading.IsTableName t.name.toList
  columns : ∀ c ∈ t.columns, ∃ e : Entry,
    IsClause e.text ∧ e.text = c.toSql.toList ∧ e.column? = some c ∧ e.constraint? = none
  constraints : ∀ c ∈ t.constraints, ∃ e : Entry,
    IsClause e.text ∧ e.text = c.toSql.toList ∧ e.constraint? = some c ∧ e.column? = none
  nodup_columns : (Named.names t.columns).Nodup
  nodup_constraints : (Named.names t.constraints).Nodup
  enclosed_inherits : ∀ parents, t.inherits = some parents → Enclosed parents.toList
  trimmed_inherits : ∀ parents, t.inherits = some parents → Trimmed parents.toList

end Table

/-! ### Slots one blank apart -/

/-- An entry without blanks around it. -/
def Slot.tight (e : Entry) (h : IsClause e.text) : Slot where
  before := .none
  entry := e
  after := .none
  isClause := h

theorem Slot.text_tight {e : Entry} (h : IsClause e.text) : (Slot.tight e h).text = e.text :=
  List.append_nil _

theorem exists_slots {α β : Type} {cs : List α} {sql : α → List Char} {f : Entry → Option α} {g : Entry → Option β}
    (h : ∀ c ∈ cs, ∃ e : Entry, IsClause e.text ∧ e.text = sql c ∧ f e = some c ∧ g e = none) :
    ∃ slots : List Slot, slots.map Slot.text = cs.map sql ∧ (slots.filterMap fun s => f s.entry) = cs ∧
      (slots.filterMap fun s => g s.entry) = [] := by
  induction cs with
  | nil => exact ⟨[], rfl, rfl, rfl⟩
  | cons c cs ih =>
    obtain ⟨slots, htext, hf, hg⟩ := ih fun d hd => h d (by simp [hd])
    obtain ⟨e, hclause, he, hfe, hge⟩ := h c (by simp)
    refine ⟨Slot.tight e hclause :: slots, ?_, ?_, ?_⟩
    · rw [List.map_cons, List.map_cons, Slot.text_tight, he, htext]
    · simp [Slot.tight, hfe, hf]
    · simp [Slot.tight, hge, hg]

/-- The slots of a list with one blank after every comma. -/
def spaced : List Slot → List Slot
  | [] => []
  | s :: slots => s :: slots.map (Slot.pad .space)

theorem intercalate_space (x : List Char) (xs : List (List Char)) :
    [','].intercalate (x :: xs.map (' ' :: ·)) = [',', ' '].intercalate (x :: xs) := by
  induction xs generalizing x with
  | nil => simp
  | cons y ys ih =>
    rw [List.map_cons, List.intercalate_cons_cons, List.intercalate_cons_cons, List.intercalate_cons_cons_left, ih]
    simp

theorem intercalate_spaced (slots : List Slot) :
    [','].intercalate ((spaced slots).map Slot.text) = [',', ' '].intercalate (slots.map Slot.text) := by
  cases slots with
  | nil => rfl
  | cons s slots =>
    rw [spaced, List.map_cons, List.map_cons, List.map_map, ← intercalate_space, List.map_map]
    refine congrArg _ (congrArg _ (List.map_congr_left fun s _ => ?_))
    exact s.text_pad _

theorem filterMap_spaced {α : Type} (f : Entry → Option α) (slots : List Slot) :
    ((spaced slots).filterMap fun s => f s.entry) = slots.filterMap fun s => f s.entry := by
  cases slots with
  | nil => rfl
  | cons s slots => simp [spaced, List.filterMap_cons, List.filterMap_map, Function.comp_def, Slot.pad]

/-! ### The statement of a printable table -/

namespace Table

variable {t : Table}

/-- The options of a table as a layout, with the blanks before them. -/
theorem Printable.exists_options (h : t.Printable) :
    ∃ (before : Blanks) (o : Options.Layout), before.1 ++ o.text = t.optionsSql.toList ∧
      o.parents?.map String.ofList = t.inherits ∧ o.oids? = t.withOids := by
  have hoids (oids : Bool) :
      [' '] ++ Options.oidsWords oids = (if oids then " WITH OIDS" else " WITHOUT OIDS").toList := by
    cases oids <;> decide
  unfold optionsSql
  cases hi : t.inherits with
  | none =>
    cases ho : t.withOids with
    | none => exact ⟨.none, .none, rfl, rfl, rfl⟩
    | some oids => exact ⟨.space, .oids oids, by simpa using hoids oids, rfl, rfl⟩
  | some parents =>
    let list : Options.ParentList := ⟨.space, parents.toList, h.enclosed_inherits parents hi⟩
    have hlist : [' '] ++ list.text = (" INHERITS (" ++ parents ++ ")").toList := by
      unfold Options.ParentList.text
      simp [list]
    have htrim : (some (trim list.inside)).map String.ofList = some parents := by
      simp [list, trim_eq_self (h.trimmed_inherits parents hi)]
    cases ho : t.withOids with
    | none => exact ⟨.space, .parents list, by simpa using hlist, htrim, rfl⟩
    | some oids =>
      refine ⟨.space, .parentsOids list .space oids, ?_, htrim, rfl⟩
      rw [Options.Layout.text_parentsOids, ← List.append_assoc, ← List.append_assoc, Blanks.coe_space, hlist,
        List.append_assoc, hoids, ← String.toList_append]
      rfl

/-- **A printable table comes out of its own statement.** -/
theorem create_toSql_of_printable (h : t.Printable) (schema : String) :
    (Schema.ofName schema).create t.toSql = (Schema.ofTable schema t, .ok t.name) := by
  obtain ⟨columns, hctext, hcolumns, hno⟩ := exists_slots h.columns
  obtain ⟨constraints, hktext, hconstraints, hno'⟩ := exists_slots h.constraints
  obtain ⟨before, o, htext, hparents, hoids⟩ := h.exists_options
  let l : Layout := {
    margin := .none
    gap := .space
    name := t.name.toList
    isTableName_name := h.isTableName_name
    afterName := .space
    slots := spaced (columns ++ constraints)
    afterList := before
    options := o
    afterOptions := .none
    semicolon := true
    ending := .none }
  have hclauses : (columns ++ constraints).map Slot.text = t.clausesSql.map String.toList := by
    rw [List.map_append, hctext, hktext, clausesSql, List.map_append, List.map_map, List.map_map]
    rfl
  have hlist : [','].intercalate (l.slots.map Slot.text) = (", ".intercalate t.clausesSql).toList := by
    rw [intercalate_spaced, hclauses, String.toList_intercalate]
    rfl
  have hsql : l.text = t.toSql := by
    apply String.toList_inj.1
    unfold Layout.text toSql Layout.rest
    simp only [hlist, String.toList_ofList, String.toList_append, ← htext]
    simp [l]
  have hfilled : l.filled = t := by
    have hc : (l.slots.filterMap fun s => s.entry.column?) = t.columns := by
      rw [filterMap_spaced, List.filterMap_append, hcolumns, hno', List.append_nil]
    have hk : (l.slots.filterMap fun s => s.entry.constraint?) = t.constraints := by
      rw [filterMap_spaced, List.filterMap_append, hconstraints, hno, List.nil_append]
    rw [Layout.filled, hc, hk, Named.putAll_of_nodup h.nodup_columns, Named.putAll_of_nodup h.nodup_constraints]
    simp [l, hparents, hoids]
  have hcreate := l.create_filled schema
  rw [hsql, hfilled] at hcreate
  simpa [l] using hcreate

end Table

end DdlCatalog
