import DdlCatalog.Proofs.Catalog.Update
import DdlCatalog.Proofs.Statement.Declared
import Mathlib.Data.List.TakeWhile

/-!
# What a statement does

A statement names a table, changes it and gives an answer.  The change and the answer are read off the statement
alone, whatever the schema holds.

* `Table.Change` — a change of a table, as data;
* `Heading.change`, `Heading.answer` — the change and the answer of a statement;
* `create_eq`, `create_of_no_heading` : all that a statement does to a schema;
* `Change.apply_apply` : a change made twice is a change made once.
-/

namespace DdlCatalog

open Text

/-! ### Changes of a table -/

/-- What a statement changes in a table. -/
structure Table.Change where
  /-- The columns that are declared, in order. -/
  columns : List Column
  /-- A column that is named only: its definition is refused. -/
  mentioned : Option String
  /-- The constraints that are declared, in order. -/
  constraints : List Constraint
  /-- The list of parents, if there is a new one. -/
  inherits : Option String
  /-- Whether rows have object identifiers, if that is said. -/
  withOids : Option Bool

namespace Table.Change

/-- The columns of a table after the change. -/
def newColumns (d : Change) (columns : List Column) : List Column :=
  match d.mentioned with
  | none => Named.putAll d.columns columns
  | some name => Named.ensure name (Named.putAll d.columns columns)

/-- The table with the change made. -/
def apply (d : Change) (t : Table) : Table where
  name := t.name
  columns := d.newColumns t.columns
  constraints := Named.putAll d.constraints t.constraints
  inherits := d.inherits.or t.inherits
  withOids := d.withOids.or t.withOids

variable (d : Change) (t : Table)

@[simp] theorem apply_name : (d.apply t).name = t.name := rfl

theorem newColumns_of_none {d : Change} (h : d.mentioned = none) (columns : List Column) :
    d.newColumns columns = Named.putAll d.columns columns := by
  unfold newColumns
  rw [h]

theorem newColumns_of_some {d : Change} {name : String} (h : d.mentioned = some name) (columns : List Column) :
    d.newColumns columns = Named.ensure name (Named.putAll d.columns columns) := by
  unfold newColumns
  rw [h]

theorem newColumns_newColumns (columns : List Column) :
    d.newColumns (d.newColumns columns) = d.newColumns columns := by
  cases h : d.mentioned with
  | none => rw [newColumns_of_none h, newColumns_of_none h, Named.putAll_putAll]
  | some name => rw [newColumns_of_some h, newColumns_of_some h, Named.ensure_putAll_again]

/-- **A change made twice is a change made once.** -/
theorem apply_apply : d.apply (d.apply t) = d.apply t := by
  have hor {α : Type} (x y : Option α) : x.or (x.or y) = x.or y := by
    cases x <;> rfl
  unfold apply
  rw [newColumns_newColumns, Named.putAll_putAll, hor, hor]

/-- The change, and then that of the options in a text. -/
def withOptions (d : Change) (text : List Char) : Change :=
  { d with
    inherits := ((Options.parents? text).map String.ofList).or d.inherits
    withOids := (Options.oids? text).or d.withOids }

@[simp] theorem withOptions_columns (text : List Char) : (d.withOptions text).columns = d.columns := rfl

@[simp] theorem withOptions_mentioned (text : List Char) : (d.withOptions text).mentioned = d.mentioned := rfl

@[simp] theorem withOptions_constraints (text : List Char) : (d.withOptions text).constraints = d.constraints := rfl

theorem apply_withOptions (text : List Char) :
    (d.withOptions text).apply t = ((d.apply t).applyOptions text).1 := by
  rw [Table.applyOptions_eq]
  unfold apply withOptions newColumns
  dsimp only
  rw [Option.or_assoc, Option.or_assoc]

end Table.Change

/-! ### Column lists -/

/-- The column that the clause in a text names. -/
def Clause.mentioned? (text : List Char) : Option String :=
  match ofText text with
  | .ok (.column name _) => some name
  | _ => none

namespace ColumnList

/-- The clauses before the first that has a fault. -/
def sound (clauses : List (List Char)) : List (List Char) :=
  clauses.takeWhile fun c => (Clause.fault? c).isNone

/-- The first clause that has a fault, with the fault. -/
def faulty? (clauses : List (List Char)) : Option (List Char × ParseError) :=
  clauses.findSome? fun c => (Clause.fault? c).map fun e => (c, e)

/-- What the clauses of a list change. -/
def change (list : ColumnList) : Table.Change where
  columns := (sound list.clauses).filterMap Clause.column?
  mentioned := (faulty? list.clauses).bind fun bad => Clause.mentioned? bad.1
  constraints := (sound list.clauses).filterMap Clause.constraint?
  inherits := none
  withOids := none

/-- The text behind a list, or the error in the list. -/
def tail (list : ColumnList) : Except ParseError (List Char) :=
  match faulty? list.clauses, list.ending with
  | some bad, _ => .error bad.2
  | none, .tail text => .ok text
  | none, .broken clause => .error (.unterminated (String.ofList (trim clause)))

variable {t : Table} {clauses : List (List Char)} {text : List Char} {list : ColumnList}

theorem fault?_of_mem_sound (h : text ∈ sound clauses) : Clause.fault? text = none := by
  simpa using List.mem_takeWhile_imp h

theorem sound_of_no_fault (h : ∀ c ∈ clauses, Clause.fault? c = none) :
    sound clauses = clauses ∧ faulty? clauses = none := by
  constructor
  · exact List.takeWhile_eq_self_iff.2 fun c hc => by rw [h c hc]; rfl
  · exact List.findSome?_eq_none_iff.2 fun c hc => by rw [h c hc]; rfl

theorem sound_cons_of_none {c : List Char} (h : Clause.fault? c = none) (clauses : List (List Char)) :
    sound (c :: clauses) = c :: sound clauses ∧ faulty? (c :: clauses) = faulty? clauses := by
  unfold sound faulty?
  simp [h]

theorem sound_cons_of_some {c : List Char} {e : ParseError} (h : Clause.fault? c = some e)
    (clauses : List (List Char)) : sound (c :: clauses) = [] ∧ faulty? (c :: clauses) = some (c, e) := by
  unfold sound faulty?
  simp [h]

theorem mention_eq (t : Table) (text : List Char) :
    t.mention text = (Clause.mentioned? text).elim t t.ensureColumn := by
  unfold Table.mention Clause.mentioned?
  cases Clause.ofText text with
  | error e => rfl
  | ok clause => cases clause <;> rfl

/-- The sound clauses are carried out, and of the faulty one at most its column is left. -/
theorem carryClauses_eq (t : Table) (clauses : List (List Char)) :
    carryClauses t clauses =
      match faulty? clauses with
      | none => ((sound clauses).foldl Table.declare t, none)
      | some bad => (((sound clauses).foldl Table.declare t).mention bad.1, some bad.2) := by
  induction clauses generalizing t with
  | nil => rfl
  | cons c clauses ih =>
    cases h : Clause.fault? c with
    | some e =>
      obtain ⟨hs, hf⟩ := sound_cons_of_some h clauses
      rw [carryClauses, h, hs, hf]
      dsimp only
      rw [declare_of_fault h]
      rfl
    | none =>
      obtain ⟨hs, hf⟩ := sound_cons_of_none h clauses
      rw [carryClauses, h, hs, hf]
      exact ih (t.declare c)

theorem foldl_declare_sound (t : Table) (clauses : List (List Char)) :
    (sound clauses).foldl Table.declare t =
      { t with
        columns := Named.putAll ((sound clauses).filterMap Clause.column?) t.columns
        constraints := Named.putAll ((sound clauses).filterMap Clause.constraint?) t.constraints } :=
  foldl_declare_eq fun _ h => fault?_of_mem_sound h

/-- A column list changes a table in its own way and ends in its own way, whatever the table is. -/
theorem carryOut_eq (t : Table) (list : ColumnList) : list.carryOut t = (list.change.apply t, list.tail) := by
  unfold carryOut tail
  rw [carryClauses_eq, foldl_declare_sound]
  cases h : faulty? list.clauses with
  | none =>
    have hm : list.change.mentioned = none := by
      unfold change
      rw [h]
      rfl
    have ht : list.change.apply t =
        { t with
          columns := Named.putAll ((sound list.clauses).filterMap Clause.column?) t.columns
          constraints := Named.putAll ((sound list.clauses).filterMap Clause.constraint?) t.constraints } := by
      rw [Table.Change.apply, Table.Change.newColumns_of_none hm]
      rfl
    rw [ht]
    cases list.ending <;> rfl
  | some bad =>
    have hm : list.change.mentioned = Clause.mentioned? bad.1 := by
      unfold change
      rw [h]
      rfl
    dsimp only
    rw [mention_eq]
    cases hb : Clause.mentioned? bad.1 with
    | none =>
      rw [Table.Change.apply, Table.Change.newColumns_of_none (hm.trans hb)]
      rfl
    | some name =>
      rw [Table.Change.apply, Table.Change.newColumns_of_some (hm.trans hb)]
      rfl

theorem tail_eq_ok_iff {rest : List Char} :
    list.tail = .ok rest ↔ (∀ c ∈ list.clauses, Clause.fault? c = none) ∧ list.ending = .tail rest := by
  -- whether a list is read to its end does not depend on the table
  let t := Table.ofName ""
  have h : list.carryOut t = (list.change.apply t, .ok rest) ↔
      (∀ c ∈ list.clauses, Clause.fault? c = none) ∧ list.change.apply t = list.clauses.foldl Table.declare t ∧
        list.ending = .tail rest :=
    carryOut_eq_ok_iff
  rw [carryOut_eq, Prod.mk.injEq] at h
  constructor
  · intro ht
    obtain ⟨hgood, -, hend⟩ := h.1 ⟨rfl, ht⟩
    exact ⟨hgood, hend⟩
  · rintro ⟨hgood, hend⟩
    unfold tail
    rw [(sound_of_no_fault hgood).2, hend]

end ColumnList

/-! ### Statements -/

namespace Heading

/-- The column list of a statement. -/
def list (h : Heading) : ColumnList :=
  ColumnList.ofBody (dropTerminator h.rest.toList)

/-- What a statement changes in its table. -/
def change (h : Heading) : Table.Change :=
  match h.list.tail with
  | .error _ => h.list.change
  | .ok text => h.list.change.withOptions text

/-- What a statement answers. -/
def answer (h : Heading) : Except ParseError String :=
  match h.list.tail with
  | .error e => .error (.columnList h.table (String.ofList (dropTerminator h.rest.toList)) e)
  | .ok text =>
    if trim (Options.residual text) = [] then .ok h.table
    else .error (.leftover h.table (String.ofList (trim (Options.residual text))))

variable {h : Heading} {text : List Char} {e : ParseError}

theorem change_of_error (ht : h.list.tail = .error e) : h.change = h.list.change := by
  unfold change
  rw [ht]

theorem change_of_ok (ht : h.list.tail = .ok text) : h.change = h.list.change.withOptions text := by
  unfold change
  rw [ht]

/-- A statement that succeeds has no clause with a fault. -/
theorem fault?_of_answer {name : String} (ha : h.answer = .ok name) :
    (∀ c ∈ h.list.clauses, Clause.fault? c = none) ∧ name = h.table := by
  unfold answer at ha
  cases ht : h.list.tail with
  | error e =>
    rw [ht] at ha
    cases ha
  | ok text =>
    rw [ht] at ha
    dsimp only at ha
    split at ha
    · cases ha
      exact ⟨(ColumnList.tail_eq_ok_iff.1 ht).1, rfl⟩
    · cases ha

/-- The columns and the constraints that a statement declares if it succeeds. -/
theorem change_of_answer {name : String} (ha : h.answer = .ok name) :
    h.change.columns = h.list.clauses.filterMap Clause.column? ∧ h.change.mentioned = none ∧
      h.change.constraints = h.list.clauses.filterMap Clause.constraint? := by
  obtain ⟨hs, hf⟩ := ColumnList.sound_of_no_fault (fault?_of_answer ha).1
  have hfields : h.change.columns = h.list.change.columns ∧ h.change.mentioned = h.list.change.mentioned ∧
      h.change.constraints = h.list.change.constraints := by
    cases ht : h.list.tail with
    | error e =>
      rw [change_of_error ht]
      exact ⟨rfl, rfl, rfl⟩
    | ok text =>
      rw [change_of_ok ht]
      simp only [Table.Change.withOptions_columns, Table.Change.withOptions_mentioned,
        Table.Change.withOptions_constraints, and_self]
  obtain ⟨hc, hm, hk⟩ := hfields
  rw [hc, hm, hk]
  unfold ColumnList.change
  dsimp only
  rw [hs, hf]
  exact ⟨rfl, rfl, rfl⟩

end Heading

namespace Schema

variable {s : Schema} {command : String} {h : Heading}

/-- **All that a statement does**: it changes the table that its heading names and answers, both in its own way. -/
theorem create_eq (s : Schema) (hh : Heading.ofCommand command = .ok h) :
    s.create command = (s.put (h.change.apply (s.table h.table)), h.answer) := by
  have hrun : h.list.carryOut (s.table h.table) = (h.list.change.apply (s.table h.table), h.list.tail) :=
    ColumnList.carryOut_eq _ _
  cases ht : h.list.tail with
  | error e =>
    rw [ht] at hrun
    rw [create_of_error hh hrun, Heading.change_of_error ht, Heading.answer, ht]
  | ok text =>
    rw [ht] at hrun
    rw [create_of_ok hh hrun, Heading.change_of_ok ht, Table.Change.apply_withOptions, Heading.answer, ht,
      Table.applyOptions_eq]

theorem create_of_no_heading {e : ParseError} (s : Schema) (hh : Heading.ofCommand command = .error e) :
    s.create command = (s, .error e) := by
  unfold create
  rw [hh]

end Schema

end DdlCatalog
