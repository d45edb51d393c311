import DdlCatalog.Proofs.Catalog.Named
import DdlCatalog.Proofs.Statement.Batch

/-!
# The table that a statement describes

In a schema without tables the clauses of a statement are all there is to its table.

* `Clause.column?`, `Clause.constraint?` — what a clause declares, whatever the table;
* `foldl_declare_eq` : clauses without a fault put what they declare into the table, in order;
* `create_ofName_eq_ok_iff` : when a statement is accepted by a schema without tables, and what it makes of it.
-/

namespace DdlCatalog

open Text

namespace Clause

/-- The column that the clause in a text declares. -/
def column? (text : List Char) : Option Column :=
  match ofText text with
  | .ok (.column name definition) => (Definition.ofText? definition.toList).map fun d => d.column name
  | _ => none

/-- The constraint that the clause in a text declares. -/
def constraint? (text : List Char) : Option Constraint :=
  match ofText text with
  | .ok (.constraint name definition) => some { name, definition }
  | _ => none

end Clause

/-- The table that a name, clauses and the text behind them describe. -/
def Table.described (name : String) (clauses : List (List Char)) (tail : List Char) : Table where
  name := name
  columns := Named.putAll (clauses.filterMap Clause.column?) []
  constraints := Named.putAll (clauses.filterMap Clause.constraint?) []
  inherits := (Options.parents? tail).map String.ofList
  withOids := Options.oids? tail

namespace ColumnList

open Named

variable {t t' : Table} {text tail : List Char} {clauses : List (List Char)} {list : ColumnList}

theorem declare_eq (h : Clause.fault? text = none) :
    t.declare text =
      { t with
        columns := putAll (Clause.column? text).toList t.columns
        constraints := putAll (Clause.constraint? text).toList t.constraints } := by
  unfold Clause.column? Clause.constraint?
  cases hclause : Clause.ofText text with
  | error e => simp [Clause.fault?, hclause] at h
  | ok clause =>
    rw [declare_of_ok hclause]
    cases clause with
    | empty => rfl
    | constraint name definition =>
      have hrun : t.applyClause (.constraint name definition) = (t.putConstraint { name, definition }, .ok ()) := by
        unfold Table.applyClause
        dsimp only
        rw [Table.defineConstraint_eq]
      rw [hrun]
      rfl
    | column name definition =>
      cases hd : Definition.ofText? definition.toList with
      | none =>
        rw [fault?_of_none hclause hd] at h
        cases h
      | some d =>
        rw [applyClause_of_some hd]
        dsimp only
        rw [hd]
        rfl

/-- Clauses without a fault leave what they declare. -/
theorem foldl_declare_eq (h : ∀ c ∈ clauses, Clause.fault? c = none) :
    clauses.foldl Table.declare t =
      { t with
        columns := putAll (clauses.filterMap Clause.column?) t.columns
        constraints := putAll (clauses.filterMap Clause.constraint?) t.constraints } := by
  induction clauses generalizing t with
  | nil => rfl
  | cons c clauses ih =>
    have hcolumns : (c :: clauses).filterMap Clause.column? =
        (Clause.column? c).toList ++ clauses.filterMap Clause.column? := by
      cases hc : Clause.column? c <;> simp [hc]
    have hconstraints : (c :: clauses).filterMap Clause.constraint? =
        (Clause.constraint? c).toList ++ clauses.filterMap Clause.constraint? := by
      cases hc : Clause.constraint? c <;> simp [hc]
    rw [List.foldl_cons, ih fun d hd => h d (by simp [hd]), declare_eq (h c (by simp)), hcolumns, hconstraints,
      putAll_append, putAll_append]

/-! ### Accepted statements -/

theorem carryClauses_eq_none_iff :
    carryClauses t clauses = (t', none) ↔
      (∀ c ∈ clauses, Clause.fault? c = none) ∧ t' = clauses.foldl Table.declare t := by
  induction clauses generalizing t with
  | nil => simp [carryClauses, eq_comm]
  | cons c clauses ih =>
    rw [carryClauses]
    cases hc : Clause.fault? c with
    | some e => simp [hc]
    | none => simp [ih, hc]

theorem carryOut_eq_ok_iff :
    carryOut t list = (t', .ok tail) ↔
      (∀ c ∈ list.clauses, Clause.fault? c = none) ∧ t' = list.clauses.foldl Table.declare t ∧
        list.ending = .tail tail := by
  rw [← and_assoc, ← carryClauses_eq_none_iff, carryOut]
  rcases carryClauses t list.clauses with ⟨after, _ | e⟩
  · cases list.ending <;> simp
  · simp

end ColumnList

namespace Schema

/-- A schema with one table. -/
def ofTable (name : String) (t : Table) : Schema :=
  { name, stored := [t], ordered := List.pairwise_singleton _ _ }

variable {schema schema' command name : String} {s : Schema} {t t' : Table}

@[simp] theorem ofTable_inj : ofTable schema t = ofTable schema' t' ↔ schema = schema' ∧ t = t' := by
  simp [Schema.ext_iff, ofTable]

theorem applyOptions_foldl_declare {clauses : List (List Char)} {tail : List Char}
    (h : ∀ c ∈ clauses, Clause.fault? c = none) :
    (clauses.foldl Table.declare ((ofName schema).table name)).applyOptions tail =
      (Table.described name clauses tail, Options.residual tail) := by
  rw [Table.applyOptions_eq, ColumnList.foldl_declare_eq h]
  simp [Table.described, ofName, Schema.table, Named.get, Named.find?, Named.fresh, Table.ofName]

/-- **What a schema without tables accepts**, and the table that it has then. -/
theorem create_ofName_eq_ok_iff :
    (ofName schema).create command = (s, .ok name) ↔
      ∃ heading clauses tail, Heading.ofCommand command = .ok heading ∧
        ColumnList.ofBody (dropTerminator heading.rest.toList) = ⟨clauses, .tail tail⟩ ∧
        (∀ c ∈ clauses, Clause.fault? c = none) ∧ trim (Options.residual tail) = [] ∧
        name = heading.table ∧ s = ofTable schema (Table.described heading.table clauses tail) := by
  constructor
  · intro h
    cases hh : Heading.ofCommand command with
    | error e =>
      unfold create at h
      rw [hh] at h
      cases h
    | ok heading =>
      rcases hrun : (ColumnList.ofBody (dropTerminator heading.rest.toList)).carryOut
        ((ofName schema).table heading.table) with ⟨t, e | tail⟩
      · rw [create_of_error hh hrun] at h
        cases h
      · rw [create_of_ok hh hrun] at h
        obtain ⟨hgood, rfl, hend⟩ := ColumnList.carryOut_eq_ok_iff.1 hrun
        rw [applyOptions_foldl_declare hgood] at h
        dsimp only at h
        split at h
        next hrest =>
          cases h
          exact ⟨heading, _, tail, rfl, by rw [← hend], hgood, hrest, rfl, rfl⟩
        · cases h
  · rintro ⟨heading, clauses, tail, hh, hlist, hgood, hrest, rfl, rfl⟩
    have hrun : (ColumnList.ofBody (dropTerminator heading.rest.toList)).carryOut
        ((ofName schema).table heading.table) =
          (clauses.foldl Table.declare ((ofName schema).table heading.table), .ok tail) := by
      rw [hlist]
      exact ColumnList.carryOut_eq_ok_iff.2 ⟨hgood, rfl, rfl⟩
    rw [create_of_ok hh hrun, applyOptions_foldl_declare hgood, if_pos hrest]
    rfl

end Schema

end DdlCatalog
