import DdlCatalog.Proofs.Statement.ColumnList
import DdlCatalog.Proofs.Statement.Options
import DdlCatalog.Statement.Create

/-!
# A statement as a batch of clauses

`create_eq_batch`: a statement whose heading is found has the effect of its clauses, cut beforehand and carried out
in order, and then of its options.  It stops at the first clause that cannot be carried out, and options are read
only behind a list whose clauses all could.
-/

namespace DdlCatalog

open Text

namespace Schema

section Heading

variable {s : Schema} {command : String} {heading : Heading} {t : Table}

theorem create_of_error {e : ParseError} (h : Heading.ofCommand command = .ok heading)
    (hrun : (ColumnList.ofBody (dropTerminator heading.rest.toList)).carryOut (s.table heading.table) = (t, .error e)) :
    s.create command =
      (s.put t, .error (.columnList heading.table (String.ofList (dropTerminator heading.rest.toList)) e)) := by
  unfold create
  rw [h]
  dsimp only
  rw [ColumnList.applyClauses_eq, hrun]

theorem create_of_ok {tail : List Char} (h : Heading.ofCommand command = .ok heading)
    (hrun : (ColumnList.ofBody (dropTerminator heading.rest.toList)).carryOut (s.table heading.table) = (t, .ok tail)) :
    s.create command =
      (s.put (t.applyOptions tail).1, if trim (t.applyOptions tail).2 = [] then .ok heading.table
        else .error (.leftover heading.table (String.ofList (trim (t.applyOptions tail).2)))) := by
  unfold create
  rw [h]
  dsimp only
  rw [ColumnList.applyClauses_eq, hrun]
  simp only [List.isEmpty_iff]
  split <;> rfl

end Heading

/-- **A statement is the batch of its clauses.**  Let `before` be the table that the heading names and `list` the
column list, cut as a whole.

* If every clause can be carried out and the list is closed, the table is what the clauses make of it in order and
  then the options in the text behind the list, and the statement succeeds if and only if nothing but blanks is left
  of that text.  The clauses have no say in the options.
* If every clause can be carried out but nothing closes the list, all of them are carried out, and the error has the
  clause in which the list breaks off.
* Otherwise the clauses before the first bad one are carried out, and the error is that of the bad one.  It leaves no
  trace unless it is a column whose definition is refused: that column is in the table then.  No option is read. -/
theorem create_eq_batch (s : Schema) (command : String) (heading : Heading)
    (h : Heading.ofCommand command = .ok heading) :
    let body := dropTerminator heading.rest.toList
    let list := ColumnList.ofBody body
    let before := s.table heading.table
    let failure := fun e => ParseError.columnList heading.table (String.ofList body) e
    (∀ tail, list.ending = .tail tail → (∀ c ∈ list.clauses, Clause.fault? c = none) →
      let after := (list.clauses.foldl Table.declare before).applyOptions tail
      let t := after.1
      let residual := trim after.2
      s.create command = (s.put t, if residual = [] then .ok heading.table
        else .error (.leftover heading.table (String.ofList residual))) ∧
      t.inherits = (before.applyOptions tail).1.inherits ∧ t.withOids = (before.applyOptions tail).1.withOids) ∧
    (∀ clause, list.ending = .broken clause → (∀ c ∈ list.clauses, Clause.fault? c = none) →
      let t := list.clauses.foldl Table.declare before
      s.create command = (s.put t, .error (failure (.unterminated (String.ofList (trim clause))))) ∧
      t.inherits = before.inherits ∧ t.withOids = before.withOids) ∧
    ∀ good bad rest e, list.clauses = good ++ bad :: rest → (∀ c ∈ good, Clause.fault? c = none) →
      Clause.fault? bad = some e →
      let t := (good.foldl Table.declare before).mention bad
      s.create command = (s.put t, .error (failure e)) ∧
      t.inherits = before.inherits ∧ t.withOids = before.withOids := by
  intro body list before failure
  refine ⟨fun tail hend hgood => ?_, fun clause hend hgood => ?_, fun good bad rest e hlist hgood hbad => ?_⟩
  · have hrun : list.carryOut before = (list.clauses.foldl Table.declare before, .ok tail) := by
      rw [ColumnList.carryOut, ColumnList.carryClauses_of_no_fault hgood, hend]
    refine ⟨create_of_ok h hrun, ?_, ?_⟩
    · rw [ColumnList.foldl_declare_frame, Table.applyOptions_eq, Table.applyOptions_eq]
    · rw [ColumnList.foldl_declare_frame, Table.applyOptions_eq, Table.applyOptions_eq]
  · have hrun : list.carryOut before =
        (list.clauses.foldl Table.declare before, .error (.unterminated (String.ofList (trim clause)))) := by
      rw [ColumnList.carryOut, ColumnList.carryClauses_of_no_fault hgood, hend]
    refine ⟨create_of_error h hrun, ?_, ?_⟩
    · rw [ColumnList.foldl_declare_frame]
    · rw [ColumnList.foldl_declare_frame]
  · have hrun : list.carryOut before = ((good.foldl Table.declare before).declare bad, .error e) := by
      rw [ColumnList.carryOut, hlist, ColumnList.carryClauses_of_fault hgood hbad]
    rw [← ColumnList.declare_of_fault hbad]
    refine ⟨create_of_error h hrun, ?_, ?_⟩
    · rw [ColumnList.declare_frame, ColumnList.foldl_declare_frame]
    · rw [ColumnList.declare_frame, ColumnList.foldl_declare_frame]

/-- The three ways to end: nothing left behind the options, no closing parenthesis, and a clause of one word. -/
theorem create_eq_batch_of_three :
    (match default.create "CREATE TABLE t (a int, b text) WITH OIDS" with
      | (s, answer) =>
        (s.table "t").columnNames = ["a", "b"] ∧ (s.table "t").withOids = some true ∧ answer = .ok "t") ∧
    (match default.create "CREATE TABLE t (a int, b text" with
      | (s, answer) =>
        (s.table "t").columnNames = ["a"] ∧
          answer = .error (.columnList "t" "a int, b text" (.unterminated "b text"))) ∧
    (match default.create "CREATE TABLE t (a int, z, b text) WITH OIDS;" with
      | (s, answer) =>
        (s.table "t").columnNames = ["a"] ∧ (s.table "t").withOids = none ∧
          answer = .error (.columnList "t" "a int, z, b text) WITH OIDS" (.unreadable "z"))) := by
  refine ⟨?_, ?_, ?_⟩
  · have h := (create_eq_batch default "CREATE TABLE t (a int, b text) WITH OIDS"
      ⟨"t", "a int, b text) WITH OIDS"⟩ (by decide +kernel)).1 " WITH OIDS".toList (by decide +kernel)
      (by decide +kernel)
    rw [h.1]
    decide +kernel
  · have h := (create_eq_batch default "CREATE TABLE t (a int, b text"
      ⟨"t", "a int, b text"⟩ (by decide +kernel)).2.1 " b text".toList (by decide +kernel) (by decide +kernel)
    rw [h.1]
    decide +kernel
  · have h := (create_eq_batch default "CREATE TABLE t (a int, z, b text) WITH OIDS;"
      ⟨"t", "a int, z, b text) WITH OIDS;"⟩ (by decide +kernel)).2.2 ["a int".toList] " z".toList
      [" b text".toList] (.unreadable "z") (by decide +kernel) (by decide +kernel) (by decide +kernel)
    rw [h.1]
    decide +kernel

end Schema

end DdlCatalog
