import DdlCatalog.Proofs.Catalog.Listing
import DdlCatalog.Proofs.Statement.Effect

/-!
# Statements one after the other

* `Schema.createAll`, `Schema.answers` — statements carried out in order, whatever becomes of each of them;
* `Heading.tableName?` — the table that a statement is about;
* `table?_create`, `answer_create` : what is found in a schema after a statement, and that the answer is that of the
  statement alone;
* `createAll_frame` : statements about different tables do not meet;
* `create_again` : a statement carried out twice, and in two schemas.
-/

namespace DdlCatalog

open Text

/-- The name of the table that a statement is about. -/
def Heading.tableName? (command : String) : Option String :=
  match ofCommand command with
  | .ok h => some h.table
  | .error _ => none

namespace Schema

/-- The schema after some statements; a statement that fails leaves what it has done. -/
def createAll (s : Schema) (commands : List String) : Schema :=
  commands.foldl (fun s command => (s.create command).1) s

/-- What some statements answer, one carried out after the other. -/
def answers (s : Schema) : List String → List (Except ParseError String)
  | [] => []
  | command :: commands => (s.create command).2 :: (s.create command).1.answers commands

variable {s s' : Schema} {t t' : Table} {command name : String} {commands : List String} {h : Heading}

theorem createAll_cons (s : Schema) (command : String) (commands : List String) :
    s.createAll (command :: commands) = (s.create command).1.createAll commands := rfl

/-! ### A table of a schema -/

theorem table?_put (s : Schema) (t : Table) (name : String) :
    (s.put t).table? name = if t.name = name then some t else s.table? name :=
  Named.find?_putInOrder t name s.stored

theorem name_table (s : Schema) (name : String) : (s.table name).name = name :=
  Named.name_get name s.stored

theorem table_of_table? (h : s.table? name = some t) : s.table name = t := by
  unfold table Named.get
  unfold table? at h
  rw [h]
  rfl

/-- The table of a name is one that is there, or a fresh one. -/
theorem table_mem_or_eq (s : Schema) (name : String) :
    s.table name ∈ s.tables ∨ s.table name = Table.ofName name := by
  cases hf : s.table? name with
  | none =>
    right
    unfold table Named.get
    unfold table? at hf
    rw [hf]
    rfl
  | some t =>
    left
    rw [table_of_table? hf]
    exact ((s.table?_eq_some_iff name t).1 hf).1

theorem table_put (s : Schema) (ht : t.name = name) : (s.put t).table name = t := by
  apply table_of_table?
  rw [table?_put, if_pos ht]

theorem put_put (s : Schema) (ht : t'.name = t.name) : (s.put t).put t' = s.put t' :=
  Schema.ext rfl (Named.putInOrder_putInOrder ht s.stored)

theorem table_congr (hs : s.table? name = s'.table? name) : s.table name = s'.table name := by
  unfold table Named.get
  unfold table? at hs
  rw [hs]

/-! ### One statement -/

theorem tableName?_of_ok (hh : Heading.ofCommand command = .ok h) : Heading.tableName? command = some h.table := by
  unfold Heading.tableName?
  rw [hh]

/-- What is found in a schema after a statement. -/
theorem table?_create (s : Schema) (hh : Heading.ofCommand command = .ok h) (name : String) :
    (s.create command).1.table? name =
      if h.table = name then some (h.change.apply (s.table name)) else s.table? name := by
  rw [create_eq s hh, table?_put, Table.Change.apply_name, name_table]
  split
  next hname => rw [hname]
  next => rfl

theorem table_create (s : Schema) (hh : Heading.ofCommand command = .ok h) :
    (s.create command).1.table h.table = h.change.apply (s.table h.table) := by
  rw [create_eq s hh]
  exact table_put s (name_table s h.table)

/-- The answer is that of the statement alone. -/
theorem answer_create (s s' : Schema) (command : String) : (s.create command).2 = (s'.create command).2 := by
  cases hh : Heading.ofCommand command with
  | error e => rw [create_of_no_heading s hh, create_of_no_heading s' hh]
  | ok h => rw [create_eq s hh, create_eq s' hh]

theorem table?_create_of_ne (s : Schema) (hne : Heading.tableName? command ≠ some name) :
    (s.create command).1.table? name = s.table? name := by
  cases hh : Heading.ofCommand command with
  | error e => rw [create_of_no_heading s hh]
  | ok h =>
    rw [tableName?_of_ok hh] at hne
    rw [table?_create s hh, if_neg fun e => hne (congrArg some e)]

/-- A statement makes the same of a table in any two schemas that have the same table. -/
theorem table?_create_congr (hs : s.table? name = s'.table? name) (command : String) :
    (s.create command).1.table? name = (s'.create command).1.table? name := by
  cases hh : Heading.ofCommand command with
  | error e => rw [create_of_no_heading s hh, create_of_no_heading s' hh, hs]
  | ok h => rw [table?_create s hh, table?_create s' hh, table_congr hs, hs]

theorem mem_tables_create (ht : t ∈ (s.create command).1.tables) :
    t ∈ s.tables ∨ Heading.tableName? command = some t.name := by
  cases hh : Heading.ofCommand command with
  | error e =>
    rw [create_of_no_heading s hh] at ht
    exact .inl ht
  | ok h =>
    rw [create_eq s hh] at ht
    rcases mem_tables_put ht with rfl | ht
    · right
      rw [tableName?_of_ok hh, Table.Change.apply_name, name_table]
    · exact .inl ht

/-! ### Many statements -/

theorem answers_eq_map (s s' : Schema) (commands : List String) :
    s.answers commands = commands.map fun command => (s'.create command).2 := by
  induction commands generalizing s with
  | nil => rfl
  | cons command commands ih => rw [answers, ih, answer_create s s', List.map_cons]

/-- Whether statements about other tables are carried out in between does not show. -/
theorem table?_createAll_filter (hs : s.table? name = s'.table? name) (commands : List String) :
    (s.createAll commands).table? name =
      (s'.createAll (commands.filter fun c => Heading.tableName? c = some name)).table? name := by
  induction commands generalizing s s' with
  | nil => exact hs
  | cons command commands ih =>
    by_cases hc : Heading.tableName? command = some name
    · rw [List.filter_cons_of_pos (by simpa using hc), createAll_cons, createAll_cons]
      exact ih (table?_create_congr hs command)
    · rw [List.filter_cons_of_neg (by simpa using hc), createAll_cons]
      apply ih
      rw [table?_create_of_ne s hc, hs]

theorem mem_tables_createAll (ht : t ∈ (s.createAll commands).tables) :
    t ∈ s.tables ∨ ∃ command ∈ commands, Heading.tableName? command = some t.name := by
  induction commands generalizing s with
  | nil => exact .inl ht
  | cons command commands ih =>
    rcases ih ht with ht | ⟨c, hc, hname⟩
    · rcases mem_tables_create ht with ht | hname
      · exact .inl ht
      · exact .inr ⟨command, List.mem_cons_self, hname⟩
    · exact .inr ⟨c, List.mem_cons_of_mem _ hc, hname⟩

/-- **Statements about different tables do not meet.**  The table of a name is the one that the statements about it
make, carried out by themselves.  A statement about another table or about none leaves it as it is, whether it succeeds
or fails, and a schema that starts without tables has no table that no statement is about. -/
theorem createAll_frame (s : Schema) (commands : List String) (name : String) :
    (s.createAll commands).table? name =
        (s.createAll (commands.filter fun c => Heading.tableName? c = some name)).table? name ∧
      (∀ (s : Schema) (command : String), Heading.tableName? command ≠ some name →
        (s.create command).1.table? name = s.table? name) ∧
      ∀ t ∈ (default.createAll commands).tables,
        ∃ command ∈ commands, Heading.tableName? command = some t.name := by
  refine ⟨table?_createAll_filter rfl commands, fun s command h => table?_create_of_ne s h, ?_⟩
  intro t ht
  refine (mem_tables_createAll ht).resolve_left ?_
  show t ∉ []
  exact List.not_mem_nil

/-! ### One statement twice, and in two schemas -/

/-- A statement that is carried out again changes nothing and answers the same. -/
theorem create_create (s : Schema) (command : String) : (s.create command).1.create command = s.create command := by
  cases hh : Heading.ofCommand command with
  | error e => rw [create_of_no_heading s hh, create_of_no_heading s hh]
  | ok h =>
    have ht := table_create s hh
    rw [create_eq _ hh, ht, Table.Change.apply_apply, create_eq s hh, put_put s rfl]

/-- A column that a successful statement declares has contents that the statement alone decides. -/
theorem exists_column?_create {text : List Char} {definition : String} (hh : Heading.ofCommand command = .ok h)
    (hok : h.answer = .ok h.table) (htext : text ∈ h.list.clauses)
    (hclause : Clause.ofText text = .ok (.column name definition)) :
    ∃ c, ∀ s : Schema, ((s.create command).1.table h.table).column? name = some c := by
  obtain ⟨hcolumns, hmentioned, -⟩ := Heading.change_of_answer hok
  have hgood := (Heading.fault?_of_answer hok).1 text htext
  have hname : name ∈ Named.names h.change.columns := by
    cases hd : Definition.ofText? definition.toList with
    | none =>
      rw [ColumnList.fault?_of_none hclause hd] at hgood
      cases hgood
    | some d =>
      have hcolumn : Clause.column? text = some (d.column name) := by
        unfold Clause.column?
        rw [hclause]
        dsimp only
        rw [hd]
        rfl
      rw [hcolumns]
      exact List.mem_map_of_mem (f := Named.name) (List.mem_filterMap.2 ⟨text, htext, hcolumn⟩)
  obtain ⟨c, hc⟩ := Named.exists_find?_putAll hname
  refine ⟨c, fun s => ?_⟩
  rw [table_create s hh, Table.column?, Table.Change.apply, Table.Change.newColumns_of_none hmentioned]
  exact hc _

/-- So has a constraint. -/
theorem exists_constraint?_create {text : List Char} {definition : String} (hh : Heading.ofCommand command = .ok h)
    (hok : h.answer = .ok h.table) (htext : text ∈ h.list.clauses)
    (hclause : Clause.ofText text = .ok (.constraint name definition)) :
    ∃ k, ∀ s : Schema, ((s.create command).1.table h.table).constraint? name = some k := by
  obtain ⟨-, -, hconstraints⟩ := Heading.change_of_answer hok
  have hconstraint : Clause.constraint? text = some { name, definition } := by
    unfold Clause.constraint?
    rw [hclause]
  have hname : name ∈ Named.names h.change.constraints := by
    rw [hconstraints]
    exact List.mem_map_of_mem (f := Named.name) (List.mem_filterMap.2 ⟨text, htext, hconstraint⟩)
  obtain ⟨k, hk⟩ := Named.exists_find?_putAll hname
  refine ⟨k, fun s => ?_⟩
  rw [table_create s hh]
  exact hk _

/-- **A statement says the same thing every time.**  Carried out again, it gives the same answer, with the same causes
behind an error, and leaves the schema as it has left it before.  The answer does not depend on the schema.  If the
statement succeeds, neither does what becomes of the columns and the constraints that its clauses name. -/
theorem create_again (s s' : Schema) (command : String) :
    (s.create command).1.create command = s.create command ∧
      (s'.create command).2 = (s.create command).2 ∧
      ∀ h, Heading.ofCommand command = .ok h → (s.create command).2 = .ok h.table → ∀ text ∈ h.list.clauses,
        (∀ name definition, Clause.ofText text = .ok (.column name definition) →
          ∃ c, ((s.create command).1.table h.table).column? name = some c ∧
            ((s'.create command).1.table h.table).column? name = some c) ∧
        ∀ name definition, Clause.ofText text = .ok (.constraint name definition) →
          ∃ k, ((s.create command).1.table h.table).constraint? name = some k ∧
            ((s'.create command).1.table h.table).constraint? name = some k := by
  refine ⟨create_create s command, answer_create s' s command, ?_⟩
  intro h hh hok text htext
  rw [create_eq s hh] at hok
  constructor
  · intro name definition hclause
    obtain ⟨c, hc⟩ := exists_column?_create hh hok htext hclause
    exact ⟨c, hc s, hc s'⟩
  · intro name definition hclause
    obtain ⟨k, hk⟩ := exists_constraint?_create hh hok htext hclause
    exact ⟨k, hk s, hk s'⟩

/-- A column that a statement declares twice, in an empty schema and in one that says something else about it. -/
theorem create_again_of_repeated :
    let command := "CREATE TABLE t (a int, a bigint, CONSTRAINT k CHECK (a > 0));"
    let s := default
    let s' := (default.create "CREATE TABLE t (b date, a bytea NOT NULL) WITH OIDS;").1
    let a : Column := { name := "a", dataType := some "bigint", default := none, nullable := true }
    let k : Constraint := { name := "k", definition := "CHECK (a > 0)" }
    (s.create command).1.create command = s.create command ∧ (s'.create command).2 = .ok "t" ∧
      ((s'.create command).1.table "t").column? "a" = some a ∧
      ((s'.create command).1.table "t").constraint? "k" = some k := by
  intro command s s' a k
  obtain ⟨hagain, hanswer, hparts⟩ := create_again s s' command
  have hok : (s.create command).2 = .ok "t" := by decide +kernel
  have hparts := hparts ⟨"t", "a int, a bigint, CONSTRAINT k CHECK (a > 0));"⟩ (by decide +kernel) hok
  have hcolumn : ((s'.create command).1.table "t").column? "a" = some a := by
    obtain ⟨c, hc, hc'⟩ := (hparts "a int".toList (by decide +kernel)).1 "a" "int" (by decide +kernel)
    have ha : ((s.create command).1.table "t").column? "a" = some a := by decide +kernel
    rw [hc', ← hc]
    exact ha
  have hconstraint : ((s'.create command).1.table "t").constraint? "k" = some k := by
    obtain ⟨c, hc, hc'⟩ := (hparts " CONSTRAINT k CHECK (a > 0)".toList (by decide +kernel)).2 "k" "CHECK (a > 0)"
      (by decide +kernel)
    have hk : ((s.create command).1.table "t").constraint? "k" = some k := by decide +kernel
    rw [hc', ← hc]
    exact hk
  exact ⟨hagain, hanswer.trans hok, hcolumn, hconstraint⟩

end Schema

end DdlCatalog
