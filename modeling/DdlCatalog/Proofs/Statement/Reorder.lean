import DdlCatalog.Proofs.Statement.Operation
import DdlCatalog.Render.Format

/-!
# Statements in another order

* `Reordered` — the same statements in an order that differs only in how statements about different tables stand to
  each other;
* `createAll_eq_of_reordered` : statements about different tables can be carried out in any order;
* `createAll_reordered` : statements in another order make the same schema, which is shown in the same way.
-/

namespace DdlCatalog

/-- The same statements, those about one table in the same order. -/
structure Reordered (commands commands' : List String) : Prop where
  perm : commands.Perm commands'
  sameOrder : ∀ name, commands.filter (fun c => Heading.tableName? c = some name) =
    commands'.filter fun c => Heading.tableName? c = some name

namespace Schema

variable {commands commands' : List String}

theorem name_createAll (s : Schema) (commands : List String) : (s.createAll commands).name = s.name := by
  rw [← performAll_map_create]
  exact (s.grows_performAll _).name_eq

/-- Statements about different tables can be carried out in any order. -/
theorem createAll_eq_of_reordered (s : Schema) (h : Reordered commands commands') :
    s.createAll commands = s.createAll commands' := by
  refine eq_of_table?_eq ?_ fun name => ?_
  · rw [name_createAll, name_createAll]
  · calc (s.createAll commands).table? name
        = (s.createAll (commands.filter fun c => Heading.tableName? c = some name)).table? name :=
          table?_createAll_filter rfl commands
      _ = (s.createAll (commands'.filter fun c => Heading.tableName? c = some name)).table? name := by
          rw [h.sameOrder name]
      _ = (s.createAll commands').table? name := (table?_createAll_filter rfl commands').symm

/-- **The order in which different tables are met does not show.**  Statements that are carried out in another order,
each of which succeeds or fails, make a schema with the same tables if those about one table come in the same order,
and the schema is shown in the same way in every format. -/
theorem createAll_reordered (h : Reordered commands commands') :
    (default.createAll commands).tableNames = (default.createAll commands').tableNames ∧
      (default.createAll commands).tables = (default.createAll commands').tables ∧
      ∀ format, (default.createAll commands).render format = (default.createAll commands').render format := by
  have hsame : default.createAll commands = default.createAll commands' := default.createAll_eq_of_reordered h
  rw [hsame]
  exact ⟨rfl, rfl, fun _ => rfl⟩

/-- Two statements about one table, with a statement that fails and one that is about no table moved past them. -/
theorem createAll_reordered_of_four :
    let b := "CREATE TABLE b (x int);"
    let b' := "CREATE TABLE b (x text) WITH OIDS;"
    let a := "CREATE TABLE a (y int, z);"
    let other := "DROP TABLE b;"
    Reordered [b, other, a, b'] [a, b, b', other] ∧
      (default.createAll [b, other, a, b']).tableNames = (default.createAll [a, b, b', other]).tableNames ∧
      (default.createAll [b, other, a, b']).tables = (default.createAll [a, b, b', other]).tables ∧
      ∀ format, (default.createAll [b, other, a, b']).render format =
        (default.createAll [a, b, b', other]).render format := by
  intro b b' a other
  have hb : Heading.tableName? b = some "b" := by decide +kernel
  have hb' : Heading.tableName? b' = some "b" := by decide +kernel
  have ha : Heading.tableName? a = some "a" := by decide +kernel
  have hother : Heading.tableName? other = none := by decide +kernel
  have h : Reordered [b, other, a, b'] [a, b, b', other] := by
    refine ⟨by decide +kernel, fun name => ?_⟩
    by_cases hname : name = "b"
    · simp [hb, hb', ha, hother, hname]
    · have hname : ¬ "b" = name := fun e => hname e.symm
      simp [List.filter_cons, hb, hb', ha, hother, hname]
  exact ⟨h, createAll_reordered h⟩

end Schema

end DdlCatalog
