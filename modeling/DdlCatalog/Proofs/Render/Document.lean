import DdlCatalog.Proofs.Json.Pretty
import DdlCatalog.Proofs.Statement.Reorder

/-!
# A schema is read back from its JSON

* `Schema.ofValue?` — the schema that a JSON value describes, whatever else the value says and in whatever order;
* `Schema.ofValue?_toJson` : the document of a schema describes the schema, and it describes all of it;
* `Schema.render_json_lossless` : what is printed for a schema is read back as that schema.
-/

namespace DdlCatalog

open Json.Standard Text

namespace Json.Standard.Value

/-! ### Reading a value -/

def field? (key : String) : Value → Option Value
  | .object fields => fields.lookup key
  | _ => none

def string? : Value → Option String
  | .string text => some text
  | _ => none

def bool? : Value → Option Bool
  | .bool value => some value
  | _ => none

variable {α : Type}

/-- What all items of an array are read as. -/
def items? (read : Value → Option α) : Value → Option (List α)
  | .array items => items.mapM read
  | _ => none

/-- What a value is read as if it is not `null`. -/
def optional? (read : Value → Option α) : Value → Option (Option α)
  | .null => some none
  | value => (read value).map some

theorem items?_map {toJson : α → Json} {read : Value → Option α} (h : ∀ a, read (toJson a).value = some a)
    (things : List α) : items? read (Json.array (things.map toJson)).value = some things := by
  unfold Json.value items?
  dsimp only
  rw [values_eq_map, List.map_map]
  induction things with
  | nil => rfl
  | cons a things ih =>
    rw [List.map_cons, List.mapM_cons, ih]
    simp [h a]

theorem optional?_string (text : Option String) : optional? string? (Json.ofOption .string text).value = some text := by
  cases text <;> rfl

theorem optional?_bool (value : Option Bool) : optional? bool? (Json.ofOption .bool value).value = some value := by
  cases value <;> rfl

end Json.Standard.Value

open Value

/-! ### Reading a schema -/

def Column.ofValue? (value : Value) : Option Column := do
  return {
    name := ← (← value.field? "name").string?
    dataType := ← (← value.field? "type").optional? string?
    default := ← (← value.field? "default").optional? string?
    nullable := ← (← value.field? "nullable").bool? }

def Constraint.ofValue? (value : Value) : Option Constraint := do
  return {
    name := ← (← value.field? "name").string?
    definition := ← (← value.field? "definition").string? }

def Table.ofValue? (value : Value) : Option Table := do
  return {
    name := ← (← value.field? "name").string?
    columns := ← (← value.field? "columns").items? Column.ofValue?
    constraints := ← (← value.field? "constraints").items? Constraint.ofValue?
    inherits := ← (← value.field? "inherits").optional? string?
    withOids := ← (← value.field? "with_oids").optional? bool? }

/-- The schema that a value describes, whose tables it lists in the order of their names. -/
def Schema.ofValue? (value : Value) : Option Schema := do
  let name ← (← value.field? "schema").string?
  let stored ← (← value.field? "tables").items? Table.ofValue?
  if ordered : (Named.names stored).Pairwise (· < ·) then some { name, stored, ordered } else none

/-! ### Reading what is printed -/

theorem Column.ofValue?_toJson (c : Column) : ofValue? c.toJson.value = some c := by
  have hname : c.toJson.value.field? "name" = some (.string c.name) := rfl
  have htype : c.toJson.value.field? "type" = some (Json.ofOption .string c.dataType).value := rfl
  have hdefault : c.toJson.value.field? "default" = some (Json.ofOption .string c.default).value := rfl
  have hnullable : c.toJson.value.field? "nullable" = some (.bool c.nullable) := rfl
  unfold ofValue?
  rw [hname, htype, hdefault, hnullable]
  dsimp only [bind, Option.bind]
  rw [optional?_string, optional?_string]
  rfl

theorem Constraint.ofValue?_toJson (c : Constraint) : ofValue? c.toJson.value = some c := rfl

theorem Table.ofValue?_toJson (t : Table) : ofValue? t.toJson.value = some t := by
  have hname : t.toJson.value.field? "name" = some (.string t.name) := rfl
  have hcolumns : t.toJson.value.field? "columns" = some (Json.array (t.columns.map Column.toJson)).value := rfl
  have hconstraints :
      t.toJson.value.field? "constraints" = some (Json.array (t.constraints.map Constraint.toJson)).value := rfl
  have hinherits : t.toJson.value.field? "inherits" = some (Json.ofOption .string t.inherits).value := rfl
  have hoids : t.toJson.value.field? "with_oids" = some (Json.ofOption .bool t.withOids).value := rfl
  unfold ofValue?
  rw [hname, hcolumns, hconstraints, hinherits, hoids]
  dsimp only [bind, Option.bind]
  rw [items?_map Column.ofValue?_toJson, items?_map Constraint.ofValue?_toJson, optional?_string, optional?_bool]
  rfl

/-- The document of a schema describes the schema, and it describes all of it. -/
theorem Schema.ofValue?_toJson (s : Schema) : ofValue? s.toJson.value = some s := by
  have hname : s.toJson.value.field? "schema" = some (.string s.name) := rfl
  have htables : s.toJson.value.field? "tables" = some (Json.array (s.tables.map Table.toJson)).value := rfl
  unfold ofValue?
  rw [hname, htables]
  dsimp only [bind, Option.bind]
  rw [items?_map Table.ofValue?_toJson, tables_eq_stored]
  exact dif_pos s.ordered

namespace Schema

/-- What is printed for a schema denotes one value, and that describes the schema. -/
theorem exists_denotes_render (s : Schema) :
    ∃ value, (∀ denoted, Denotes (s.render .json).toList denoted ↔ denoted = value) ∧ ofValue? value = some s :=
  ⟨s.toJson.value, s.toJson.denotes_pretty_iff, s.ofValue?_toJson⟩

theorem eq_of_render_eq {s s' : Schema} (h : s.render .json = s'.render .json) : s = s' := by
  obtain ⟨value, hdenotes, hs⟩ := s.exists_denotes_render
  obtain ⟨value', hdenotes', hs'⟩ := s'.exists_denotes_render
  rw [h] at hdenotes
  have hsame : value = value' := (hdenotes' value).1 ((hdenotes value).2 rfl)
  rw [hsame, hs'] at hs
  exact (Option.some.inj hs).symm

/-- **Nothing of a schema is lost in JSON.**  After any operations on an empty schema, what is printed denotes one
value, which describes the schema, with its tables in the order of their names.  Two schemas are printed alike just
if they have the same name and the same table under every name. -/
theorem render_json_lossless (schema schema' : String) (ops ops' : List Operation) :
    let s := (ofName schema).performAll ops
    let s' := (ofName schema').performAll ops'
    (∃ value, (∀ denoted, Denotes (s.render .json).toList denoted ↔ denoted = value) ∧ ofValue? value = some s) ∧
      (s.tables.map Table.name).Pairwise (fun a b => utf8 a < utf8 b) ∧
      (s.render .json = s'.render .json ↔ s.name = s'.name ∧ ∀ name, s.table? name = s'.table? name) := by
  intro s s'
  have horder : (s.tables.map Table.name).Pairwise fun a b => utf8 a < utf8 b := by
    rw [← tableNames_eq_map]
    exact s.pairwise_utf8_tableNames
  refine ⟨s.exists_denotes_render, horder, ?_, ?_⟩
  · intro h
    rw [eq_of_render_eq h]
    exact ⟨rfl, fun _ => rfl⟩
  · rintro ⟨hname, htables⟩
    rw [eq_of_table?_eq hname htables]

end Schema

end DdlCatalog
