import DdlCatalog.Catalog.Schema
import DdlCatalog.Proofs.Catalog.Update
import Mathlib.Data.List.Sort

/-!
# What a schema lists

A schema lists the names of its tables, the tables themselves and how many they are, each for itself.

* `sortOn_eq_insertionSort`, `map_sortOn` : a listing by a key is the sort of the library, and listing things and then
  taking their keys is listing the keys;
* `tableNames_eq_map`, `length_tableNames` : the three listings agree, however the tables are kept;
* `tables_eq_stored`, `mem_tables_put` : the tables are kept as they are listed;
* `table?_eq_some_iff`, `eq_of_table?_eq` : what is listed and what is found.
-/

namespace DdlCatalog

namespace Named

variable {β : Type} {key : β → String} {b : β} {bs : List β}

theorem insertOn_eq_orderedInsert (key : β → String) (b : β) (bs : List β) :
    insertOn key b bs = bs.orderedInsert (fun b c => key b ≤ key c) b := by
  induction bs with
  | nil => rfl
  | cons c bs ih => rw [insertOn, ih, List.orderedInsert_cons]

theorem sortOn_eq_insertionSort (key : β → String) (bs : List β) :
    sortOn key bs = bs.insertionSort fun b c => key b ≤ key c := by
  induction bs with
  | nil => rfl
  | cons b bs ih =>
    rw [List.insertionSort_cons, ← ih, ← insertOn_eq_orderedInsert]
    rfl

theorem length_sortOn (key : β → String) (bs : List β) : (sortOn key bs).length = bs.length := by
  rw [sortOn_eq_insertionSort, List.length_insertionSort]

theorem map_sortOn (key : β → String) (bs : List β) : (sortOn key bs).map key = sortOn id (bs.map key) := by
  rw [sortOn_eq_insertionSort, sortOn_eq_insertionSort]
  exact List.map_insertionSort _ _ key bs fun _ _ _ _ => Iff.rfl

/-- What is in order already is listed as it is. -/
theorem sortOn_of_pairwise (h : (bs.map key).Pairwise (· < ·)) : sortOn key bs = bs := by
  rw [sortOn_eq_insertionSort]
  exact List.Pairwise.insertionSort_eq ((List.pairwise_map.1 h).imp Std.le_of_lt)

end Named

namespace Schema

variable {s s' : Schema} {t t' : Table}

/-! ### The listings agree -/

theorem tableNames_eq_map (s : Schema) : s.tableNames = s.tables.map Table.name :=
  (Named.map_sortOn Table.name s.stored).symm

theorem length_tableNames (s : Schema) : s.tableNames.length = s.tableCount := by
  unfold tableNames tableCount Named.names
  rw [Named.length_sortOn, List.length_map]

/-! ### What is kept, listed and found -/

theorem tables_eq_stored (s : Schema) : s.tables = s.stored :=
  Named.sortOn_of_pairwise s.ordered

theorem pairwise_tableNames (s : Schema) : s.tableNames.Pairwise (· < ·) := by
  rw [tableNames_eq_map, tables_eq_stored]
  exact s.ordered

theorem mem_tables_put (h : t' ∈ (s.put t).tables) : t' = t ∨ t' ∈ s.tables := by
  rw [tables_eq_stored] at h ⊢
  exact Named.mem_of_mem_putInOrder h

/-- A table is found under its own name and under no other. -/
theorem table?_eq_some_iff (s : Schema) (name : String) (t : Table) :
    s.table? name = some t ↔ t ∈ s.tables ∧ t.name = name := by
  rw [tables_eq_stored]
  exact Named.find?_eq_some_iff (Named.nodup_names_of_pairwise s.ordered)

/-- A schema is what can be found in it. -/
theorem eq_of_table?_eq (hname : s.name = s'.name) (h : ∀ name, s.table? name = s'.table? name) : s = s' :=
  Schema.ext hname (Named.eq_of_find?_eq s.ordered s'.ordered h)

end Schema

end DdlCatalog
