import DdlCatalog.Proofs.Catalog.Define
import DdlCatalog.Proofs.Catalog.Definition
import DdlCatalog.Proofs.Catalog.Named
import DdlCatalog.Proofs.Text.Slice

/-!
# The catalog by numbers

A thing of a collection is reached by its number in the list, and a definition is cut at a number of bytes.

* `Named.number` — the number of a name, and `exists_number` : there is a thing of that number, and to replace it is to
  put a thing into the collection;
* `Definition.byOffsets?_eq` : a definition is cut between characters, and read as before;
* `Table.defineColumnByNumber_eq`, `Table.defineConstraintByNumber_eq` : so are columns and constraints.
-/

namespace DdlCatalog

open Text

/-! ### Numbers of things -/

namespace Named

variable {α : Type} [Named α]

/-- The number of the thing of a given name in a collection that has one: the given one, or the given one with a fresh
thing at its end. -/
def number (n : String) (things : List α) : Checked (Nat × List α) :=
  match things.findIdx? fun a => name a == n with
  | some i => .ok (i, things)
  | none => do
    let things := things ++ [fresh n]
    let i ← difference things.length 1
    return (i, things)

variable {n : String} {things before : List α} {b : α}

/-- What stands behind things of other names is found, and replaced. -/
theorem find?_and_put_of_before (after : List α) (hbefore : ∀ x ∈ before, name x ≠ n) (hb : name b = n) :
    find? n (before ++ b :: after) = some b ∧
      ∀ a, name a = n → put a (before ++ b :: after) = before ++ a :: after := by
  induction before with
  | nil => exact ⟨by simp [find?, hb], fun a ha => by rw [List.nil_append, put, if_pos (hb.trans ha.symm)]; rfl⟩
  | cons x before ih =>
    obtain ⟨hx, hbefore⟩ := List.forall_mem_cons.1 hbefore
    obtain ⟨hfind, hput⟩ := ih hbefore
    refine ⟨?_, fun a ha => ?_⟩
    · rw [find?] at hfind ⊢
      simpa [hx] using hfind
    · rw [List.cons_append, put, if_neg (ha ▸ hx), hput a ha]
      rfl

/-- A name with a number is that of the thing there, and no thing before it has that name. -/
theorem exists_of_findIdx? {i : Nat} (h : (things.findIdx? fun a => name a == n) = some i) :
    ∃ before b after, things = before ++ b :: after ∧ before.length = i ∧ name b = n ∧ ∀ x ∈ before, name x ≠ n := by
  obtain ⟨hi, hname, hbefore⟩ := List.findIdx?_eq_some_iff_getElem.1 h
  refine ⟨things.take i, things[i], things.drop (i + 1), ?_, ?_, eq_of_beq hname, fun x hx => ?_⟩
  · rw [List.cons_getElem_drop_succ, List.take_append_drop]
  · exact List.length_take_of_le hi.le
  · obtain ⟨j, hj, rfl⟩ := List.mem_take_iff_getElem.1 hx
    simpa using hbefore j (by omega)

theorem get_and_put_of_notMem (h : ∀ x ∈ things, name x ≠ n) :
    get n things = fresh n ∧ ∀ a, name a = n → put a things = things ++ [a] := by
  refine ⟨?_, fun a ha => put_of_notMem fun hmem => ?_⟩
  · have hnone : find? n things = none := by simpa [find?] using h
    rw [get, hnone, Option.getD_none]
  · obtain ⟨x, hx, hname⟩ := List.mem_map.1 hmem
    exact h x hx (hname.trans ha)

/-- **The number of a name is that of a thing**, and a thing put in its place is put into the collection. -/
theorem exists_number (n : String) (things : List α) :
    ∃ i things', number n things = .ok (i, things') ∧ things' = put (get n things) things ∧
      element i things' = .ok (get n things) ∧ ∀ a, name a = n → things'.set i a = put a things := by
  unfold number
  cases hfind : things.findIdx? fun a => name a == n with
  | some i =>
    obtain ⟨before, b, after, rfl, rfl, hb, hother⟩ := exists_of_findIdx? hfind
    obtain ⟨hfound, hput⟩ := find?_and_put_of_before after hother hb
    have hget : get n (before ++ b :: after) = b := by rw [get, hfound, Option.getD_some]
    refine ⟨before.length, before ++ b :: after, rfl, ?_, ?_, fun a ha => ?_⟩
    · rw [hget, hput b hb]
    · simp [element, hget]
    · simp [hput a ha]
  | none =>
    have hother : ∀ x ∈ things, name x ≠ n := by simpa using hfind
    obtain ⟨hget, hput⟩ := get_and_put_of_notMem hother
    have hlast : difference (things ++ [fresh n]).length 1 = .ok things.length := by
      simp [difference]
    refine ⟨things.length, things ++ [fresh n], ?_, ?_, ?_, fun a ha => ?_⟩
    · dsimp only
      rw [hlast]
      rfl
    · rw [hget, hput _ (name_fresh n)]
    · simp [element, hget]
    · simp [hput a ha]

end Named

/-! ### Definitions -/

namespace Definition

/-- The texts around the `DEFAULT` at a place, if they are a type and an expression. -/
def typeAndValueAt? (text : List Char) (place : Nat) : Checked (Option (List Char × List Char)) := do
  let before ← sliceTo place text
  let after ← sliceFrom (place + byteLength "DEFAULT".toList) text
  return typeAndValue? before after

/-- The definition that a text is, with the places of `DEFAULT` as numbers of bytes. -/
def byOffsets? (text : List Char) : Checked (Option Definition) := do
  let (nullable, remainder) := nullability (trim text)
  let split? ← firstAnswer (typeAndValueAt? remainder) (places "DEFAULT".toList remainder).reverse
  let (dataType, default) := match split? with
    | some (dataType, value) => (dataType, some value)
    | none => (remainder, none)
  if dataType.isEmpty || startsWithKeyword dataType then return none
  else return some { dataType, default, nullable }

theorem typeAndValueAt?_append {text before after : List Char} (h : text = before ++ "DEFAULT".toList ++ after) :
    typeAndValueAt? text (byteLength before) = .ok (typeAndValue? before after) := by
  have hbefore : sliceTo (byteLength before) text = .ok before := by
    rw [h, List.append_assoc, sliceTo_append]
  have hafter : sliceFrom (byteLength before + byteLength "DEFAULT".toList) text = .ok after := by
    rw [h, ← byteLength_append, sliceFrom_append]
  rw [typeAndValueAt?, hbefore, Checked.ok_bind, hafter, Checked.ok_bind]
  rfl

theorem byOffsets?_eq (text : List Char) : byOffsets? text = .ok (ofText? text) := by
  have hsplit (text : List Char) :
      firstAnswer (typeAndValueAt? text) (places "DEFAULT".toList text).reverse = .ok (splitDefault? text) :=
    firstAnswer_places_reverse (by decide) fun _ _ => typeAndValueAt?_append
  unfold byOffsets? ofText?
  dsimp only
  rw [hsplit, Checked.ok_bind]
  cases splitDefault? (nullability (trim text)).2 <;> (dsimp only; split <;> rfl)

end Definition

/-! ### Tables -/

namespace Table

/-- Defines the column of a given name, which is reached by its number. -/
def defineColumnByNumber (t : Table) (name definition : String) : Checked (Table × Except CatalogError Column) := do
  let (i, columns) ← Named.number name t.columns
  let c ← element i columns
  match ← Definition.byOffsets? definition.toList with
  | some d => return ({ t with columns := columns.set i (d.column c.name) }, .ok (d.column c.name))
  | none => return ({ t with columns }, .error (.invalidDefinition c.name definition))

/-- Defines the constraint of a given name, which is reached by its number. -/
def defineConstraintByNumber (t : Table) (name definition : String) : Checked Table := do
  let (i, constraints) ← Named.number name t.constraints
  let c ← element i constraints
  return { t with constraints := constraints.set i (c.define definition) }

theorem defineColumnByNumber_eq (t : Table) (name definition : String) :
    t.defineColumnByNumber name definition = .ok (t.defineColumn name definition) := by
  obtain ⟨i, columns, hnumber, hcolumns, helement, hset⟩ := Named.exists_number name t.columns
  have hname : (Named.get name t.columns).name = name := name_column t name
  simp only [defineColumnByNumber, hnumber, helement, Definition.byOffsets?_eq, Checked.ok_bind, hname]
  cases hread : Definition.ofText? definition.toList with
  | some d =>
    dsimp only
    rw [defineColumn_of_some hread, hset (d.column name) rfl]
    rfl
  | none =>
    rw [defineColumn_of_none hread, hcolumns]
    rfl

theorem defineConstraintByNumber_eq (t : Table) (name definition : String) :
    t.defineConstraintByNumber name definition = .ok (t.defineConstraint name definition) := by
  obtain ⟨i, constraints, hnumber, -, helement, hset⟩ := Named.exists_number name t.constraints
  have hname : (Named.get name t.constraints).name = name := name_constraint t name
  have hput := hset ((Named.get name t.constraints).define definition) hname
  simp only [defineConstraintByNumber, hnumber, helement, Checked.ok_bind, hput]
  rfl

end Table

end DdlCatalog
