/-!
# Collections of named things

A collection is a list in which a name stands for at most one thing. Looking a name up never fails:
a name that stands for nothing gives a fresh thing. Putting a thing back replaces the one of its
name in place, or adds it, at the end (`put`) or where the order of names wants it (`putInOrder`).
A listing by a key (`sortOn`) does not rely on the order in which things are kept.
-/

namespace DdlCatalog

/-- Things that carry a name and that can be made from a name alone. -/
class Named (α : Type) where
  /-- The name of a thing. -/
  name : α → String
  /-- The thing a name stands for before anything is known about it. -/
  fresh : String → α
  name_fresh : ∀ n, name (fresh n) = n

namespace Named

attribute [simp] name_fresh

variable {α : Type} [Named α]

/-- The thing of a given name, if there is one. -/
def find? (n : String) (things : List α) : Option α :=
  things.find? fun a => name a == n

/-- The thing of a given name, a fresh one if there is none. -/
def get (n : String) (things : List α) : α :=
  (find? n things).getD (fresh n)

/-- The collection with `a` in the place of the thing of its name, or at the end. -/
def put (a : α) : List α → List α
  | [] => [a]
  | b :: things => if name b = name a then a :: things else b :: put a things

/-- The collection with `a` in the place of the thing of its name, or before the first greater
name. -/
def putInOrder (a : α) : List α → List α
  | [] => [a]
  | b :: things =>
    if name b = name a then a :: things
    else if name a < name b then a :: b :: things
    else b :: putInOrder a things

def names (things : List α) : List String :=
  things.map name

/-- `a` before the first member of a list whose key is not less than its own. -/
def insertOn {β : Type} (key : β → String) (a : β) : List β → List β
  | [] => [a]
  | b :: bs => if key a ≤ key b then a :: b :: bs else b :: insertOn key a bs

/-- A list in increasing order of a key, members of one key in the order in which they stand. -/
def sortOn {β : Type} (key : β → String) (bs : List β) : List β :=
  bs.foldr (insertOn key) []

/-! ### What a collection holds after a change -/

theorem name_of_find? {n : String} {things : List α} {a : α} (h : find? n things = some a) :
    name a = n := by
  simpa using List.find?_some h

theorem name_get (n : String) (things : List α) : name (get n things) = n := by
  unfold get
  cases h : find? n things with
  | none => simp
  | some a => simpa using name_of_find? h

theorem find?_put (a : α) (n : String) (things : List α) :
    find? n (put a things) = if name a = n then some a else find? n things := by
  induction things with
  | nil => by_cases h : name a = n <;> simp [put, find?, h]
  | cons b things ih =>
    unfold find? at ih ⊢
    unfold put
    by_cases hb : name b = name a <;> by_cases ha : name a = n <;> simp_all [List.find?_cons]

theorem get_put (a : α) (things : List α) : get (name a) (put a things) = a := by
  simp [get, find?_put]

theorem names_put (a : α) (things : List α) :
    names (put a things) =
      if name a ∈ names things then names things else names things ++ [name a] := by
  induction things with
  | nil => simp [put, names]
  | cons b things ih =>
    unfold names at ih ⊢
    unfold put
    by_cases hb : name b = name a
    · simp [hb]
    · have hb' : ¬ name a = name b := fun h => hb h.symm
      simp only [hb, if_false, List.map_cons, ih, List.mem_cons, hb', false_or]
      split <;> simp_all

theorem find?_putInOrder (a : α) (n : String) (things : List α) :
    find? n (putInOrder a things) = if name a = n then some a else find? n things := by
  induction things with
  | nil => by_cases h : name a = n <;> simp [putInOrder, find?, h]
  | cons b things ih =>
    unfold find? at ih ⊢
    unfold putInOrder
    split
    next hb => by_cases ha : name a = n <;> simp [hb, ha]
    next hb =>
      split
      next => by_cases ha : name a = n <;> simp [ha, List.find?_cons]
      next =>
        rw [List.find?_cons, List.find?_cons, ih]
        by_cases ha : name a = n
        · have hb' : (name b == n) = false := beq_eq_false_iff_ne.2 (ha ▸ hb)
          simp [ha, hb']
        · simp [ha]

theorem mem_names_putInOrder {a : α} {n : String} {things : List α}
    (h : n ∈ names (putInOrder a things)) : n = name a ∨ n ∈ names things := by
  induction things with
  | nil => simpa [putInOrder, names] using h
  | cons b things ih =>
    unfold names at ih h ⊢
    unfold putInOrder at h
    grind

/-- A collection in increasing order of names stays so. -/
theorem pairwise_putInOrder (a : α) {things : List α} (h : (names things).Pairwise (· < ·)) :
    (names (putInOrder a things)).Pairwise (· < ·) := by
  induction things with
  | nil => simp [putInOrder, names]
  | cons b things ih =>
    obtain ⟨hb, hs⟩ := List.pairwise_cons.1 h
    unfold putInOrder
    split
    next he => exact List.pairwise_cons.2 ⟨he ▸ hb, hs⟩
    next hne =>
      split
      next hlt =>
        refine List.pairwise_cons.2 ⟨fun n hn => ?_, h⟩
        rcases List.mem_cons.1 hn with rfl | hn
        · exact hlt
        · exact String.lt_trans hlt (hb n hn)
      next hlt =>
        refine List.pairwise_cons.2 ⟨fun n hn => ?_, ih hs⟩
        rcases mem_names_putInOrder hn with rfl | hn
        · exact String.not_le.1 fun hle => hne (String.le_antisymm (String.not_lt.1 hlt) hle)
        · exact hb n hn

end Named

end DdlCatalog
