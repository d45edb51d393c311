/-!
# Byte offsets

A place in a text is given by the number of bytes before it when the text is written in UTF-8. Not
every number is a place: it may lie inside a character, or past the end.
-/

namespace DdlCatalog.Text

def byteLength : List Char → Nat
  | [] => 0
  | c :: text => c.utf8Size + byteLength text

/-- The text after its first `offset` bytes, if a character ends there. -/
def dropBytes? : Nat → List Char → Option (List Char)
  | 0, text => some text
  | _ + 1, [] => none
  | offset + 1, c :: text =>
    if c.utf8Size ≤ offset + 1 then dropBytes? (offset + 1 - c.utf8Size) text else none

@[simp] theorem byteLength_nil : byteLength [] = 0 := rfl

@[simp] theorem byteLength_cons (c : Char) (text : List Char) :
    byteLength (c :: text) = c.utf8Size + byteLength text := rfl

@[simp] theorem byteLength_append (a b : List Char) :
    byteLength (a ++ b) = byteLength a + byteLength b := by
  induction a with
  | nil => simp
  | cons c a ih => simp [ih, Nat.add_assoc]

/-- The places of a text are the lengths of its beginnings. -/
theorem dropBytes?_eq_some {offset : Nat} {text rest : List Char} :
    dropBytes? offset text = some rest ↔
      ∃ before, text = before ++ rest ∧ byteLength before = offset := by
  induction text generalizing offset with
  | nil =>
    cases offset with
    | zero =>
      simp only [dropBytes?, Option.some.injEq, List.nil_eq_append_iff]
      exact ⟨fun h => ⟨[], ⟨rfl, h.symm⟩, rfl⟩, fun ⟨_, ⟨_, h⟩, _⟩ => h.symm⟩
    | succ n =>
      simp only [dropBytes?, reduceCtorEq, false_iff, not_exists, not_and]
      intro before h
      have : before = [] := by simp_all
      simp [this]
  | cons c text ih =>
    have hc : 0 < c.utf8Size := Char.utf8Size_pos c
    cases offset with
    | zero =>
      simp only [dropBytes?, Option.some.injEq]
      constructor
      · rintro rfl
        exact ⟨[], rfl, rfl⟩
      · rintro ⟨before, h, hl⟩
        cases before with
        | nil => simpa using h
        | cons d before =>
          have := Char.utf8Size_pos d
          simp at hl
          omega
    | succ n =>
      simp only [dropBytes?]
      split
      next hle =>
        rw [ih]
        constructor
        · rintro ⟨before, rfl, hl⟩
          exact ⟨c :: before, rfl, by simp [hl]; omega⟩
        · rintro ⟨before, h, hl⟩
          cases before with
          | nil => simp at hl
          | cons d before =>
            obtain ⟨rfl, rfl⟩ := List.cons.inj h
            exact ⟨before, rfl, by simp at hl; omega⟩
      next hlt =>
        simp only [reduceCtorEq, false_iff, not_exists, not_and]
        intro before h
        cases before with
        | nil => simp
        | cons d before =>
          obtain ⟨rfl, rfl⟩ := List.cons.inj h
          simp
          omega

end DdlCatalog.Text
