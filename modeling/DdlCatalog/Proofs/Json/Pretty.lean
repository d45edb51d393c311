import DdlCatalog.Proofs.Json.Standard

/-!
# The text of a JSON value denotes the value

* `value` — a value of the printer as a value of the standard;
* `spells_quote`, `spells_render` : a text and a value are spelled by what is printed for them;
* `denotes_pretty_iff` : the printed text denotes the value and nothing else.
-/

namespace DdlCatalog.Json

open Standard

mutual

/-- A value as the standard knows it. -/
def value : Json → Value
  | .null => .null
  | .bool value => .bool value
  | .string value => .string value
  | .array items => .array (values items)
  | .object fields => .object (namedValues fields)

def values : List Json → List Value
  | [] => []
  | item :: items => value item :: values items

def namedValues : List (String × Json) → List (String × Value)
  | [] => []
  | (key, item) :: fields => (key, value item) :: namedValues fields

end

theorem values_eq_map (items : List Json) : values items = items.map value := by
  induction items with
  | nil => rfl
  | cons item items ih =>
    unfold values
    rw [ih]
    rfl

/-! ### Strings -/

theorem codeUnit?_of_control : ∀ n < 0x20, codeUnit? '0' '0' (hexDigit (n / 16)) (hexDigit (n % 16)) = some n := by
  decide

theorem spellsChar_escape (c : Char) : SpellsChar (escape c) c := by
  unfold escape
  split_ifs with hmark hescape hn hr ht hb hf hcontrol
  · rw [hmark]
    exact .short rfl
  · rw [hescape]
    exact .short rfl
  · rw [hn]
    exact .short rfl
  · rw [hr]
    exact .short rfl
  · rw [ht]
    exact .short rfl
  · rw [hb]
    exact .short rfl
  · rw [hf]
    exact .short rfl
  · exact .unit (codeUnit?_of_control _ hcontrol)
  · exact .plain (Nat.not_lt.1 hcontrol) hmark hescape

theorem spellsText_escape (content : List Char) : SpellsText (content.flatMap escape) content := by
  induction content with
  | nil => exact .nil
  | cons c content ih => exact .cons (spellsChar_escape c) ih

theorem toList_quote (text : String) : (quote text).toList = '"' :: (text.toList.flatMap escape ++ ['"']) := by
  simp [quote]

theorem spellsKey_quote (key : String) : SpellsKey (some key) (quote key ++ ": ").toList := by
  have hspace : Spaces [' '] := by simp [Spaces, isSpace]
  simpa [toList_quote] using SpellsKey.some (spellsText_escape key.toList) spaces_nil hspace

theorem spells_quote (text : String) : Spells (.value (.string text)) (quote text).toList := by
  rw [toList_quote]
  simpa using Spells.string (spellsText_escape text.toList)

/-! ### Values -/

theorem spaces_newline (level : Nat) : Spaces (newline level).toList := by
  simp [newline, Spaces, isSpace]

mutual

theorem spells_render (level : Nat) : (item : Json) → Spells (.value item.value) (item.render level).toList
  | .null => by
    unfold value render
    exact .null
  | .bool true => by
    unfold value render
    exact .true
  | .bool false => by
    unfold value render
    exact .false
  | .string text => by
    unfold value render
    exact spells_quote text
  | .array [] => by
    unfold value render
    exact @Spells.array [] [] (.noParts spaces_nil)
  | .array (item :: items) => by
    have hs := spells_renderItems (level + 1) (spaces_newline level) (spells_render (level + 1) item) items
    unfold value render
    simpa [values] using Spells.array hs
  | .object [] => by
    unfold value render
    exact @Spells.object [] [] (.noParts spaces_nil)
  | .object ((key, item) :: fields) => by
    have hs := spells_renderFields (level + 1) (spaces_newline level) key (spells_render (level + 1) item) fields
    unfold value render
    simpa [namedValues] using Spells.object hs

/-- The first item may be any value, the others follow it in the manner of the printer. -/
theorem spells_renderItems (level : Nat) {w t : List Char} {first : Value} (hw : Spaces w)
    (h : Spells (.value first) t) : (items : List Json) →
      Spells (.parts ((first :: values items).map (none, ·)))
        ((newline level).toList ++ ([] ++ (t ++ ((renderItems level items).toList ++ w))))
  | [] => by
    unfold values renderItems
    exact .lastPart (spaces_newline level) .none h hw
  | item :: items => by
    have hs := spells_renderItems level hw (spells_render level item) items
    unfold values renderItems
    simpa using Spells.moreParts (spaces_newline level) .none h spaces_nil hs

theorem spells_renderFields (level : Nat) {w t : List Char} {first : Value} (hw : Spaces w) (key : String)
    (h : Spells (.value first) t) : (fields : List (String × Json)) →
      Spells (.parts (((key, first) :: namedValues fields).map fun field => (some field.1, field.2)))
        ((newline level).toList ++ ((quote key ++ ": ").toList ++ (t ++ ((renderFields level fields).toList ++ w))))
  | [] => by
    unfold namedValues renderFields
    exact .lastPart (spaces_newline level) (spellsKey_quote key) h hw
  | (next, item) :: fields => by
    have hs := spells_renderFields level hw next (spells_render level item) fields
    unfold namedValues renderFields
    simpa using Spells.moreParts (spaces_newline level) (spellsKey_quote key) h spaces_nil hs

end

/-- **The printed text denotes the value and nothing else.** -/
theorem denotes_pretty_iff (item : Json) (denoted : Value) :
    Denotes item.pretty.toList denoted ↔ denoted = item.value := by
  have h : Denotes item.pretty.toList item.value :=
    ⟨[], item.pretty.toList, [], spaces_nil, spells_render 0 item, spaces_nil, by simp⟩
  constructor
  · intro h'
    exact h'.unique h
  · rintro rfl
    exact h

end DdlCatalog.Json
