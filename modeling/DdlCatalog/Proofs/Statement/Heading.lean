import DdlCatalog.Proofs.Text.Search
import DdlCatalog.Statement.Heading

/-!
# Where a heading is found

* `nameAndList?_eq_some_iff` : what has to follow `CREATE TABLE`;
* `Place`, `place?` — where a heading is found, and `ofCommand_of_place?` : what is left of the statement then;
* `ofCommand_of_blank` : a heading with nothing but blanks before it is the one that is found.
-/

namespace DdlCatalog.Heading

open Text

/-- A name that a heading can have. -/
def IsTableName (name : List Char) : Prop := name ≠ [] ∧ ∀ c ∈ name, isNameChar c = true

instance (name : List Char) : Decidable (IsTableName name) := @instDecidableAnd _ _ _ (List.decidableBAll _ name)

variable {text name list before after : List Char}

theorem solid_of_isTableName (h : IsTableName name) : Solid name := by
  intro c hc
  have := h.2 c hc
  simp only [isNameChar, Bool.and_eq_true, Bool.not_eq_true'] at this
  exact this.1

theorem isNameChar_of_isBlank {c : Char} (h : isBlank c = true) : isNameChar c = false := by
  simp [isNameChar, h]

/-- A name runs to the first blank or parenthesis. -/
theorem span_name {gap : List Char} (h : IsTableName name) (hgap : AllBlank gap) :
    (name ++ (gap ++ '(' :: list)).takeWhile isNameChar = name ∧
      (name ++ (gap ++ '(' :: list)).dropWhile isNameChar = gap ++ '(' :: list := by
  rw [List.takeWhile_append_of_pos h.2, List.dropWhile_append_of_pos h.2]
  cases gap with
  | nil => simp [isNameChar]
  | cons c gap => simp [isNameChar_of_isBlank (allBlank_cons.1 hgap).1]

/-- Behind `CREATE TABLE` stand blanks, a name, perhaps blanks, and a parenthesis. -/
theorem nameAndList?_eq_some_iff :
    nameAndList? text = some (name, list) ↔
      IsTableName name ∧ ∃ gap gap', AllBlank gap ∧ gap ≠ [] ∧ AllBlank gap' ∧
        text = gap ++ name ++ gap' ++ '(' :: list := by
  unfold nameAndList?
  constructor
  · intro h
    split at h
    next hstart =>
      dsimp only at h
      split at h
      next c name' list' hname hlist =>
        cases h
        obtain ⟨gap, hgap, hne, e⟩ := exists_gap_trimStart hstart
        obtain ⟨gap', hgap', e'⟩ := exists_eq_trimStart ((trimStart text).dropWhile isNameChar)
        refine ⟨⟨by simp, fun d hd => ?_⟩, gap, gap', hgap, hne, hgap', ?_⟩
        · rw [← hname] at hd
          exact List.all_eq_true.1 List.all_takeWhile d hd
        · rw [← hname, ← hlist, List.append_assoc, ← e', List.append_assoc, List.takeWhile_append_dropWhile, ← e]
      · cases h
    · cases h
  · rintro ⟨hname, gap, gap', hgap, hne, hgap', rfl⟩
    have hsolid := solid_of_isTableName hname
    have htrim : trimStart (gap ++ name ++ gap' ++ '(' :: list) = name ++ (gap' ++ '(' :: list) := by
      rw [List.append_assoc, List.append_assoc, trimStart_append_of_blank hgap, trimStart_eq_self]
      rw [startsBlank_append hname.1, startsBlank_of_solid hsolid]
    have hlist : trimStart (gap' ++ '(' :: list) = '(' :: list := by
      rw [trimStart_append_of_blank hgap', trimStart_eq_self rfl]
    obtain ⟨c, name, rfl⟩ := List.exists_cons_of_ne_nil hname.1
    have hstart : startsBlank (gap ++ c :: name ++ gap' ++ '(' :: list) = true := by
      rw [List.append_assoc, List.append_assoc]
      exact startsBlank_gap_append hgap hne
    rw [if_pos hstart, htrim]
    dsimp only
    rw [(span_name hname hgap').1, (span_name hname hgap').2, hlist]
    rfl

theorem find?_eq (command : List Char) :
    find? command = searchLeft "CREATE TABLE".toList (fun before after =>
      (nameAndList? after).map fun found => (found.1, before ++ found.2)) command := rfl

/-! ### The place of a heading -/

/-- A heading that is found, between the texts before and after it. -/
structure Place where
  before : List Char
  name : List Char
  list : List Char
  deriving DecidableEq

/-- The heading that a statement has. -/
def place? (command : List Char) : Option Place :=
  searchLeft "CREATE TABLE".toList (fun before after =>
    (nameAndList? after).map fun found => { before, name := found.1, list := found.2 }) command

variable {p : Place} {command : String}

theorem find?_eq_map_place? (command : List Char) :
    find? command = (place? command).map fun p => (p.name, p.before ++ p.list) := by
  unfold place?
  rw [← searchLeft_map, find?_eq]
  congr 1
  funext before after
  rw [Option.map_map]
  rfl

theorem ofCommand_of_place? (hp : place? command.toList = some p) :
    ofCommand command = .ok { table := String.ofList p.name, rest := String.ofList (p.before ++ p.list) } := by
  unfold ofCommand
  rw [find?_eq_map_place?, hp]
  rfl

theorem ofCommand_of_place?_eq_none (hp : place? command.toList = none) :
    ofCommand command = .error (.unreadable command) := by
  unfold ofCommand
  rw [find?_eq_map_place?, hp]
  rfl

theorem exists_of_place? (h : place? text = some p) :
    ∃ after, text = p.before ++ "CREATE TABLE".toList ++ after ∧ nameAndList? after = some (p.name, p.list) := by
  obtain ⟨before, after, e, hsome, -⟩ := (searchLeft_eq_some_iff (by decide)).1 h
  obtain ⟨found, hfound, rfl⟩ := Option.map_eq_some_iff.1 hsome
  exact ⟨after, e, hfound⟩

/-- The heading behind blanks. -/
theorem ofCommand_of_blank (hb : AllBlank before) (h : nameAndList? after = some (name, list)) :
    ofCommand (String.ofList (before ++ "CREATE TABLE".toList ++ after)) =
      .ok { table := String.ofList name, rest := String.ofList (before ++ list) } := by
  have hfind : find? (before ++ "CREATE TABLE".toList ++ after) = some (name, before ++ list) := by
    rw [find?_eq]
    refine searchLeft_of_avoids (by decide) (avoids_of_allBlank (by decide) (by decide) hb) ?_
    rw [h]
    rfl
  rw [ofCommand, String.toList_ofList, hfind]

/-- A heading that is found has a proper name. -/
theorem isTableName_of_ofCommand {heading : Heading} (h : ofCommand command = .ok heading) :
    IsTableName heading.table.toList := by
  cases hp : place? command.toList with
  | none =>
    rw [ofCommand_of_place?_eq_none hp] at h
    cases h
  | some p =>
    rw [ofCommand_of_place? hp] at h
    cases h
    obtain ⟨after, -, hafter⟩ := exists_of_place? hp
    rw [String.toList_ofList]
    exact (nameAndList?_eq_some_iff.1 hafter).1

end DdlCatalog.Heading
