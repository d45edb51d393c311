import DdlCatalog.Proofs.Catalog.Offsets
import DdlCatalog.Proofs.Statement.ColumnList
import DdlCatalog.Proofs.Statement.Heading
import DdlCatalog.Proofs.Statement.Scan
import DdlCatalog.Statement.Options

/-!
# Pieces of a statement by byte offsets

The parts of a statement are cut out of it with places that are sums and differences of lengths.

* `Heading.byOffsets?_eq` : so is the heading, from the blanks before the name to the parenthesis behind it;
* `Clause.ofTextByOffsets_eq`, `Table.applyClauseByNumbers_eq` : a clause is split at a blank, and carried out;
* `Table.applyOptionsByOffsets_eq` : an option is cut out of the text together with its list of parents.

Each of them is what it is for a reader that cuts lists of characters, so that no cut goes wrong.
-/

namespace DdlCatalog

open Sql Text

/-! ### The heading -/

namespace Heading

/-- The name that a text starts with, and the number of bytes up to the text behind the parenthesis after it. -/
def nameFrom? (text : List Char) : Checked (Option (List Char × Nat)) := do
  match offset? (fun c => !isNameChar c) text with
  | none => return none
  | some length =>
    if length = 0 then return none
    else
      let afterName ← sliceFrom length text
      let gap ← difference (byteLength afterName) (byteLength (trimStart afterName))
      let list ← sliceFrom gap afterName
      if list.head? = some '(' then
        let name ← sliceTo length text
        return some (name, length + gap + 1)
      else return none

/-- The name between blanks and a parenthesis, and the number of bytes up to the text behind that parenthesis. -/
def nameAndLength? (text : List Char) : Checked (Option (List Char × Nat)) := do
  let start ← difference (byteLength text) (byteLength (trimStart text))
  if start = 0 then return none
  else
    let fromName ← sliceFrom start text
    match ← nameFrom? fromName with
    | none => return none
    | some (name, length) => return some (name, start + length)

/-- The name in the heading at a place, and the statement without that heading. -/
def headingAt? (command : List Char) (place : Nat) : Checked (Option (List Char × List Char)) := do
  let behind := place + byteLength "CREATE TABLE".toList
  let after ← sliceFrom behind command
  match ← nameAndLength? after with
  | none => return none
  | some (name, length) =>
    let before ← sliceTo place command
    let list ← sliceFrom (behind + length) command
    return some (trim name, before ++ list)

/-- The name in the first heading, and the statement without it. -/
def byOffsets? (command : List Char) : Checked (Option (List Char × List Char)) :=
  firstAnswer (headingAt? command) (places "CREATE TABLE".toList command)

variable {text name list before after : List Char}

/-- What `nameAndList?` makes of the text behind the blanks. -/
def nameAndListBehind? (text : List Char) : Option (List Char × List Char) :=
  match text.takeWhile isNameChar, trimStart (text.dropWhile isNameChar) with
  | c :: name, '(' :: list => some (c :: name, list)
  | _, _ => none

theorem nameAndList?_eq (text : List Char) :
    nameAndList? text = if startsBlank text then nameAndListBehind? (trimStart text) else none := rfl

theorem exists_of_nameAndListBehind? (h : nameAndListBehind? text = some (name, list)) : ∃ pre, text = pre ++ list := by
  unfold nameAndListBehind? at h
  split at h
  next c name' list' hname hlist =>
    cases h
    obtain ⟨gap, -, hrest⟩ := exists_eq_trimStart (text.dropWhile isNameChar)
    refine ⟨c :: name' ++ gap ++ ['('], ?_⟩
    rw [← List.takeWhile_append_dropWhile (p := isNameChar) (l := text), hname, hrest, hlist]
    simp
  · cases h

theorem nameFrom?_eq (text : List Char) :
    nameFrom? text =
      .ok ((nameAndListBehind? text).map fun found => (found.1, byteLength text - byteLength found.2)) := by
  have htext := List.takeWhile_append_dropWhile (p := isNameChar) (l := text)
  rw [nameFrom?, offset?_eq, nameAndListBehind?]
  simp only [Bool.not_not]
  generalize text.takeWhile isNameChar = name at htext ⊢
  generalize text.dropWhile isNameChar = rest at htext ⊢
  by_cases hrest : rest = []
  · rw [if_pos hrest, hrest]
    cases name <;> rfl
  rw [if_neg hrest]
  dsimp only
  cases name with
  | nil => rfl
  | cons c name =>
    obtain ⟨gap, -, hgap, hdown⟩ := exists_blanks_before rest
    have hafter : sliceFrom (byteLength (c :: name)) text = .ok rest := sliceFrom_eq_ok_iff.2 ⟨_, htext.symm, rfl⟩
    have hlist : sliceFrom (byteLength gap) rest = .ok (trimStart rest) := sliceFrom_eq_ok_iff.2 ⟨gap, hgap, rfl⟩
    rw [if_neg (byteLength_eq_zero_iff.not.2 (List.cons_ne_nil c name)), hafter, Checked.ok_bind, hdown,
      Checked.ok_bind, hlist, Checked.ok_bind]
    by_cases hopen : (trimStart rest).head? = some '('
    · obtain ⟨list, hlist⟩ := List.head?_eq_some_iff.1 hopen
      have hname : sliceTo (byteLength (c :: name)) text = .ok (c :: name) :=
        sliceTo_eq_ok_iff.2 ⟨rest, htext.symm, rfl⟩
      have hlength : byteLength text - byteLength list = byteLength (c :: name) + byteLength gap + 1 := by
        have hone : byteLength ('(' :: list) = 1 + byteLength list := rfl
        rw [← htext, hgap, hlist]
        simp only [byteLength_append, hone]
        omega
      rw [if_pos hopen, hname, Checked.ok_bind, hlist, ← hlength]
      rfl
    · rw [if_neg hopen]
      split
      next hlist => exact absurd (by rw [hlist]; rfl) hopen
      next => rfl

theorem nameAndLength?_eq (text : List Char) :
    nameAndLength? text =
      .ok ((nameAndList? text).map fun found => (found.1, byteLength text - byteLength found.2)) := by
  obtain ⟨gap, hgap, htext, hstart⟩ := exists_blanks_before text
  rw [nameAndLength?, hstart, Checked.ok_bind, nameAndList?_eq]
  by_cases hne : gap = []
  · have hblank : startsBlank text = false := by
      rw [htext, hne, List.nil_append, startsBlank_trimStart]
    rw [if_pos (by rw [hne]; rfl), hblank]
    rfl
  · have hblank : startsBlank text = true := by
      rw [htext]
      exact startsBlank_gap_append hgap hne
    have hfrom : sliceFrom (byteLength gap) text = .ok (trimStart text) := sliceFrom_eq_ok_iff.2 ⟨gap, htext, rfl⟩
    have hlength : byteLength text = byteLength gap + byteLength (trimStart text) := by
      conv_lhs => rw [htext, byteLength_append]
    rw [if_neg (byteLength_eq_zero_iff.not.2 hne), hfrom, Checked.ok_bind, if_pos hblank, nameFrom?_eq, Checked.ok_bind]
    cases hfound : nameAndListBehind? (trimStart text) with
    | none => rfl
    | some found =>
      obtain ⟨name, list⟩ := found
      obtain ⟨pre, e⟩ := exists_of_nameAndListBehind? hfound
      have hsum : byteLength gap + (byteLength (trimStart text) - byteLength list) =
          byteLength text - byteLength list := by
        rw [hlength, e, byteLength_append, Nat.add_sub_cancel, ← Nat.add_assoc, Nat.add_sub_cancel]
      rw [Option.map_some, Option.map_some, ← hsum]
      rfl

theorem headingAt?_append {command : List Char} (h : command = before ++ "CREATE TABLE".toList ++ after) :
    headingAt? command (byteLength before) =
      .ok ((nameAndList? after).map fun found => (found.1, before ++ found.2)) := by
  have hafter : sliceFrom (byteLength before + byteLength "CREATE TABLE".toList) command = .ok after :=
    sliceFrom_eq_ok_iff.2 ⟨_, h, byteLength_append _ _⟩
  rw [headingAt?, hafter, Checked.ok_bind, nameAndLength?_eq, Checked.ok_bind]
  cases hfound : nameAndList? after with
  | none => rfl
  | some found =>
    obtain ⟨name, list⟩ := found
    obtain ⟨hname, gap, gap', -, -, -, e⟩ := nameAndList?_eq_some_iff.1 hfound
    have hbefore : sliceTo (byteLength before) command = .ok before :=
      sliceTo_eq_ok_iff.2 ⟨"CREATE TABLE".toList ++ after, by rw [h, List.append_assoc], rfl⟩
    obtain ⟨pre, rfl⟩ : ∃ pre, after = pre ++ list := ⟨gap ++ name ++ gap' ++ ['('], by simp [e]⟩
    have hlist : sliceFrom (byteLength before + byteLength "CREATE TABLE".toList + byteLength pre) command =
        .ok list := by
      refine sliceFrom_eq_ok_iff.2 ⟨before ++ "CREATE TABLE".toList ++ pre, ?_, ?_⟩
      · rw [h, List.append_assoc _ pre]
      · rw [byteLength_append, byteLength_append]
    rw [Option.map_some, byteLength_append pre, Nat.add_sub_cancel]
    dsimp only
    rw [hbefore, Checked.ok_bind, hlist, Checked.ok_bind, trim_eq_self (trimmed_of_solid (solid_of_isTableName hname))]
    rfl

theorem byOffsets?_eq (command : List Char) : byOffsets? command = .ok (find? command) := by
  rw [find?_eq]
  exact firstAnswer_places (by decide) fun _ _ => headingAt?_append

end Heading

/-! ### Clauses -/

namespace Clause

/-- The first word of a text and the text after it, trimmed; none if no blank ends the word. -/
def splitName? (text : List Char) : Checked (Option (List Char × List Char)) :=
  match offset? isBlank text with
  | none => .ok none
  | some length => do
    let name ← sliceTo length text
    let definition ← sliceFrom length text
    return some (name, trim definition)

/-- The clause that a text is. -/
def ofTextByOffsets (text : List Char) : Checked (Except ParseError Clause) :=
  let text := trim text
  let unreadable := ParseError.unreadable (String.ofList text)
  if text.isEmpty then .ok (.ok .empty)
  else
    match afterConstraint? text with
    | some rest => do
      match ← splitName? rest with
      | some (name, definition) => return .ok (.constraint (String.ofList name) (String.ofList definition))
      | none => return .error unreadable
    | none => do
      match ← splitName? text with
      | some (name, definition) => return .ok (.column (String.ofList name) (String.ofList definition))
      | none => return .error unreadable

theorem splitName?_eq (text : List Char) : splitName? text = .ok (nameAndDefinition? text) := by
  have htext := List.takeWhile_append_dropWhile (p := fun c => !isBlank c) (l := text)
  rw [splitName?, offset?_eq, nameAndDefinition?]
  cases hrest : text.dropWhile fun c => !isBlank c with
  | nil => rfl
  | cons c rest =>
    rw [hrest] at htext
    have hname : sliceTo (byteLength (text.takeWhile fun c => !isBlank c)) text =
        .ok (text.takeWhile fun c => !isBlank c) := sliceTo_eq_ok_iff.2 ⟨_, htext.symm, rfl⟩
    have hdefinition : sliceFrom (byteLength (text.takeWhile fun c => !isBlank c)) text = .ok (c :: rest) :=
      sliceFrom_eq_ok_iff.2 ⟨_, htext.symm, rfl⟩
    rw [if_neg (List.cons_ne_nil c rest)]
    dsimp only
    rw [hname, Checked.ok_bind, hdefinition, Checked.ok_bind]
    rfl

theorem ofTextByOffsets_eq (text : List Char) : ofTextByOffsets text = .ok (ofText text) := by
  unfold ofTextByOffsets ofText
  dsimp only
  split
  · rfl
  · cases afterConstraint? (trim text) with
    | some rest =>
      dsimp only
      rw [splitName?_eq, Checked.ok_bind]
      cases nameAndDefinition? rest <;> rfl
    | none =>
      dsimp only
      rw [splitName?_eq, Checked.ok_bind]
      cases nameAndDefinition? (trim text) <;> rfl

end Clause

namespace Table

/-- Carries out a clause; what it names is reached by its number. -/
def applyClauseByNumbers (t : Table) : Clause → Checked (Table × Except ParseError Unit)
  | .constraint name definition => do
    let t ← t.defineConstraintByNumber name definition
    return (t, .ok ())
  | .column name definition => do
    match ← t.defineColumnByNumber name definition with
    | (t, .ok _) => return (t, .ok ())
    | (t, .error e) => return (t, .error (.definition e))
  | .empty => .ok (t, .ok ())

theorem applyClauseByNumbers_eq (t : Table) (clause : Clause) :
    t.applyClauseByNumbers clause = .ok (t.applyClause clause) := by
  cases clause with
  | constraint name definition =>
    rw [applyClauseByNumbers, defineConstraintByNumber_eq, Checked.ok_bind]
    rfl
  | column name definition =>
    rw [applyClauseByNumbers, defineColumnByNumber_eq, Checked.ok_bind]
    cases hread : Definition.ofText? definition.toList with
    | some d =>
      rw [ColumnList.applyClause_of_some hread, defineColumn_of_some hread]
      rfl
    | none =>
      rw [ColumnList.applyClause_of_none hread, defineColumn_of_none hread]
      rfl
  | empty => rfl

end Table

/-! ### Options -/

namespace Options

/-- The number of bytes up to the text behind a semicolon, none if none stands first. -/
def semicolonLength (text : List Char) : Checked Nat :=
  if (trimStart text).head? = some ';' then do
    let blanks ← difference (byteLength text) (byteLength (trimStart text))
    return blanks + 1
  else .ok 0

/-- The parents in the list behind a place, and the place behind that list and its semicolon. -/
def parentsFrom? (text : List Char) (place : Nat) : Checked (Option (List Char × Nat)) := do
  let rest ← sliceFrom place text
  let gap ← difference (byteLength rest) (byteLength (trimStart rest))
  match ← partnerOffset (String.ofList text) (place + gap) with
  | none => return none
  | some close =>
    let tail ← sliceFrom (close + 1) text
    let semicolon ← semicolonLength tail
    let parents ← slice (place + gap + 1) close text
    return some (trim parents, close + 1 + semicolon)

/-- The parents that the option at a place names, and the text without that option. -/
def inheritsAt? (text : List Char) (place : Nat) : Checked (Option (List Char × List Char)) := do
  match ← parentsFrom? text (place + byteLength "INHERITS".toList) with
  | none => return none
  | some (parents, stop) =>
    let residual ← cutOut place stop text
    return some (parents, residual)

variable {text before after : List Char}

theorem exists_semicolon (text : List Char) :
    ∃ semicolon, text = semicolon ++ dropSemicolon text ∧ semicolonLength text = .ok (byteLength semicolon) := by
  rw [semicolonLength, dropSemicolon]
  by_cases hsemicolon : (trimStart text).head? = some ';'
  · obtain ⟨rest, hrest⟩ := List.head?_eq_some_iff.1 hsemicolon
    obtain ⟨gap, -, htext, hgap⟩ := exists_blanks_before text
    refine ⟨gap ++ [';'], ?_, ?_⟩
    · rw [hrest] at htext ⊢
      rw [List.append_assoc]
      exact htext
    · rw [if_pos hsemicolon, hgap, Checked.ok_bind, byteLength_append]
      rfl
  · refine ⟨[], ?_, if_neg hsemicolon⟩
    split
    next rest hrest => exact absurd (by rw [hrest]; rfl) hsemicolon
    next => rfl

theorem parentsFrom?_append (h : text = before ++ after) :
    (group? (trimStart after) = none ∧ parentsFrom? text (byteLength before) = .ok none) ∨
      ∃ inside rest option, group? (trimStart after) = some (inside, rest) ∧ after = option ++ dropSemicolon rest ∧
        parentsFrom? text (byteLength before) = .ok (some (trim inside, byteLength before + byteLength option)) := by
  obtain ⟨gap, -, hafter, hgap⟩ := exists_blanks_before after
  have hbehind : sliceFrom (byteLength before) text = .ok after := sliceFrom_eq_ok_iff.2 ⟨_, h, rfl⟩
  have htext : text = (before ++ gap) ++ trimStart after := by
    rw [h, List.append_assoc, ← hafter]
  have hdrop : dropBytes? (byteLength before + byteLength gap) text = some (trimStart after) :=
    dropBytes?_eq_some.2 ⟨_, htext, byteLength_append _ _⟩
  rw [parentsFrom?, hbehind, Checked.ok_bind, hgap, Checked.ok_bind, partnerOffset_eq, Checked.ok_bind, partnerOffset?,
    String.toList_ofList, hdrop]
  dsimp only
  cases hgroup : group? (trimStart after) with
  | none => exact .inl ⟨rfl, rfl⟩
  | some found =>
    obtain ⟨inside, rest⟩ := found
    obtain ⟨-, hlist⟩ := group?_eq_some_iff.1 hgroup
    obtain ⟨semicolon, hrest, hlength⟩ := exists_semicolon rest
    -- one byte for each parenthesis, so that a place behind one is the place of it and one more
    have hopen : byteLength ['('] = 1 := rfl
    have hclose : byteLength [')'] = 1 := rfl
    have htail : sliceFrom (byteLength before + byteLength gap + 1 + byteLength inside + 1) text = .ok rest := by
      refine sliceFrom_eq_ok_iff.2 ⟨before ++ gap ++ ['('] ++ inside ++ [')'], ?_, ?_⟩
      · rw [htext, hlist]
        simp
      · simp only [byteLength_append, hopen, hclose]
    have hparents : slice (byteLength before + byteLength gap + 1)
        (byteLength before + byteLength gap + 1 + byteLength inside) text = .ok inside := by
      refine slice_eq_ok_iff.2 ⟨before ++ gap ++ ['('], ')' :: rest, ?_, ?_, ?_⟩
      · rw [htext, hlist]
        simp
      · simp only [byteLength_append, hopen]
      · simp only [byteLength_append, hopen]
    refine .inr ⟨inside, rest, gap ++ ['('] ++ inside ++ [')'] ++ semicolon, rfl, ?_, ?_⟩
    · rw [List.append_assoc, ← hrest]
      conv_lhs => rw [hafter, hlist]
      simp
    · rw [Option.map_some]
      dsimp only
      rw [htail, Checked.ok_bind, hlength, Checked.ok_bind, hparents, Checked.ok_bind]
      simp only [byteLength_append, hopen, hclose, Nat.add_assoc]
      rfl

theorem inheritsAt?_append (h : text = before ++ "INHERITS".toList ++ after) :
    inheritsAt? text (byteLength before) =
      .ok ((group? (trimStart after)).map fun found => (trim found.1, before ++ dropSemicolon found.2)) := by
  rw [inheritsAt?, ← byteLength_append]
  rcases parentsFrom?_append h with ⟨hgroup, hparents⟩ | ⟨inside, rest, option, hgroup, hafter, hparents⟩
  · rw [hgroup, hparents]
    rfl
  · have hcut : cutOut (byteLength before) (byteLength (before ++ "INHERITS".toList) + byteLength option) text =
        .ok (before ++ dropSemicolon rest) := by
      rw [h, hafter, byteLength_append, Nat.add_assoc, ← byteLength_append, List.append_assoc before,
        ← List.append_assoc "INHERITS".toList, cutOut_append]
    rw [hgroup, hparents, Checked.ok_bind]
    dsimp only
    rw [hcut]
    rfl

end Options

namespace Table

/-- Carries out the options in a text and gives the text without them. -/
def applyOptionsByOffsets (t : Table) (text : List Char) : Checked (Table × List Char) := do
  let parents? ← firstAnswer (Options.inheritsAt? text) (places "INHERITS".toList text)
  let (t, text) := match parents? with
    | some (parents, rest) => (t.setInherits (String.ofList parents), rest)
    | none => (t, text)
  match Options.takeOids? text with
  | some (oids, rest) => return (t.setOids oids, rest)
  | none => return (t, text)

theorem applyOptionsByOffsets_eq (t : Table) (text : List Char) :
    t.applyOptionsByOffsets text = .ok (t.applyOptions text) := by
  have hparents : firstAnswer (Options.inheritsAt? text) (places "INHERITS".toList text) =
      .ok (Options.takeInherits? text) := firstAnswer_places (by decide) fun _ _ => Options.inheritsAt?_append
  rw [applyOptionsByOffsets, hparents, Checked.ok_bind]
  unfold applyOptions
  cases Options.takeInherits? text with
  | none =>
    dsimp only
    cases Options.takeOids? text <;> rfl
  | some found =>
    dsimp only
    cases Options.takeOids? found.2 <;> rfl

end Table

end DdlCatalog
