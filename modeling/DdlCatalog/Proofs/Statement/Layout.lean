import DdlCatalog.Proofs.Catalog.Definition
import DdlCatalog.Proofs.Statement.Clause
import DdlCatalog.Proofs.Statement.Declared
import DdlCatalog.Proofs.Statement.Heading

/-!
# Statements as they are laid out

* `Entry` — a column, a constraint or nothing, as it is written between two commas;
* `Layout` — a statement with all its blanks; `Layout.text` is its text and `Layout.table` the table it describes;
* `create_text` : a schema without tables makes that table of that text.
-/

namespace DdlCatalog

open Sql Text

/-! ### Entries -/

/-- A text that can be a clause: no quotes are left open, parentheses match, and commas stand inside of them. -/
structure IsClause (text : List Char) : Prop where
  enclosed : Enclosed text
  no_comma : ∀ a b, text = a ++ ',' :: b → ¬ AtTop a

theorem isClause_iff {text : List Char} : IsClause text ↔ passFrom Clause.isStop .top text = some .top := by
  rw [passFrom_top_iff rfl fun _ => ColumnList.isMark_of_isStop]
  constructor
  · rintro ⟨henclosed, hcomma⟩
    refine ⟨henclosed, fun a c b e htop => ?_⟩
    by_contra hc
    simp only [Clause.isStop, Bool.not_eq_false, Bool.or_eq_true, beq_iff_eq] at hc
    rcases hc with rfl | rfl
    · exact hcomma a b e (by simpa using htop)
    · have := henclosed.noStop_close a ')' b e htop
      simp at this
  · rintro ⟨henclosed, hno⟩
    refine ⟨henclosed, fun a b e htop => ?_⟩
    have := hno a ',' b e (by simpa using htop)
    cases this

theorem isClause_congr {a b : List Char} (h : skeleton a = skeleton b) : IsClause a ↔ IsClause b := by
  rw [isClause_iff, isClause_iff, passFrom_congr Clause.isStructural_of_isStop h]

instance (text : List Char) : Decidable (IsClause text) := decidable_of_iff' _ isClause_iff

/-- A name, a gap and a definition. -/
structure Declaration where
  name : List Char
  gap : Gap
  definition : List Char
  isWord_name : IsWord name
  definition_ne_nil : definition ≠ []
  trimmed_definition : Trimmed definition

namespace Declaration

def text (d : Declaration) : List Char :=
  d.name ++ d.gap.1 ++ d.definition

theorem spells (d : Declaration) : Clause.Spells d.text d.name d.definition :=
  .of_gap d.isWord_name d.definition_ne_nil d.trimmed_definition d.gap

/-- The definition has a type, so that it makes a column. -/
def HasType (d : Declaration) : Prop :=
  firstWord d.definition ∉ ["DEFAULT".toList, "NOT".toList, "NULL".toList]

instance (d : Declaration) : Decidable d.HasType := by unfold HasType; infer_instance

theorem HasType.isSome {d : Declaration} (h : d.HasType) : (Definition.ofText? d.definition).isSome := by
  refine Definition.ofText?_isSome_iff.2 ⟨?_, ?_⟩
  · rw [trim_eq_self d.trimmed_definition]
    exact d.definition_ne_nil
  · simpa [Definition.startsWithKeyword, HasType] using h

/-- The column that is declared. -/
def column (d : Declaration) (h : d.HasType) : Column :=
  ((Definition.ofText? d.definition).get h.isSome).column (String.ofList d.name)

/-- The constraint that is declared. -/
def constraint (d : Declaration) : Constraint where
  name := String.ofList d.name
  definition := String.ofList d.definition

end Declaration

/-- What stands between two commas, the blanks around it apart. -/
inductive Entry where
  | blank
  | column (d : Declaration) (hasType : d.HasType) (name_ne : d.name ≠ "CONSTRAINT".toList)
  | constraint (gap : Gap) (d : Declaration)

namespace Entry

def text : Entry → List Char
  | blank => []
  | column d _ _ => d.text
  | constraint gap d => "CONSTRAINT".toList ++ gap.1 ++ d.text

/-- The column that an entry declares. -/
def column? : Entry → Option Column
  | column d hasType _ => some (d.column hasType)
  | _ => none

/-- The constraint that an entry declares. -/
def constraint? : Entry → Option Constraint
  | constraint _ d => some d.constraint
  | _ => none

theorem trimmed_text (e : Entry) : Trimmed e.text := by
  cases e with
  | blank => exact ⟨rfl, rfl⟩
  | column d _ _ => exact d.spells.trimmed
  | constraint gap d => exact d.spells.trimmed_constraint gap.1

/-- The clause that an entry is. -/
def clause : Entry → Clause
  | blank => .empty
  | column d _ _ => .column (String.ofList d.name) (String.ofList d.definition)
  | constraint _ d => .constraint (String.ofList d.name) (String.ofList d.definition)

variable {text : List Char} {e : Entry}

/-- An entry is read as it is written, whatever blanks stand around it. -/
theorem ofText_eq (h : trim text = e.text) : Clause.ofText text = .ok e.clause := by
  cases e with
  | blank => exact Clause.ofText_of_trim_eq_nil h
  | column d hasType name_ne =>
    refine Clause.ofText_eq_column_iff.2 ⟨?_, fun hname => name_ne ?_⟩
    · rw [h, String.toList_ofList, String.toList_ofList]
      exact d.spells
    · rw [← hname, String.toList_ofList]
  | constraint gap d =>
    refine Clause.ofText_eq_constraint_iff.2 ⟨gap.1, d.text, gap.2.1, gap.2.2, h, ?_⟩
    rw [String.toList_ofList, String.toList_ofList]
    exact d.spells

theorem ofText?_eq (d : Declaration) (h : d.HasType) :
    Definition.ofText? (String.ofList d.definition).toList = some ((Definition.ofText? d.definition).get h.isSome) := by
  rw [String.toList_ofList, Option.some_get]

theorem fault?_eq_none (h : trim text = e.text) : Clause.fault? text = none := by
  have hclause := ofText_eq h
  cases e with
  | blank => simp [Clause.fault?, hclause, clause]
  | column d hasType _ => exact ColumnList.fault?_of_some hclause (ofText?_eq d hasType)
  | constraint gap d => simp [Clause.fault?, hclause, clause]

theorem column?_eq (h : trim text = e.text) : Clause.column? text = e.column? := by
  unfold Clause.column?
  rw [ofText_eq h]
  cases e with
  | blank => rfl
  | column d hasType _ =>
    dsimp only [clause]
    rw [ofText?_eq d hasType]
    rfl
  | constraint gap d => rfl

theorem constraint?_eq (h : trim text = e.text) : Clause.constraint? text = e.constraint? := by
  unfold Clause.constraint?
  rw [ofText_eq h]
  cases e <;> rfl

end Entry

/-! ### Entries between commas -/

/-- An entry that can be a clause, with blanks around it. -/
structure Slot where
  before : Blanks
  entry : Entry
  after : Blanks
  isClause : IsClause entry.text

namespace Slot

def text (s : Slot) : List Char :=
  s.before.1 ++ s.entry.text ++ s.after.1

theorem trim_text (s : Slot) : trim s.text = s.entry.text :=
  trim_pad s.before.2 s.after.2 s.entry.trimmed_text

theorem passFrom_text (s : Slot) : passFrom Clause.isStop .top s.text = some .top := by
  refine isClause_iff.1 ((isClause_congr ?_).1 s.isClause)
  simp [text, skeleton_of_allBlank s.before.2, skeleton_of_allBlank s.after.2]

def blank (b : Blanks) : Slot where
  before := b
  entry := .blank
  after := .none
  isClause := isClause_iff.2 rfl

theorem text_blank (b : Blanks) : (blank b).text = b.1 := by
  change b.1 ++ [] ++ [] = b.1
  simp

/-- A slot with more blanks before it. -/
def pad (b : Blanks) (s : Slot) : Slot :=
  { s with before := ⟨b.1 ++ s.before.1, allBlank_append.2 ⟨b.2, s.before.2⟩⟩ }

theorem text_pad (b : Blanks) (s : Slot) : (s.pad b).text = b.1 ++ s.text := by
  simp [pad, text]

end Slot

/-- The slots of a list with blanks before it. -/
def padFirst (b : Blanks) : List Slot → List Slot
  | [] => [.blank b]
  | s :: slots => s.pad b :: slots

section PadFirst

variable (b : Blanks) (slots : List Slot)

theorem padFirst_ne_nil : padFirst b slots ≠ [] := by
  cases slots <;> simp [padFirst]

theorem intercalate_padFirst :
    [','].intercalate ((padFirst b slots).map Slot.text) = b.1 ++ [','].intercalate (slots.map Slot.text) := by
  cases slots with
  | nil => simp [padFirst, Slot.text_blank]
  | cons s slots =>
    cases slots with
    | nil => simp [padFirst, Slot.text_pad]
    | cons s' slots => simp [padFirst, Slot.text_pad, List.intercalate_cons_cons]

theorem filterMap_padFirst {α : Type} {f : Entry → Option α} (h : f .blank = none) :
    (padFirst b slots).filterMap (fun s => f s.entry) = slots.filterMap fun s => f s.entry := by
  cases slots with
  | nil => simp [padFirst, Slot.blank, h]
  | cons s slots => simp [padFirst, Slot.pad, List.filterMap_cons]

end PadFirst

/-! ### The end of a statement -/

section Terminator

variable {text b : List Char} {c : Char}

theorem dropTerminator_semicolon (hb : AllBlank b) : dropTerminator (text ++ ';' :: b) = text := by
  have hend : endsBlank (text ++ [';']) = false := by
    rw [endsBlank_concat]
    decide
  have htrim : trimEnd (text ++ ';' :: b) = text ++ [';'] := by
    rw [← List.singleton_append, ← List.append_assoc, trimEnd_append_of_blank hb, trimEnd_eq_self hend]
  rw [dropTerminator, htrim, List.isSuffixOf?_eq_some_iff_append_eq.2 rfl]
  rfl

theorem dropTerminator_concat (hc : isBlank c = false) (hne : c ≠ ';') (hb : AllBlank b) :
    dropTerminator (text ++ [c] ++ b) = text ++ [c] := by
  have hend : endsBlank (text ++ [c]) = false := by rw [endsBlank_concat, hc]
  have hnone : [';'].isSuffixOf? (text ++ [c]) = none := by
    rw [Option.eq_none_iff_forall_ne_some]
    intro t ht
    rw [List.isSuffixOf?_eq_some_iff_append_eq] at ht
    exact hne (by simpa using (List.append_inj' ht rfl).2.symm)
  rw [dropTerminator, trimEnd_append_of_blank hb, trimEnd_eq_self hend, hnone]
  rfl

end Terminator

theorem Options.Layout.exists_text_eq (o : Options.Layout) :
    o.text = [] ∨ ∃ t c, o.text = t ++ [c] ∧ isBlank c = false ∧ c ≠ ';' := by
  have hoids (b : Bool) : ∃ t, oidsWords b = t ++ ['S'] := by
    cases b
    · exact ⟨"WITHOUT OID".toList, by decide⟩
    · exact ⟨"WITH OID".toList, by decide⟩
  have hparents (p : ParentList) : ∃ t, p.text = t ++ [')'] := ⟨_, rfl⟩
  cases o with
  | none => exact .inl rfl
  | parents p =>
    obtain ⟨t, h⟩ := hparents p
    exact .inr ⟨t, ')', h, by decide, by decide⟩
  | oids o =>
    obtain ⟨t, h⟩ := hoids o
    exact .inr ⟨t, 'S', h, by decide, by decide⟩
  | parentsOids p gap o =>
    obtain ⟨t, h⟩ := hoids o
    exact .inr ⟨p.text ++ gap.1 ++ t, 'S', by simp [h], by decide, by decide⟩
  | oidsParents o gap p =>
    obtain ⟨t, h⟩ := hparents p
    exact .inr ⟨oidsWords o ++ gap.1 ++ t, ')', by simp [h], by decide, by decide⟩

/-! ### Statements -/

/-- A statement with all its blanks. -/
structure Layout where
  margin : Blanks
  gap : Gap
  name : List Char
  isTableName_name : Heading.IsTableName name
  afterName : Blanks
  slots : List Slot
  afterList : Blanks
  options : Options.Layout
  afterOptions : Blanks
  semicolon : Bool
  ending : Blanks

namespace Layout

variable (l : Layout)

/-- The text behind the parenthesis that opens the column list. -/
def rest : List Char :=
  [','].intercalate (l.slots.map Slot.text) ++
    ')' :: (l.afterList.1 ++ l.options.text ++ l.afterOptions.1 ++ (if l.semicolon then [';'] else []) ++ l.ending.1)

def text : String :=
  String.ofList (l.margin.1 ++ "CREATE TABLE".toList ++ (l.gap.1 ++ l.name ++ l.afterName.1 ++ '(' :: l.rest))

def clauses : List (List Char) :=
  (padFirst l.margin l.slots).map Slot.text

/-- The table that has been filled with what the entries declare. -/
def filled : Table where
  name := String.ofList l.name
  columns := Named.putAll (l.slots.filterMap fun s => s.entry.column?) []
  constraints := Named.putAll (l.slots.filterMap fun s => s.entry.constraint?) []
  inherits := l.options.parents?.map String.ofList
  withOids := l.options.oids?

theorem ofCommand_text :
    Heading.ofCommand l.text =
      .ok { table := String.ofList l.name, rest := String.ofList (l.margin.1 ++ l.rest) } := by
  refine Heading.ofCommand_of_blank l.margin.2 (Heading.nameAndList?_eq_some_iff.2 ⟨l.isTableName_name, ?_⟩)
  exact ⟨l.gap.1, l.afterName.1, l.gap.2.1, l.gap.2.2, l.afterName.2, rfl⟩

theorem exists_dropTerminator :
    ∃ a b, AllBlank a ∧ AllBlank b ∧
      dropTerminator (l.margin.1 ++ l.rest) = [','].intercalate l.clauses ++ ')' :: (a ++ l.options.text ++ b) := by
  unfold clauses rest
  rw [intercalate_padFirst]
  generalize l.margin.1 = margin, [','].intercalate (l.slots.map Slot.text) = list
  have hafter := l.afterList.2
  have hending := l.ending.2
  have hoptions := l.afterOptions.2
  generalize l.afterList.1 = afterList, l.ending.1 = ending, l.afterOptions.1 = afterOptions at hafter hending hoptions
  cases l.semicolon with
  | true =>
    refine ⟨afterList, afterOptions, hafter, hoptions, ?_⟩
    have e : margin ++ (list ++ ')' :: (afterList ++ l.options.text ++ afterOptions ++ [';'] ++ ending)) =
        margin ++ list ++ ')' :: (afterList ++ l.options.text ++ afterOptions) ++ ';' :: ending := by simp
    rw [if_pos rfl, e, dropTerminator_semicolon hending]
  | false =>
    rcases l.options.exists_text_eq with ho | ⟨t, c, ho, hc, hne⟩
    · refine ⟨[], [], allBlank_nil, allBlank_nil, ?_⟩
      have e : margin ++ (list ++ ')' :: (afterList ++ [] ++ afterOptions ++ [] ++ ending)) =
          margin ++ list ++ [')'] ++ (afterList ++ afterOptions ++ ending) := by simp
      have hblank : AllBlank (afterList ++ afterOptions ++ ending) := by simp [hafter, hoptions, hending]
      rw [ho, if_neg (by decide), e, dropTerminator_concat (by decide) (by decide) hblank]
      rfl
    · refine ⟨afterList, [], hafter, allBlank_nil, ?_⟩
      have e : margin ++ (list ++ ')' :: (afterList ++ (t ++ [c]) ++ afterOptions ++ [] ++ ending)) =
          margin ++ list ++ ')' :: (afterList ++ t) ++ [c] ++ (afterOptions ++ ending) := by simp
      rw [ho, if_neg (by decide), e, dropTerminator_concat hc hne (by simp [hoptions, hending])]
      simp

/-- What a schema without tables makes of a layout. -/
theorem create_filled (schema : String) :
    (Schema.ofName schema).create l.text = (Schema.ofTable schema l.filled, .ok (String.ofList l.name)) := by
  obtain ⟨a, b, ha, hb, hbody⟩ := l.exists_dropTerminator
  obtain ⟨hparents, hoids, hresidual⟩ := Options.read_layout l.options ha hb
  have hpass : ∀ c ∈ l.clauses, passFrom Clause.isStop .top c = some .top := by
    intro c hc
    obtain ⟨s, -, rfl⟩ := List.mem_map.1 hc
    exact s.passFrom_text
  have hgood : ∀ c ∈ l.clauses, Clause.fault? c = none := by
    intro c hc
    obtain ⟨s, -, rfl⟩ := List.mem_map.1 hc
    exact Entry.fault?_eq_none s.trim_text
  have hne : l.clauses ≠ [] := by simp [clauses, padFirst_ne_nil]
  have hcolumns : l.clauses.filterMap Clause.column? = l.slots.filterMap fun s => s.entry.column? := by
    rw [clauses, List.filterMap_map, ← filterMap_padFirst l.margin l.slots rfl]
    exact List.filterMap_congr fun s _ => Entry.column?_eq s.trim_text
  have hconstraints : l.clauses.filterMap Clause.constraint? = l.slots.filterMap fun s => s.entry.constraint? := by
    rw [clauses, List.filterMap_map, ← filterMap_padFirst l.margin l.slots rfl]
    exact List.filterMap_congr fun s _ => Entry.constraint?_eq s.trim_text
  refine Schema.create_ofName_eq_ok_iff.2
    ⟨_, l.clauses, a ++ l.options.text ++ b, l.ofCommand_text, ?_, hgood, ?_, rfl, ?_⟩
  · rw [String.toList_ofList, hbody]
    exact ColumnList.cutFrom_intercalate atTop_nil hne hpass
  · rw [trim_eq_nil hresidual]
  · rw [Table.described, hcolumns, hconstraints, hparents, hoids]
    rfl

/-- The table that the statement describes: a name stands where it is first used and for what it is last given. -/
def table : Table where
  name := String.ofList l.name
  columns := Named.lastOfEach (l.slots.filterMap fun s => s.entry.column?)
  constraints := Named.lastOfEach (l.slots.filterMap fun s => s.entry.constraint?)
  inherits := l.options.parents?.map String.ofList
  withOids := l.options.oids?

/-- **Every layout of a table is read back.**  A schema without tables accepts the text and has that one table. -/
theorem create_text (schema : String) :
    (Schema.ofName schema).create l.text = (Schema.ofTable schema l.table, .ok (String.ofList l.name)) := by
  rw [create_filled, filled, table, Named.putAll_nil, Named.putAll_nil]

/-- A layout with an empty slot, and with a comma and parentheses inside an entry. -/
example : ∃ l : Layout,
    l.text = "CREATE TABLE t (a numeric(4,2) DEFAULT ')', ,CONSTRAINT k CHECK (a > 0)) INHERITS (p);" ∧
      l.table.columnNames = ["a"] ∧ l.table.constraintNames = ["k"] ∧ l.table.inherits = some "p" := by
  let a : Declaration :=
    ⟨"a".toList, .space, "numeric(4,2) DEFAULT ')'".toList, by decide +kernel, by decide, by decide +kernel⟩
  let k : Declaration := ⟨"k".toList, .space, "CHECK (a > 0)".toList, by decide +kernel, by decide, by decide +kernel⟩
  refine ⟨{
    margin := .none
    gap := .space
    name := ['t']
    isTableName_name := by decide +kernel
    afterName := .space
    slots := [
      ⟨.none, .column a (by decide +kernel) (by decide), .none, by decide +kernel⟩, .blank .space,
      ⟨.none, .constraint .space k, .none, by decide +kernel⟩]
    afterList := .space
    options := .parents ⟨.space, ['p'], by decide +kernel⟩
    afterOptions := .none
    semicolon := true
    ending := .none }, ?_⟩
  decide +kernel

end Layout

end DdlCatalog
