import DdlCatalog.Proofs.Script.Append
import DdlCatalog.Proofs.Text.Words

/-!
# Which statements a load carries out

A load carries out what starts with the text `CREATE TABLE`.  That is not quite what has `CREATE` and `TABLE` for its
first two words.

* `IsTable` — the first two words of a statement are `CREATE` and `TABLE`;
* `Glued` — something stands right behind the text, as in `CREATE TABLESPACE`;
* `Spread` — more than a space stands between the two words;
* `glued_iff`, `spread_iff` : these are the statements that are told apart wrongly, in either direction;
* `Undisturbed` — other statements have not shown in a load, but for their number;
* `undisturbed_iff` : none of them shows if and only if no statement is glued or spread.
-/

namespace DdlCatalog.Script

open Text

/-! ### The first two words -/

/-- The first two words of the statement are `CREATE` and `TABLE`. -/
def IsTable (statement : String) : Prop :=
  (words statement.toList).take 2 = ["CREATE".toList, "TABLE".toList]

instance (statement : String) : Decidable (IsTable statement) := by unfold IsTable; infer_instance

/-- Something that is no blank stands right behind `CREATE TABLE`. -/
def Glued (statement : String) : Prop :=
  ∃ rest, trimStart statement.toList = "CREATE TABLE".toList ++ rest ∧ rest ≠ [] ∧ startsBlank rest = false

/-- Blanks other than one space stand between `CREATE` and `TABLE`. -/
def Spread (statement : String) : Prop :=
  ∃ (gap : Gap) (rest : List Char), trimStart statement.toList = "CREATE".toList ++ gap.1 ++ "TABLE".toList ++ rest ∧
    gap ≠ .space ∧ (rest = [] ∨ startsBlank rest = true)

variable {statement : String}

theorem isWord_create : IsWord "CREATE".toList := by decide

theorem isWord_table : IsWord "TABLE".toList := by decide

theorem isTable_iff : IsTable statement ↔ ∃ (gap : Gap) (rest : List Char),
    trimStart statement.toList = "CREATE".toList ++ gap.1 ++ "TABLE".toList ++ rest ∧
      (rest = [] ∨ startsBlank rest = true) := by
  unfold IsTable
  rw [← words_trimStart]
  constructor
  · intro h
    have hwords : words (trimStart statement.toList) =
        "CREATE".toList :: "TABLE".toList :: (words (trimStart statement.toList)).drop 2 := by
      rw [← List.take_append_drop 2 (words (trimStart statement.toList)), h]
      rfl
    obtain ⟨before, later, hbefore, hlater, e, hnext⟩ := exists_of_words_cons hwords
    obtain ⟨gap, rest, hgap, hrest, rfl, -⟩ := exists_of_words_cons hnext
    have hstart := startsBlank_trimStart statement.toList
    rw [e, List.append_assoc] at hstart
    obtain rfl : before = [] := eq_nil_of_startsBlank hbefore hstart
    have hne : gap ≠ [] := by
      have hsome : startsBlank (gap ++ ("TABLE".toList ++ rest)) = true := by
        rw [← List.append_assoc]
        exact hlater.resolve_left (by simp)
      exact left_ne_nil hsome isWord_table.startsBlank_append
    exact ⟨⟨gap, hgap, hne⟩, rest, by simpa using e, hrest⟩
  · rintro ⟨⟨gap, hgap, hne⟩, rest, e, hrest⟩
    have hsplit : "CREATE".toList ++ gap ++ "TABLE".toList ++ rest =
        "CREATE".toList ++ gap ++ ([] ++ "TABLE".toList ++ rest) := by simp
    rw [e, hsplit, words_append hne hgap, words_of_isWord isWord_create, words_first allBlank_nil isWord_table hrest]
    rfl

theorem isCreateTable_iff : isCreateTable statement = true ↔ ∃ rest,
    trimStart statement.toList = "CREATE TABLE".toList ++ rest := by
  rw [isCreateTable, List.isPrefixOf_iff_prefix]
  exact exists_congr fun _ => eq_comm

/-- Where the text `CREATE TABLE` stands, the blanks between two words are one space. -/
theorem eq_space_of_isCreateTable {gap : Gap} {rest later : List Char}
    (h : "CREATE".toList ++ gap.1 ++ "TABLE".toList ++ rest = "CREATE TABLE".toList ++ later) :
    gap = .space ∧ rest = later := by
  obtain ⟨gap, hgap, hne⟩ := gap
  match gap, hgap, hne with
  | [], _, hne => exact absurd rfl hne
  | [c], _, _ =>
    obtain ⟨rfl, hrest⟩ : c = ' ' ∧ rest = later := by simpa using h
    exact ⟨rfl, hrest⟩
  | c :: d :: gap, hgap, _ =>
    obtain ⟨-, rfl, -⟩ : c = ' ' ∧ d = 'T' ∧ _ := by simpa using h
    cases (allBlank_cons.1 (allBlank_cons.1 hgap).2).1

/-- What is carried out although its first two words are others. -/
theorem glued_iff : Glued statement ↔ isCreateTable statement = true ∧ ¬ IsTable statement := by
  rw [isTable_iff, isCreateTable_iff]
  constructor
  · rintro ⟨rest, e, hne, hrest⟩
    refine ⟨⟨rest, e⟩, ?_⟩
    rintro ⟨gap, later, e', hlater⟩
    obtain ⟨-, rfl⟩ := eq_space_of_isCreateTable (e'.symm.trans e)
    rcases hlater with hnil | hblank
    · exact hne hnil
    · rw [hrest] at hblank
      cases hblank
  · rintro ⟨⟨rest, e⟩, hnot⟩
    have hwords : ¬ (rest = [] ∨ startsBlank rest = true) := fun hrest => hnot ⟨.space, rest, e, hrest⟩
    rw [not_or, Bool.not_eq_true] at hwords
    exact ⟨rest, e, hwords⟩

/-- What is not carried out although its first two words are the ones. -/
theorem spread_iff : Spread statement ↔ isCreateTable statement = false ∧ IsTable statement := by
  rw [isTable_iff, ← Bool.not_eq_true, isCreateTable_iff]
  constructor
  · rintro ⟨gap, rest, e, hgap, hrest⟩
    refine ⟨?_, gap, rest, e, hrest⟩
    rintro ⟨later, e'⟩
    exact hgap (eq_space_of_isCreateTable (e.symm.trans e')).1
  · rintro ⟨hnot, gap, rest, e, hrest⟩
    refine ⟨gap, rest, e, ?_, hrest⟩
    rintro rfl
    exact hnot ⟨rest, e⟩

instance (statement : String) : Decidable (Glued statement) := decidable_of_iff' _ glued_iff
instance (statement : String) : Decidable (Spread statement) := decidable_of_iff' _ spread_iff

/-- The text at its start tells whether a statement has the two words first. -/
theorem routed_iff : (isCreateTable statement = true ↔ IsTable statement) ↔ ¬ Glued statement ∧ ¬ Spread statement := by
  rw [glued_iff, spread_iff, ← Bool.not_eq_true]
  tauto

/-! ### What a load shows of other statements -/

/-- A load of the statements has carried out the tables among them and counted the others, and nothing else. -/
structure Undisturbed (goOn : Bool) (schema : Schema) (statements : List String) : Prop where
  result : (loadStatements ⟨true, goOn⟩ schema statements).result =
    .ok { parsed := statements.countP (IsTable ·), skipped := statements.countP (¬ IsTable ·), failed := 0 }
  schema_eq : (loadStatements ⟨true, goOn⟩ schema statements).schema =
    (loadStatements ⟨true, goOn⟩ schema (statements.filter (IsTable ·))).schema
  carried_out : (loadStatements ⟨true, goOn⟩ schema statements).schema =
    schema.createAll (statements.filter (IsTable ·))

variable {goOn : Bool} {schema : Schema} {before read : List String}

/-- What a load leaves that no statement fails in, whatever is done about failures. -/
theorem loadStatements_of_sound {skip : Bool} (h : Sound skip read) (goOn : Bool) (schema : Schema) :
    (loadStatements ⟨skip, goOn⟩ schema read).schema = schema.createAll (read.filter isCreateTable) ∧
      (loadStatements ⟨skip, goOn⟩ schema read).result = .ok ((read.map (outcome skip)).foldl Summary.add .zero) := by
  cases goOn with
  | true => exact loadFrom_goingOn skip 1 .zero schema read
  | false =>
    rw [loadStatements, loadFrom_of_sound h]
    exact loadFrom_goingOn skip 1 .zero schema read

theorem sound_of_routed (hrouted : ∀ s ∈ read, isCreateTable s = true ↔ IsTable s)
    (haccepted : ∀ s ∈ read, IsTable s → (schema.create s).2.isOk = true) : Sound true read := by
  intro s hs cause hfailed
  cases hcreate : isCreateTable s with
  | true =>
    have hok := haccepted s hs ((hrouted s hs).1 hcreate)
    rw [outcome_of_create hcreate true schema] at hfailed
    cases hanswer : (schema.create s).2 with
    | ok name => simp [hanswer, Outcome.ofAnswer] at hfailed
    | error e => simp [hanswer, Except.isOk, Except.toBool] at hok
  | false =>
    rw [(outcome_of_other hcreate).1] at hfailed
    cases hfailed

theorem undisturbed_of_routed (hrouted : ∀ s ∈ read, isCreateTable s = true ↔ IsTable s)
    (haccepted : ∀ s ∈ read, IsTable s → (schema.create s).2.isOk = true) (goOn : Bool) :
    Undisturbed goOn schema read := by
  have hsound := sound_of_routed hrouted haccepted
  have hfilter : read.filter isCreateTable = read.filter (IsTable ·) :=
    List.filter_congr fun s hs => by rw [Bool.eq_iff_iff, decide_eq_true_iff]; exact hrouted s hs
  obtain ⟨hschema, hresult⟩ := loadStatements_of_sound hsound goOn schema
  rw [hfilter] at hschema
  refine ⟨?_, ?_, hschema⟩
  · have hzero := failed_eq_zero_iff.2 hsound
    rw [foldl_add_outcome true .zero schema] at hresult hzero
    have hothers : others read = read.countP (¬ IsTable ·) := by
      refine List.countP_congr fun s hs => ?_
      simp [← hrouted s hs]
    have htotal := accepted_add_others_add_rejected schema read
    have hlength := List.length_eq_countP_add_countP (IsTable ·) (l := read)
    simp only [Summary.zero, Nat.zero_add, if_true, Nat.add_zero] at hresult hzero
    simp only [decide_eq_true_eq] at hlength
    have hparsed : accepted schema read = read.countP (IsTable ·) := by omega
    rw [hresult, hparsed, hothers, hzero]
  · have htables : Sound true (read.filter (IsTable ·)) := fun s hs => hsound s (List.mem_of_mem_filter hs)
    rw [hschema, (loadStatements_of_sound htables goOn schema).1, ← hfilter, List.filter_filter]
    simp only [Bool.and_self]

/-- What one more statement does to the counts of a load that comes to its end. -/
theorem eq_add_outcome {skip : Bool} {counted total : Summary}
    (hbefore : (loadStatements ⟨skip, goOn⟩ schema before).result = .ok counted)
    (h : (loadStatements ⟨skip, goOn⟩ schema (before ++ [statement])).result = .ok total) :
    total = counted.add (outcome skip statement) := by
  rw [loadStatements, loadFrom_append hbefore] at h
  dsimp only at h
  rw [loadFrom, step_eq] at h
  dsimp only at h
  cases hfatal : (Policy.mk skip goOn).fatal? (outcome skip statement) with
  | some cause =>
    rw [hfatal] at h
    cases h
  | none =>
    rw [hfatal] at h
    exact (Except.ok.inj h).symm

theorem routed_of_undisturbed (hbefore : Undisturbed goOn schema before)
    (h : Undisturbed goOn schema (before ++ [statement])) : isCreateTable statement = true ↔ IsTable statement := by
  have hcounts := eq_add_outcome hbefore.result h.result
  rw [List.countP_append, List.countP_append, List.countP_singleton, List.countP_singleton] at hcounts
  cases hcreate : isCreateTable statement with
  | true =>
    rw [outcome_of_create hcreate true schema] at hcounts
    cases hanswer : (schema.create statement).2 with
    | ok name =>
      have htable : IsTable statement := by
        simpa [hanswer, Outcome.ofAnswer, Summary.add] using hcounts
      exact iff_of_true rfl htable
    | error e => simp [hanswer, Outcome.ofAnswer, Summary.add] at hcounts
  | false =>
    rw [(outcome_of_other hcreate).1] at hcounts
    have hother : ¬ IsTable statement := by
      simpa [Summary.add] using hcounts
    exact iff_of_false Bool.false_ne_true hother

/-- **When other statements do not disturb a load.**  If every table statement of a script is accepted, a load that
passes over other statements comes to its end in either mode, counts the others and carries out the tables, and does so
from the first statement on, if and only if no statement of the script is glued or spread. -/
theorem undisturbed_iff (goOn : Bool) (schema : Schema) (script : String)
    (h : ∀ s ∈ statements script, IsTable s → (schema.create s).2.isOk = true) :
    (∀ read, read <+: statements script → Undisturbed goOn schema read) ↔
      ∀ s ∈ statements script, ¬ Glued s ∧ ¬ Spread s := by
  simp only [← routed_iff]
  constructor
  · intro hundisturbed s hs
    obtain ⟨before, after, hsplit⟩ := List.append_of_mem hs
    rw [hsplit] at hundisturbed
    have hhere : before ++ [s] <+: before ++ s :: after := ⟨after, by simp⟩
    exact routed_of_undisturbed (hundisturbed before (List.prefix_append _ _)) (hundisturbed _ hhere)
  · intro hrouted read hread
    have hmem : ∀ s ∈ read, s ∈ statements script := fun s hs => hread.subset hs
    exact undisturbed_of_routed (fun s hs => hrouted s (hmem s hs)) (fun s hs => h s (hmem s hs)) goOn

/-- Two tables among statements that only look like ones. -/
theorem undisturbed_of_two_tables :
    let script := "CREATE TABLE t (a int); CREATE INDEX i ON t (a); create table u (a int); CREATE TABLE\nv (b int);"
    (∀ s ∈ statements script, IsTable s → (Schema.default.create s).2.isOk = true) ∧
      (load .default .default script).result = .ok { parsed := 2, skipped := 2, failed := 0 } ∧
      (load .default .default script).schema =
        Schema.default.createAll ["CREATE TABLE t (a int);", "CREATE TABLE\nv (b int);"] := by
  intro script
  have hstatements : statements script =
      ["CREATE TABLE t (a int);", "CREATE INDEX i ON t (a);", "create table u (a int);",
        "CREATE TABLE\nv (b int);"] := by
    decide +kernel
  have haccepted : ∀ s ∈ statements script, IsTable s → (Schema.default.create s).2.isOk = true := by
    rw [hstatements]
    decide +kernel
  have hrouted : ∀ s ∈ statements script, ¬ Glued s ∧ ¬ Spread s := by
    rw [hstatements]
    decide +kernel
  have hload : Undisturbed false .default (statements script) :=
    (undisturbed_iff false .default script haccepted).2 hrouted _ List.prefix_rfl
  refine ⟨haccepted, hload.result.trans ?_, hload.carried_out.trans (congrArg _ ?_)⟩
  · rw [hstatements]
    decide +kernel
  · rw [hstatements]
    decide +kernel

/-- `CREATE TABLESPACE` fails, and a table is passed over that has two spaces between the first two words. -/
theorem disturbed_of_tablespace :
    let glued := "CREATE TABLESPACE s LOCATION '/d';"
    let spread := "CREATE  TABLE x CREATE TABLE t (a int);"
    (∀ s ∈ statements glued, ¬ IsTable s) ∧ (∀ goOn, ¬ Undisturbed goOn .default (statements glued)) ∧
      (∀ s ∈ statements spread, IsTable s ∧ (Schema.default.create s).2.isOk = true) ∧
      ∀ goOn, ¬ Undisturbed goOn .default (statements spread) := by
  intro glued spread
  refine ⟨by decide +kernel, ?_, by decide +kernel, ?_⟩
  · intro goOn h
    have hresult := h.result
    revert hresult
    cases goOn <;> decide +kernel
  · intro goOn h
    have hresult := h.result
    revert hresult
    cases goOn <;> decide +kernel

end DdlCatalog.Script
