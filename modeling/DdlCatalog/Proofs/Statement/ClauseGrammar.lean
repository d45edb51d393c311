import DdlCatalog.Proofs.Statement.Wording

/-!
# The grammar of clauses

* `Clause.Readable` — a clause whose name and definition can be told apart again once it is written;
* `Clause.written` — a clause as it is written with some blanks;
* `ofText_eq_ok_iff` : what is read is what is written, whatever the blanks;
* `ofText_eq_error_iff` : the texts that are no clause, told from their words;
* `ofText_by_words` : the words of a text decide what kind of clause it is, if any.
-/

namespace DdlCatalog.Clause

open Text

/-- The name is a word, and the definition starts and ends with something that is no blank. -/
def Readable : Clause → Prop
  | .constraint name definition => IsWord name.toList ∧ definition.toList ≠ [] ∧ Trimmed definition.toList
  | .column name definition =>
    IsWord name.toList ∧ name ≠ "CONSTRAINT" ∧ definition.toList ≠ [] ∧ Trimmed definition.toList
  | .empty => True

/-- The blanks in a clause. -/
structure Spacing where
  before : Blanks
  afterKeyword : Gap
  afterName : Gap
  behind : Blanks

/-- A clause as it is written with some blanks. -/
def written (s : Spacing) : Clause → List Char
  | .constraint name definition =>
    s.before.1 ++ ("CONSTRAINT".toList ++ s.afterKeyword.1 ++ (name.toList ++ s.afterName.1 ++ definition.toList)) ++
      s.behind.1
  | .column name definition => s.before.1 ++ (name.toList ++ s.afterName.1 ++ definition.toList) ++ s.behind.1
  | .empty => s.before.1 ++ s.behind.1

variable {text : List Char} {clause : Clause} {name : String} {e : ParseError}

/-! ### Clauses that are written and read -/

theorem readable_of_ofText (h : ofText text = .ok clause) : clause.Readable := by
  cases clause with
  | constraint name definition =>
    obtain ⟨gap, rest, -, -, -, hs⟩ := ofText_eq_constraint_iff.1 h
    exact ⟨hs.isWord_name, hs.definition_ne_nil, hs.trimmed_definition⟩
  | column name definition =>
    obtain ⟨hs, hname⟩ := ofText_eq_column_iff.1 h
    exact ⟨hs.isWord_name, hname, hs.definition_ne_nil, hs.trimmed_definition⟩
  | empty => trivial

/-- What is read stands there, the blanks apart. -/
theorem exists_written (h : ofText text = .ok clause) : ∃ s, text = clause.written s := by
  obtain ⟨a, b, ha, hb, e⟩ := exists_eq_trim text
  cases clause with
  | constraint name definition =>
    obtain ⟨gap, rest, hgap, hne, htrim, hs⟩ := ofText_eq_constraint_iff.1 h
    obtain ⟨gap', hgap', hne', hrest⟩ := hs.eq
    refine ⟨⟨⟨a, ha⟩, ⟨gap, hgap, hne⟩, ⟨gap', hgap', hne'⟩, ⟨b, hb⟩⟩, ?_⟩
    rw [e, htrim, hrest]
    rfl
  | column name definition =>
    obtain ⟨gap, hgap, hne, htrim⟩ := (ofText_eq_column_iff.1 h).1.eq
    refine ⟨⟨⟨a, ha⟩, .space, ⟨gap, hgap, hne⟩, ⟨b, hb⟩⟩, ?_⟩
    rw [e, htrim]
    rfl
  | empty =>
    refine ⟨⟨⟨a, ha⟩, .space, .space, ⟨b, hb⟩⟩, ?_⟩
    rw [e, ofText_eq_empty_iff.1 h, List.append_nil]
    rfl

/-- A clause is read whatever blanks it is written with. -/
theorem ofText_written (h : clause.Readable) (s : Spacing) : ofText (clause.written s) = .ok clause := by
  cases clause with
  | constraint name definition =>
    obtain ⟨hname, hne, htrimmed⟩ := h
    have hs := Spells.of_gap hname hne htrimmed s.afterName
    refine ofText_eq_constraint_iff.2 ⟨s.afterKeyword.1, _, s.afterKeyword.2.1, s.afterKeyword.2.2, ?_, hs⟩
    exact trim_pad s.before.2 s.behind.2 (hs.trimmed_constraint s.afterKeyword.1)
  | column name definition =>
    obtain ⟨hname, hkeyword, hne, htrimmed⟩ := h
    have hs := Spells.of_gap hname hne htrimmed s.afterName
    refine ofText_eq_column_iff.2 ⟨?_, hkeyword⟩
    rw [written, trim_pad s.before.2 s.behind.2 hs.trimmed]
    exact hs
  | empty => exact ofText_eq_empty_iff.2 (trim_eq_nil (allBlank_append.2 ⟨s.before.2, s.behind.2⟩))

/-- **What is read is what is written**, with any blanks. -/
theorem ofText_eq_ok_iff : ofText text = .ok clause ↔ clause.Readable ∧ ∃ s, text = clause.written s := by
  constructor
  · intro h
    exact ⟨readable_of_ofText h, exists_written h⟩
  · rintro ⟨h, s, rfl⟩
    exact ofText_written h s

/-! ### Clauses and their words -/

theorem ofText_eq_empty_iff_words : ofText text = .ok .empty ↔ words text = [] := by
  rw [ofText_eq_empty_iff, trim_eq_nil_iff, words_eq_nil_iff]

theorem exists_constraint_iff_words :
    (∃ definition, ofText text = .ok (.constraint name definition)) ↔
      ∃ ws, ws ≠ [] ∧ words text = "CONSTRAINT".toList :: name.toList :: ws := by
  constructor
  · rintro ⟨definition, h⟩
    obtain ⟨hwords, hne⟩ := words_of_constraint h
    exact ⟨_, hne, hwords⟩
  · rintro ⟨ws, hne, hwords⟩
    obtain ⟨definition, h, -⟩ := exists_constraint_of_words hwords hne
    exact ⟨definition, h⟩

theorem exists_column_iff_words :
    (∃ definition, ofText text = .ok (.column name definition)) ↔
      name ≠ "CONSTRAINT" ∧ ∃ ws, ws ≠ [] ∧ words text = name.toList :: ws := by
  constructor
  · rintro ⟨definition, h⟩
    obtain ⟨hwords, hne, hkeyword⟩ := words_of_column h
    exact ⟨fun hname => hkeyword (by rw [hname]), _, hne, hwords⟩
  · rintro ⟨hname, ws, hne, hwords⟩
    obtain ⟨definition, h, -⟩ := exists_column_of_words hwords hne fun hkeyword => hname (String.toList_inj.1 hkeyword)
    exact ⟨definition, h⟩

/-- The words of a text that is no clause: too few to name something and to define it. -/
def TooFew (ws : List (List Char)) : Prop :=
  (∃ w, ws = [w]) ∨ ∃ w, ws = ["CONSTRAINT".toList, w]

theorem tooFew_or_ofText (text : List Char) : TooFew (words text) ∨ ∃ clause, ofText text = .ok clause := by
  cases hwords : words text with
  | nil => exact .inr ⟨_, ofText_eq_empty_iff_words.2 hwords⟩
  | cons w ws =>
    cases ws with
    | nil => exact .inl (.inl ⟨w, rfl⟩)
    | cons v ws =>
      by_cases hw : w = "CONSTRAINT".toList
      · cases ws with
        | nil => exact .inl (.inr ⟨v, by rw [hw]⟩)
        | cons u ws =>
          obtain ⟨definition, h⟩ := exists_constraint_iff_words.2
            ⟨u :: ws, by simp, by rw [hwords, hw, String.toList_ofList (l := v)]⟩
          exact .inr ⟨_, h⟩
      · obtain ⟨definition, h⟩ := exists_column_iff_words.2
          ⟨fun hname => hw (by rw [← hname, String.toList_ofList (l := w)]), v :: ws, by simp,
            by rw [hwords, String.toList_ofList (l := w)]⟩
        exact .inr ⟨_, h⟩

theorem not_tooFew_of_ofText (h : ofText text = .ok clause) : ¬ TooFew (words text) := by
  cases clause with
  | constraint name definition =>
    obtain ⟨ws, hne, hwords⟩ := exists_constraint_iff_words.1 ⟨definition, h⟩
    rw [hwords]
    rintro (⟨w, hw⟩ | ⟨w, hw⟩) <;> simp [hne] at hw
  | column name definition =>
    obtain ⟨hname, ws, hne, hwords⟩ := exists_column_iff_words.1 ⟨definition, h⟩
    rw [hwords]
    rintro (⟨w, hw⟩ | ⟨w, hw⟩)
    · simp [hne] at hw
    · exact hname (String.toList_inj.1 (List.cons.inj hw).1)
  | empty =>
    rw [ofText_eq_empty_iff_words.1 h]
    rintro (⟨w, hw⟩ | ⟨w, hw⟩) <;> cases hw

/-- A text that is no clause is reported as it stands, the blanks around it apart. -/
theorem eq_unreadable_of_ofText (h : ofText text = .error e) : e = .unreadable (String.ofList (trim text)) := by
  by_cases hne : trim text = []
  · rw [ofText_of_trim_eq_nil hne] at h
    cases h
  · rw [ofText_eq hne] at h
    split at h <;> split at h <;> cases h <;> rfl

theorem ofText_eq_error_iff :
    ofText text = .error e ↔ e = .unreadable (String.ofList (trim text)) ∧ TooFew (words text) := by
  constructor
  · intro h
    refine ⟨eq_unreadable_of_ofText h, (tooFew_or_ofText text).resolve_right ?_⟩
    rintro ⟨clause, hclause⟩
    rw [hclause] at h
    cases h
  · rintro ⟨rfl, hfew⟩
    cases h : ofText text with
    | ok clause => exact absurd hfew (not_tooFew_of_ofText h)
    | error e' => rw [eq_unreadable_of_ofText h]

/-- **The words of a text decide what clause it is.**  None make an empty clause, one word or `CONSTRAINT` and one
word make none, `CONSTRAINT` and two more words make a constraint, and any other two words make a column.  The
definition is what stands behind the name, so that the clause may be written with any other blanks. -/
theorem ofText_by_words (text : List Char) :
    (ofText text = .ok .empty ↔ words text = []) ∧
    (∀ name : String, (∃ definition, ofText text = .ok (.constraint name definition)) ↔
      ∃ ws, ws ≠ [] ∧ words text = "CONSTRAINT".toList :: name.toList :: ws) ∧
    (∀ name : String, (∃ definition, ofText text = .ok (.column name definition)) ↔
      name ≠ "CONSTRAINT" ∧ ∃ ws, ws ≠ [] ∧ words text = name.toList :: ws) ∧
    (∀ e, ofText text = .error e ↔ e = .unreadable (String.ofList (trim text)) ∧ TooFew (words text)) ∧
    ∀ clause, ofText text = .ok clause →
      clause.Readable ∧ (∃ s, text = clause.written s) ∧ ∀ s, ofText (clause.written s) = .ok clause := by
  refine ⟨ofText_eq_empty_iff_words, fun _ => exists_constraint_iff_words, fun _ => exists_column_iff_words,
    fun _ => ofText_eq_error_iff, fun clause h => ?_⟩
  obtain ⟨hreadable, hwritten⟩ := ofText_eq_ok_iff.1 h
  exact ⟨hreadable, hwritten, ofText_written hreadable⟩

end DdlCatalog.Clause
