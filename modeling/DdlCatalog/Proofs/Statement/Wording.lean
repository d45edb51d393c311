import DdlCatalog.Proofs.Statement.Clause
import DdlCatalog.Proofs.Statement.Declared
import DdlCatalog.Proofs.Catalog.Definition
import Mathlib.Data.List.Forall2

/-!
# What the words of a clause say

The words of a clause say what the clause declares, apart from the texts that the catalog keeps as they are written.

* `Column.Alike` — two columns with the same name, both nullable or neither;
* `Definition.exists_ofText?_of_words` : two definitions of the same words are read alike;
* `Clause.exists_column_of_words`, `Clause.exists_constraint_of_words` : the words that make a clause of each kind;
* `Clause.declares_of_words` : two clauses of the same words declare alike columns and constraints of the same name.
-/

namespace DdlCatalog

open Text

/-- Two columns with the same name, both nullable or neither. -/
structure Column.Alike (c c' : Column) : Prop where
  name_eq : c.name = c'.name
  nullable_eq : c.nullable = c'.nullable

theorem Column.Alike.refl (c : Column) : c.Alike c := ⟨rfl, rfl⟩

variable {a b text : List Char}

/-! ### Definitions -/

namespace Definition

variable {d : Definition}

/-- `NOT NULL` at the end, behind another word, is all that makes a column refuse `NULL`. -/
theorem nullability_eq_false_iff :
    (nullability text).1 = false ↔ ∃ us, us ≠ [] ∧ words text = us ++ ["NOT".toList, "NULL".toList] := by
  rcases nullability_cases text with ⟨before, rest, e, hn, hb, hend, hs, hrest⟩ |
    ⟨before, rest, e, hn, hb, hend, hs, hrest, hnot, -⟩ | ⟨hn, hsilent⟩
  · have hwords : words text = words before ++ ["NOT".toList, "NULL".toList] := by
      rw [e, words_append_of_startsBlank (.inr hs), hrest]
    rw [hn]
    exact ⟨fun _ => ⟨_, words_ne_nil hb hend, hwords⟩, fun _ => rfl⟩
  · rw [hn]
    refine ⟨(fun h => nomatch h), ?_⟩
    rintro ⟨us, hus, hwords⟩
    have hlast : words before ++ ["NULL".toList] = (us ++ ["NOT".toList]) ++ ["NULL".toList] := by
      calc words before ++ ["NULL".toList] = words text := by
            rw [e, words_append_of_startsBlank (.inr hs), hrest]
        _ = (us ++ ["NOT".toList]) ++ ["NULL".toList] := by
            rw [hwords, List.append_assoc]
            rfl
    exact absurd (List.append_cancel_right hlast) (hnot us hus)
  · rw [hn]
    refine ⟨(fun h => nomatch h), ?_⟩
    rintro ⟨us, hus, hwords⟩
    exact absurd hwords (hsilent.not_notNull us hus)

/-- Two definitions of the same words are read alike. -/
theorem exists_ofText?_of_words (h : words a = words b) (ha : ofText? a = some d) :
    ∃ d', ofText? b = some d' ∧ d'.nullable = d.nullable := by
  have hread : (ofText? b).isSome := by
    obtain ⟨htrim, hkey⟩ := ofText?_isSome_iff.1 (ha ▸ rfl : (ofText? a).isSome)
    refine ofText?_isSome_iff.2 ⟨?_, ?_⟩
    · rwa [← words_trim_ne_nil_iff, ← h, words_trim_ne_nil_iff]
    · rwa [startsWithKeyword, firstWord_eq, ← h, ← firstWord_eq]
  obtain ⟨d', hb⟩ := Option.isSome_iff_exists.1 hread
  refine ⟨d', hb, ?_⟩
  have hnullable {t : List Char} {d : Definition} (ht : ofText? t = some d) :
      d.nullable = (nullability (trim t)).1 := by
    obtain ⟨remainder, hn, -⟩ := ofText?_eq_some_iff.1 ht
    rw [hn]
  rw [hnullable ha, hnullable hb, Bool.eq_iff_iff, ← not_iff_not, Bool.not_eq_true, Bool.not_eq_true,
    nullability_eq_false_iff, nullability_eq_false_iff, words_trim, words_trim, h]

end Definition

/-! ### Clauses -/

namespace Clause

variable {n d : String} {name : List Char} {ws : List (List Char)}

theorem words_of_spells {definition : List Char} (h : Spells text name definition) :
    words text = name :: words definition ∧ words definition ≠ [] := by
  obtain ⟨gap, hgap, hne, rfl⟩ := h.eq
  refine ⟨?_, Definition.words_ne_nil h.definition_ne_nil h.trimmed_definition.2⟩
  rw [words_append hne hgap, words_of_isWord h.isWord_name]
  rfl

theorem exists_spells_of_words (ht : Trimmed text) (h : words text = name :: ws) (hws : ws ≠ []) :
    ∃ definition, Spells text name definition ∧ words definition = ws := by
  have hname : IsWord name := by
    have hmem : name ∈ words text := by simp [h]
    exact isWord_of_mem_words hmem
  obtain ⟨gap, rest, hgap, hrest, rfl, hwords⟩ := exists_of_words_cons h
  obtain rfl : gap = [] := eq_nil_of_startsBlank hgap (by rw [← List.append_assoc]; exact ht.1)
  have hne := ne_nil_of_words hwords hws
  have hend : endsBlank rest = false := by
    rw [← endsBlank_append hne]
    exact ht.2
  obtain ⟨gap, hgap', hgne, e⟩ := exists_gap_trim (hrest.resolve_left hne) hend
  refine ⟨trim rest, ⟨hname, ?_, trimmed_trim rest, gap, hgap', hgne, ?_⟩, by rw [words_trim, hwords]⟩
  · rw [← Definition.words_trim_ne_nil_iff, hwords]
    exact hws
  · rw [List.nil_append, List.append_assoc, ← e]

theorem words_of_column (h : ofText text = .ok (.column n d)) :
    words text = n.toList :: words d.toList ∧ words d.toList ≠ [] ∧ n.toList ≠ "CONSTRAINT".toList := by
  obtain ⟨hs, hname⟩ := ofText_eq_column_iff.1 h
  obtain ⟨hwords, hne⟩ := words_of_spells hs
  rw [words_trim] at hwords
  exact ⟨hwords, hne, fun e => hname (String.toList_inj.1 e)⟩

theorem words_of_constraint (h : ofText text = .ok (.constraint n d)) :
    words text = "CONSTRAINT".toList :: n.toList :: words d.toList ∧ words d.toList ≠ [] := by
  obtain ⟨gap, rest, hgap, hgne, e, hs⟩ := ofText_eq_constraint_iff.1 h
  obtain ⟨hwords, hne⟩ := words_of_spells hs
  refine ⟨?_, hne⟩
  rw [← words_trim, e, words_append hgne hgap, words_of_isWord (by decide), hwords]
  rfl

/-- Another word than `CONSTRAINT` and more words behind it make a column. -/
theorem exists_column_of_words (h : words text = n.toList :: ws) (hws : ws ≠ [])
    (hname : n.toList ≠ "CONSTRAINT".toList) :
    ∃ d : String, ofText text = .ok (.column n d) ∧ words d.toList = ws := by
  obtain ⟨definition, hs, hwords⟩ := exists_spells_of_words (trimmed_trim text) (by rw [words_trim, h]) hws
  refine ⟨String.ofList definition, ofText_eq_column_iff.2 ⟨?_, ?_⟩, ?_⟩
  · rwa [String.toList_ofList]
  · rintro rfl
    exact hname rfl
  · rwa [String.toList_ofList]

/-- `CONSTRAINT`, a word and more words behind it make a constraint. -/
theorem exists_constraint_of_words (h : words text = "CONSTRAINT".toList :: n.toList :: ws) (hws : ws ≠ []) :
    ∃ d : String, ofText text = .ok (.constraint n d) ∧ words d.toList = ws := by
  obtain ⟨rest, hs, hrest⟩ := exists_spells_of_words (trimmed_trim text) (by rw [words_trim, h]) (by simp)
  obtain ⟨gap, hgap, hgne, e⟩ := hs.eq
  obtain ⟨definition, hs', hwords⟩ := exists_spells_of_words hs.trimmed_definition hrest hws
  refine ⟨String.ofList definition, ofText_eq_constraint_iff.2 ⟨gap, rest, hgap, hgne, e, ?_⟩, ?_⟩
  · rwa [String.toList_ofList]
  · rwa [String.toList_ofList]

/-- Two clauses of the same words declare alike columns and constraints of the same name. -/
theorem declares_of_words (h : words a = words b) (ha : fault? a = none) :
    fault? b = none ∧ Option.Rel Column.Alike (column? a) (column? b) ∧
      Option.Rel (fun c c' : Constraint => c.name = c'.name) (constraint? a) (constraint? b) := by
  cases hclause : ofText a with
  | error e => simp [fault?, hclause] at ha
  | ok clause =>
    cases clause with
    | empty =>
      have hempty : ofText b = .ok .empty := by
        rw [ofText_eq_empty_iff, trim_eq_nil_iff, ← words_eq_nil_iff, ← h, words_eq_nil_iff, ← trim_eq_nil_iff]
        exact ofText_eq_empty_iff.1 hclause
      unfold fault? column? constraint?
      rw [hclause, hempty]
      exact ⟨rfl, .none, .none⟩
    | constraint n d =>
      obtain ⟨hwords, hne⟩ := words_of_constraint hclause
      obtain ⟨d', hclause', -⟩ := exists_constraint_of_words (h ▸ hwords) hne
      unfold fault? column? constraint?
      rw [hclause, hclause']
      exact ⟨rfl, .none, .some rfl⟩
    | column n d =>
      obtain ⟨hwords, hne, hname⟩ := words_of_column hclause
      obtain ⟨d', hclause', hwords'⟩ := exists_column_of_words (h ▸ hwords) hne hname
      cases hd : Definition.ofText? d.toList with
      | none =>
        rw [ColumnList.fault?_of_none hclause hd] at ha
        cases ha
      | some def₁ =>
        obtain ⟨def₂, hd', hnullable⟩ := Definition.exists_ofText?_of_words hwords'.symm hd
        refine ⟨ColumnList.fault?_of_some hclause' hd', ?_, ?_⟩
        · unfold column?
          rw [hclause, hclause']
          dsimp only
          rw [hd, hd']
          exact .some ⟨rfl, hnullable.symm⟩
        · unfold constraint?
          rw [hclause, hclause']
          exact .none

end Clause

end DdlCatalog
