import DdlCatalog.Proofs.Catalog.Define
import DdlCatalog.Proofs.Catalog.Definition

/-!
# Definitions written back

* `Definition.sql` — a definition as the catalog writes it;
* `words_sql` : it has the words that were read, but for a `NULL` at the end;
* `ofText?_sql` : it is read back as it is, unless a second `NULL` comes to the end (`EndsNullNull`);
* `ofText?_sql_ne`, `Column.define_written` : a second `NULL` makes it another one.
-/

namespace DdlCatalog.Definition

open Text

/-- The part of a definition that comes after the type. -/
def defaultSql : Option (List Char) → List Char
  | some value => [' '] ++ "DEFAULT".toList ++ [' '] ++ value
  | none => []

/-- The words about `NULL` at the end of a definition. -/
def nullSql (nullable : Bool) : List Char :=
  if nullable then [] else [' '] ++ "NOT".toList ++ [' '] ++ "NULL".toList

/-- A definition as the catalog writes it. -/
def sql (d : Definition) : List Char :=
  d.dataType ++ defaultSql d.default ++ nullSql d.nullable

/-- The words end in `NULL NULL`, and these are not the expression of a `DEFAULT` and a word about `NULL`. -/
def EndsNullNull (ws : List (List Char)) : Prop :=
  ∃ y, [y, "NULL".toList, "NULL".toList] <:+ ws ∧ y ≠ "DEFAULT".toList

instance (ws : List (List Char)) : Decidable (EndsNullNull ws) :=
  decidable_of_iff (∃ y ∈ ws, [y, "NULL".toList, "NULL".toList] <:+ ws ∧ y ≠ "DEFAULT".toList)
    ⟨fun ⟨y, _, h⟩ => ⟨y, h⟩, fun ⟨y, h⟩ => ⟨y, h.1.subset (by simp), h⟩⟩

variable {text remainder dataType : List Char} {default : Option (List Char)} {d : Definition}

theorem defaultSql_none : defaultSql none = [] := rfl

theorem defaultSql_some (value : List Char) :
    defaultSql (some value) = [' '] ++ "DEFAULT".toList ++ [' '] ++ value := rfl

/-! ### The type and the default -/

theorem append_defaultSql (dataType value : List Char) :
    dataType ++ defaultSql (some value) = dataType ++ [' '] ++ "DEFAULT".toList ++ [' '] ++ value := by
  rw [defaultSql_some]
  generalize "DEFAULT".toList = word
  simp

theorem words_append_defaultSql (dataType value : List Char) :
    words (dataType ++ defaultSql (some value)) = words dataType ++ "DEFAULT".toList :: words value := by
  rw [append_defaultSql, words_append (by decide) allBlank_space, words_append (by decide) allBlank_space,
    words_of_isWord isWord_default, List.append_assoc, List.singleton_append]

theorem trimmed_append_defaultSql {value : List Char} (hT : Trimmed dataType) (hTne : dataType ≠ [])
    (hV : Trimmed value) (hVne : value ≠ []) : Trimmed (dataType ++ defaultSql (some value)) := by
  refine ⟨by rw [startsBlank_append hTne, hT.1], ?_⟩
  rw [append_defaultSql, endsBlank_append hVne, hV.2]

theorem splits_append_defaultSql {value : List Char} (hT : Trimmed dataType) (hTne : dataType ≠ [])
    (hV : Trimmed value) (hVne : value ≠ []) (hlast : "DEFAULT".toList ∉ (words value).dropLast) :
    Splits (dataType ++ defaultSql (some value)) dataType value :=
  ⟨hTne, hVne, hT, hV, hlast,
    [' '], [' '], allBlank_space, by decide, allBlank_space, by decide, append_defaultSql dataType value⟩

/-- What is written of a type and a default. -/
theorem typeAndDefault_written (h : Trimmed remainder) (hne : remainder ≠ [])
    (ht : typeAndDefault remainder = (dataType, default)) :
    typeAndDefault (dataType ++ defaultSql default) = (dataType, default) ∧
      Trimmed (dataType ++ defaultSql default) ∧ dataType ++ defaultSql default ≠ [] ∧
      words (dataType ++ defaultSql default) = words remainder := by
  rcases typeAndDefault_cases h with ⟨T, value, htv, hs⟩ | ⟨hnone, -⟩
  · obtain ⟨rfl, rfl⟩ := Prod.mk.inj (ht.symm.trans htv)
    obtain ⟨gap, gap', hgap, hgne, hgap', hgne', e⟩ := hs.eq
    have htrimmed := trimmed_append_defaultSql hs.trimmed_dataType hs.dataType_ne_nil hs.trimmed_value hs.value_ne_nil
    have hsplits := splits_append_defaultSql hs.trimmed_dataType hs.dataType_ne_nil hs.trimmed_value hs.value_ne_nil
      hs.isLast
    refine ⟨typeAndDefault_of_splits htrimmed hsplits, htrimmed, by simp [hs.dataType_ne_nil], ?_⟩
    rw [words_append_defaultSql, e, words_append hgne' hgap', words_append hgne hgap, words_of_isWord isWord_default,
      List.append_assoc, List.singleton_append]
  · obtain ⟨rfl, rfl⟩ := Prod.mk.inj (ht.symm.trans hnone)
    rw [defaultSql_none, List.append_nil]
    exact ⟨hnone, h, hne, rfl⟩

/-! ### The words about `NULL` -/

/-- What is left of the words of a definition when a `NULL` is taken away says nothing about `NULL`. -/
theorem silent_of_null {ws : List (List Char)} (hproviso : ¬ EndsNullNull (ws ++ ["NULL".toList]))
    (hhead : ws.head? ≠ some "DEFAULT".toList) : Silent ws := by
  constructor
  · rintro us - rfl
    exact hproviso ⟨"NOT".toList, ⟨us, by simp⟩, by decide⟩
  · rintro us hus rfl
    obtain ⟨us', y, rfl⟩ := (List.eq_nil_or_concat us).resolve_left hus
    rw [List.concat_eq_append] at hproviso hhead ⊢
    have hy : y = "DEFAULT".toList := by
      by_contra hy
      exact hproviso ⟨y, ⟨us', by simp⟩, hy⟩
    subst hy
    refine ⟨us', ?_, rfl⟩
    rintro rfl
    exact hhead rfl

theorem words_nullSql_false : words (nullSql false) = ["NOT".toList, "NULL".toList] := by decide

theorem startsBlank_nullSql_false : startsBlank (nullSql false) = true := by decide

theorem trimmed_append_nullSql {body : List Char} (h : Trimmed body) (hne : body ≠ []) (nullable : Bool) :
    Trimmed (body ++ nullSql nullable) := by
  refine ⟨by rw [startsBlank_append hne, h.1], ?_⟩
  cases nullable with
  | true => rw [nullSql, if_pos rfl, List.append_nil, h.2]
  | false =>
    rw [endsBlank_append (by decide)]
    decide

/-- The words about `NULL` that are written are the ones that are taken away. -/
theorem nullability_append_nullSql {body : List Char} {nullable : Bool} (h : Trimmed body) (hne : body ≠ [])
    (hsilent : nullable = true → Silent (words body)) : nullability (body ++ nullSql nullable) = (nullable, body) := by
  cases nullable with
  | true =>
    rw [nullSql, if_pos rfl, List.append_nil]
    exact nullability_of_silent (hsilent rfl)
  | false => exact nullability_of_notNull hne h.2 startsBlank_nullSql_false words_nullSql_false

/-! ### A whole definition -/

/-- A text that is written is read back if its type and its default are told apart again. -/
theorem ofText?_sql_iff (hbody : Trimmed (d.dataType ++ defaultSql d.default)) (hne : d.dataType ≠ [])
    (hkeyword : startsWithKeyword d.dataType = false)
    (hsilent : d.nullable = true → Silent (words (d.dataType ++ defaultSql d.default))) :
    ofText? d.sql = some d ↔ typeAndDefault (d.dataType ++ defaultSql d.default) = (d.dataType, d.default) := by
  have hbne : d.dataType ++ defaultSql d.default ≠ [] := by simp [hne]
  rw [ofText?_eq_some_iff, sql, trim_eq_self (trimmed_append_nullSql hbody hbne d.nullable),
    nullability_append_nullSql hbody hbne hsilent]
  constructor
  · rintro ⟨remainder, e, ht, -⟩
    obtain ⟨-, rfl⟩ := Prod.mk.inj e
    exact ht
  · exact fun ht => ⟨_, rfl, ht, hne, hkeyword⟩

/-- What is known of a definition that has been read, and of the text it is written as but for the end. -/
structure Read (text : List Char) (d : Definition) (remainder : List Char) : Prop where
  nullability_eq : nullability (trim text) = (d.nullable, remainder)
  typeAndDefault_eq : typeAndDefault (d.dataType ++ defaultSql d.default) = (d.dataType, d.default)
  dataType_ne_nil : d.dataType ≠ []
  startsWithKeyword_eq : startsWithKeyword d.dataType = false
  trimmed_dataType : Trimmed d.dataType
  opens : Opens d.dataType (trim text)
  trimmed_body : Trimmed (d.dataType ++ defaultSql d.default)
  body_ne_nil : d.dataType ++ defaultSql d.default ≠ []
  words_body : words (d.dataType ++ defaultSql d.default) = words remainder

theorem exists_read (h : ofText? text = some d) : ∃ remainder, Read text d remainder := by
  have hne : trim text ≠ [] := (ofText?_isSome_iff.1 (by rw [h]; rfl)).1
  obtain ⟨remainder, hn, ht, hT, hkey⟩ := ofText?_eq_some_iff.1 h
  obtain ⟨hr, hrne, hopens⟩ := opens_nullability (trimmed_trim text) hne
  rw [hn] at hr hrne hopens
  obtain ⟨hTt, -, hopens'⟩ := opens_typeAndDefault hr hrne
  rw [ht] at hTt hopens'
  obtain ⟨htd, hbody, hbne, hwords⟩ := typeAndDefault_written hr hrne ht
  exact ⟨remainder, hn, htd, hT, hkey, hTt, hopens'.trans hopens, hbody, hbne, hwords⟩

theorem Read.sql_ne_nil (h : Read text d remainder) : d.sql ≠ [] := by
  unfold sql
  simp [h.dataType_ne_nil]

theorem Read.trimmed_sql (h : Read text d remainder) : Trimmed d.sql :=
  trimmed_append_nullSql h.trimmed_body h.body_ne_nil d.nullable

/-- The first word of what is read is no keyword. -/
theorem Read.head_words_ne (h : Read text d remainder) : (words (trim text)).head? ≠ some "DEFAULT".toList := by
  intro hhead
  have hopens := startsWithKeyword_of_opens h.opens (words_ne_nil h.dataType_ne_nil h.trimmed_dataType.2)
  rw [h.startsWithKeyword_eq, startsWithKeyword, firstWord_eq, hhead] at hopens
  exact absurd hopens (by decide)

theorem sql_of_nullable (h : d.nullable = true) : d.sql = d.dataType ++ defaultSql d.default := by
  rw [sql, h]
  exact List.append_nil _

theorem words_sql_of_not_nullable (h : d.nullable = false) :
    words d.sql = words (d.dataType ++ defaultSql d.default) ++ ["NOT".toList, "NULL".toList] := by
  rw [sql, h, words_append_of_startsBlank (.inr startsBlank_nullSql_false), words_nullSql_false]

/-- The words that a definition is written with, by the way it ends. -/
theorem Read.words_cases (h : Read text d remainder) :
    (d.nullable = false ∧ words text = words d.sql) ∨
      (d.nullable = true ∧ words text = words d.sql ++ ["NULL".toList]) ∨
      (d.nullable = true ∧ words text = words d.sql ∧ Silent (words text)) := by
  rw [← words_trim text]
  have hn := h.nullability_eq
  rcases nullability_cases (trim text) with ⟨before, rest, e, hn', -, -, hstart, hrest⟩ |
    ⟨before, rest, e, hn', -, -, hstart, hrest, -⟩ | ⟨hn', hsilent⟩
  · obtain ⟨hnull, rfl⟩ := Prod.mk.inj (hn.symm.trans hn')
    refine .inl ⟨hnull, ?_⟩
    rw [e, words_append_of_startsBlank (.inr hstart), hrest, words_sql_of_not_nullable hnull, h.words_body]
  · obtain ⟨hnull, rfl⟩ := Prod.mk.inj (hn.symm.trans hn')
    refine .inr (.inl ⟨hnull, ?_⟩)
    rw [e, words_append_of_startsBlank (.inr hstart), hrest, sql_of_nullable hnull, h.words_body]
  · obtain ⟨hnull, rfl⟩ := Prod.mk.inj (hn.symm.trans hn')
    refine .inr (.inr ⟨hnull, ?_, hsilent⟩)
    rw [sql_of_nullable hnull, h.words_body]

/-- A definition is written with the words it is read from, but for a `NULL` at the end. -/
theorem Read.words_sql (h : Read text d remainder) :
    words text = words d.sql ∨ words text = words d.sql ++ ["NULL".toList] := by
  rcases h.words_cases with ⟨-, e⟩ | ⟨-, e⟩ | ⟨-, e, -⟩
  · exact .inl e
  · exact .inr e
  · exact .inl e

/-- But for a second `NULL` at the end, what is written without words about `NULL` has none. -/
theorem Read.silent_body (h : Read text d remainder) (hproviso : ¬ EndsNullNull (words text))
    (hnull : d.nullable = true) : Silent (words (d.dataType ++ defaultSql d.default)) := by
  rw [← sql_of_nullable hnull]
  rcases h.words_cases with ⟨hnull', -⟩ | ⟨-, e⟩ | ⟨-, e, hsilent⟩
  · rw [hnull] at hnull'
    cases hnull'
  · rw [e] at hproviso
    refine silent_of_null hproviso fun hhead => h.head_words_ne ?_
    obtain ⟨vs, hvs⟩ := List.head?_eq_some_iff.1 hhead
    rw [words_trim, e, hvs]
    rfl
  · rwa [← e]

/-- **What is written is read back**, unless the definition ends in a second `NULL`. -/
theorem Read.ofText?_sql (h : Read text d remainder) (hproviso : ¬ EndsNullNull (words text)) :
    ofText? d.sql = some d :=
  (ofText?_sql_iff h.trimmed_body h.dataType_ne_nil h.startsWithKeyword_eq (h.silent_body hproviso)).2
    h.typeAndDefault_eq

/-! ### A second `NULL` -/

/-- A definition that says nothing about `NULL` does not end in `NULL`, but for the expression of a `DEFAULT`. -/
theorem not_silent {us : List (List Char)} {y : List Char} (hy : y ≠ "DEFAULT".toList) :
    ¬ Silent (us ++ [y, "NULL".toList]) := by
  intro h
  obtain ⟨us', -, e⟩ := h.default_null (us ++ [y]) (by simp) (by simp)
  exact hy (List.singleton_inj.1 (List.append_inj' e rfl).2)

/-- A definition is written with its type before all else. -/
theorem opens_sql (d : Definition) : Opens d.dataType d.sql := by
  refine ⟨defaultSql d.default ++ nullSql d.nullable, List.append_assoc _ _ _, ?_⟩
  cases d.default with
  | some value => exact .inr rfl
  | none =>
    cases d.nullable with
    | true => exact .inl rfl
    | false => exact .inr startsBlank_nullSql_false

/-- What ends in a second `NULL` is written with the first one, and that is no part of its type any more. -/
theorem Read.ofText?_sql_ne (h : Read text d remainder) (hends : EndsNullNull (words text)) :
    ofText? d.sql ≠ some d := by
  obtain ⟨y, ⟨us, hwords⟩, hy⟩ := hends
  intro hsame
  obtain ⟨remainder', h'⟩ := exists_read hsame
  rcases h.words_cases with ⟨hnull, e⟩ | ⟨hnull, e⟩ | ⟨-, -, hsilent⟩
  · -- the words would end in `NOT NULL`
    rw [← hwords, words_sql_of_not_nullable hnull] at e
    have hlast := (List.append_inj' ((List.append_assoc us [y] _).trans e) rfl).2
    exact absurd hlast (by decide)
  · -- one `NULL` is left, and it would have to be read as part of the type again
    have hboth : words d.sql ++ ["NULL".toList] = us ++ [y, "NULL".toList] ++ ["NULL".toList] := by
      rw [← e, ← hwords]
      simp
    have hsql : words d.sql = us ++ [y, "NULL".toList] := List.append_cancel_right hboth
    rcases h'.words_cases with ⟨hnull', -⟩ | ⟨-, e'⟩ | ⟨-, -, hsilent⟩
    · rw [hnull] at hnull'
      cases hnull'
    · simpa using congrArg List.length e'
    · rw [hsql] at hsilent
      exact not_silent hy hsilent
  · rw [← hwords, ← List.singleton_append, ← List.append_assoc] at hsilent
    exact not_silent (by decide) hsilent

/-- **A definition that is written is read again**, and it is the same one unless its words ended in a second
`NULL`. -/
theorem Read.exists_ofText?_sql (h : Read text d remainder) :
    ∃ d', ofText? d.sql = some d' ∧ (d' = d ↔ ¬ EndsNullNull (words text)) := by
  have hsome : (ofText? d.sql).isSome := by
    refine ofText?_isSome_iff.2 ⟨by rw [trim_eq_self h.trimmed_sql]; exact h.sql_ne_nil, ?_⟩
    rw [startsWithKeyword_of_opens d.opens_sql (words_ne_nil h.dataType_ne_nil h.trimmed_dataType.2),
      h.startsWithKeyword_eq]
  obtain ⟨d', hread⟩ := Option.isSome_iff_exists.1 hsome
  refine ⟨d', hread, ?_⟩
  constructor
  · rintro rfl hends
    exact h.ofText?_sql_ne hends hread
  · intro hproviso
    exact Option.some.inj (hread.symm.trans (h.ofText?_sql hproviso))

/-- The clause of a column has its name and its definition. -/
theorem toSql_column (d : Definition) (name : String) :
    (d.column name).toSql.toList = name.toList ++ [' '] ++ d.sql := by
  obtain ⟨dataType, default, nullable⟩ := d
  unfold Column.toSql Column.definitionSql Definition.column sql nullSql
  cases default <;> cases nullable <;> simp [defaultSql_none, defaultSql_some]

end DdlCatalog.Definition

namespace DdlCatalog.Column

open Text

/-- **A column is written and read again**: what its clause has behind the name and a blank is a definition, and the
column that it makes is the same one unless the words of the first definition ended in a second `NULL`. -/
theorem define_written {old c : Column} {definition : String} (h : old.define definition = .ok c) :
    ∃ written : String, c.toSql = old.name ++ " " ++ written ∧
      ∀ other : Column, other.name = old.name →
        ∃ c', other.define written = .ok c' ∧
          (c' = c ↔ ¬ Definition.EndsNullNull (words definition.toList)) := by
  obtain ⟨d, hread, rfl⟩ := exists_of_define h
  obtain ⟨remainder, hr⟩ := Definition.exists_read hread
  obtain ⟨d', hread', hsame⟩ := hr.exists_ofText?_sql
  refine ⟨String.ofList d.sql, ?_, fun other hname => ⟨d'.column other.name, ?_, ?_⟩⟩
  · rw [← String.toList_inj, d.toSql_column]
    simp
  · exact define_of_some (by rwa [String.toList_ofList])
  · rw [← hsame, hname, Definition.column_inj]

/-- A second `NULL` becomes the word about `NULL` when the column is read again; the expression of a `DEFAULT` does
not. -/
theorem define_written_of_nulls :
    (∃ written, (Column.mk "a" (some "text NULL") none true).toSql = "a" ++ " " ++ written ∧
        ∃ c', (ofName "a").define written = .ok c' ∧ c' ≠ Column.mk "a" (some "text NULL") none true) ∧
      ∃ written, (Column.mk "a" (some "text") (some "NULL") true).toSql = "a" ++ " " ++ written ∧
        (ofName "a").define written = .ok (Column.mk "a" (some "text") (some "NULL") true) := by
  have htwice : (ofName "a").define "text NULL NULL" = .ok (Column.mk "a" (some "text NULL") none true) := by
    decide +kernel
  have hdefault : (ofName "a").define "text DEFAULT NULL NULL" =
      .ok (Column.mk "a" (some "text") (some "NULL") true) := by decide +kernel
  constructor
  · obtain ⟨written, hsql, hread⟩ := define_written htwice
    obtain ⟨c', hc', hsame⟩ := hread (ofName "a") rfl
    exact ⟨written, hsql, c', hc', fun e => hsame.1 e (by decide +kernel)⟩
  · obtain ⟨written, hsql, hread⟩ := define_written hdefault
    obtain ⟨c', hc', hsame⟩ := hread (ofName "a") rfl
    refine ⟨written, hsql, ?_⟩
    rw [hc', hsame.2 (by decide +kernel)]

end DdlCatalog.Column
