import DdlCatalog.Proofs.Catalog.Written
import DdlCatalog.Proofs.Sql.Bare

/-!
# Quotes in the expression of a default

A definition is read by its words, and a word is one inside quotes, too.

* `StandsBare w t` — the word `w` stands in `t` outside quotes;
* `Expression value` — `value` can stand behind `DEFAULT`: it leaves no quotes open, and neither `DEFAULT` nor `NULL`
  stands outside them;
* `standsBare_of_getLast?` : the last word of such a text is outside its quotes, so it is neither of the two;
* `Expression.ofText?_sql_iff`, `Column.define_default_iff` : it is read back unless `DEFAULT` is one of the words in
  its quotes.
-/

namespace DdlCatalog

namespace Definition

open Text Sql

/-- A word stands between blanks in a text, and no quotes are open before it. -/
def StandsBare (w text : List Char) : Prop :=
  ∃ before after, text = before ++ w ++ after ∧ (before = [] ∨ endsBlank before = true) ∧
    (after = [] ∨ startsBlank after = true) ∧ openMark before = none

/-- An expression with all its quotes closed and neither `DEFAULT` nor `NULL` as a word outside them. -/
structure Expression (value : List Char) : Prop where
  ne_nil : value ≠ []
  trimmed : Trimmed value
  closed : openMark value = none
  no_default : ¬ StandsBare "DEFAULT".toList value
  no_null : ¬ StandsBare "NULL".toList value

variable {text value dataType w : List Char}

theorem standsBare_iff :
    StandsBare w text ↔ ∃ n ∈ List.range (text.length + 1),
      w <+: text.drop n ∧ (text.take n = [] ∨ endsBlank (text.take n) = true) ∧
        (text.drop (n + w.length) = [] ∨ startsBlank (text.drop (n + w.length)) = true) ∧
        openMark (text.take n) = none := by
  constructor
  · rintro ⟨before, after, rfl, hb, ha, hm⟩
    have hlt : before.length < (before ++ w ++ after).length + 1 := by
      rw [List.length_append, List.length_append]
      omega
    refine ⟨before.length, List.mem_range.2 hlt, ?_⟩
    have hdrop : (before ++ w ++ after).drop (before.length + w.length) = after := by
      rw [← List.length_append, List.drop_left]
    rw [hdrop, List.append_assoc, List.drop_left, List.take_left]
    exact ⟨List.prefix_append _ _, hb, ha, hm⟩
  · rintro ⟨n, -, ⟨after, e⟩, hb, ha, hm⟩
    refine ⟨text.take n, after, ?_, hb, ?_, hm⟩
    · rw [List.append_assoc, e, List.take_append_drop]
    · rwa [← List.drop_drop, ← e, List.drop_left] at ha

instance (w text : List Char) : Decidable (StandsBare w text) := decidable_of_iff' _ standsBare_iff

/-- The last word of a text is outside its quotes if they are all closed at the end. -/
theorem standsBare_of_getLast? (hw : Unmarked w) (htrimmed : Trimmed text)
    (hclosed : openMark text = none) (hlast : (words text).getLast? = some w) : StandsBare w text := by
  obtain ⟨us, hwords⟩ := List.getLast?_eq_some_iff.1 hlast
  obtain ⟨before, gap, hgap, hb, rfl, -⟩ := exists_of_words_concat hwords
  obtain rfl : gap = [] := eq_nil_of_endsBlank hgap htrimmed.2
  rw [List.append_nil] at hclosed
  exact ⟨before, [], rfl, hb, .inl rfl, by rwa [openMark_append_of_unmarked hw] at hclosed⟩

theorem Expression.getLast?_words_ne (h : Expression value) :
    (words value).getLast? ≠ some "DEFAULT".toList ∧ (words value).getLast? ≠ some "NULL".toList :=
  ⟨fun hlast => h.no_default (standsBare_of_getLast? (by decide) h.trimmed h.closed hlast),
    fun hlast => h.no_null (standsBare_of_getLast? (by decide) h.trimmed h.closed hlast)⟩

/-! ### Reading it back -/

/-- Words that do not end in `NULL` say nothing about it. -/
theorem silent_of_getLast? {ws : List (List Char)} (h : ws.getLast? ≠ some "NULL".toList) : Silent ws := by
  constructor
  · rintro us - rfl
    exact h (by simp)
  · rintro us - rfl
    exact absurd List.getLast?_concat h

/-- The expression is told from the type if `DEFAULT` is no word of it. -/
theorem Expression.typeAndDefault_iff (h : Expression value) (hT : Trimmed dataType) (hne : dataType ≠ []) :
    typeAndDefault (dataType ++ defaultSql (some value)) = (dataType, some value) ↔
      "DEFAULT".toList ∉ words value := by
  have hbody := trimmed_append_defaultSql hT hne h.trimmed h.ne_nil
  constructor
  · intro ht hmem
    rcases typeAndDefault_cases hbody with ⟨T, V, hsplit, hs⟩ | ⟨hwhole, -⟩
    · obtain ⟨rfl, hV⟩ := Prod.mk.inj (hsplit.symm.trans ht)
      obtain rfl := Option.some.inj hV
      -- no `DEFAULT` stands before the last word, so it would be the last word, outside the quotes
      refine h.getLast?_words_ne.1 ?_
      obtain ⟨us, w, e⟩ := (List.eq_nil_or_concat (words V)).resolve_left (List.ne_nil_of_mem hmem)
      have hlast := hs.isLast
      rw [e, List.concat_eq_append] at hmem hlast ⊢
      rw [List.dropLast_concat] at hlast
      rw [List.getLast?_concat, List.mem_singleton.1 ((List.mem_append.1 hmem).resolve_left hlast)]
    · obtain ⟨-, hnone⟩ := Prod.mk.inj (hwhole.symm.trans ht)
      cases hnone
  · intro hmem
    exact typeAndDefault_of_splits hbody
      (splits_append_defaultSql hT hne h.trimmed h.ne_nil fun hdrop => hmem (List.mem_of_mem_dropLast hdrop))

/-- **An expression is read back with its type** if, and only if, `DEFAULT` is no word of it, not even one in its
quotes. -/
theorem Expression.ofText?_sql_iff (h : Expression value) (hT : Trimmed dataType) (hne : dataType ≠ [])
    (hkeyword : startsWithKeyword dataType = false) (nullable : Bool) :
    ofText? (sql { dataType, default := some value, nullable }) = some { dataType, default := some value, nullable } ↔
      "DEFAULT".toList ∉ words value := by
  have hbody := trimmed_append_defaultSql hT hne h.trimmed h.ne_nil
  have hlast : (words (dataType ++ defaultSql (some value))).getLast? ≠ some "NULL".toList := by
    rw [words_append_defaultSql, List.getLast?_append_of_ne_nil _ (by simp),
      List.getLast?_cons_of_ne_nil (words_ne_nil h.ne_nil h.trimmed.2)]
    exact h.getLast?_words_ne.2
  rw [Definition.ofText?_sql_iff hbody hne hkeyword fun _ => silent_of_getLast? hlast, h.typeAndDefault_iff hT hne]

end Definition

namespace Column

open Text Sql Definition

variable {dataType value : String}

/-- **What a column is made of with a default**: its type and its expression are the ones that are written if, and only
if, `DEFAULT` is no word of the expression.  A `NULL` in quotes is never taken for a word about `NULL`. -/
theorem define_default_iff (c : Column) (hne : dataType.toList ≠ []) (hT : Trimmed dataType.toList)
    (hkeyword : (words dataType.toList).head? ∉ [some "DEFAULT".toList, some "NOT".toList, some "NULL".toList])
    (hvalue : Expression value.toList) :
    (c.define (dataType ++ " DEFAULT " ++ value) =
        .ok { name := c.name, dataType := some dataType, default := some value, nullable := true } ↔
      "DEFAULT".toList ∉ words value.toList) ∧
    (c.define (dataType ++ " DEFAULT " ++ value ++ " NOT NULL") =
        .ok { name := c.name, dataType := some dataType, default := some value, nullable := false } ↔
      "DEFAULT".toList ∉ words value.toList) := by
  have hkey : startsWithKeyword dataType.toList = false := by
    obtain ⟨w, ws, e⟩ := List.exists_cons_of_ne_nil (words_ne_nil hne hT.2)
    rw [e] at hkeyword
    rw [startsWithKeyword, firstWord_eq, e]
    simpa using hkeyword
  have hread (nullable : Bool) := hvalue.ofText?_sql_iff hT hne hkey nullable
  have hcolumn (nullable : Bool) :
      ({ name := c.name, dataType := some dataType, default := some value, nullable } : Column) =
        Definition.column { dataType := dataType.toList, default := some value.toList, nullable } c.name := by
    simp [Definition.column]
  constructor
  · rw [hcolumn, define_eq_column_iff, ← hread true]
    have htext : (dataType ++ " DEFAULT " ++ value).toList =
        sql { dataType := dataType.toList, default := some value.toList, nullable := true } := by
      simp [sql, defaultSql_some, nullSql]
    rw [htext]
  · rw [hcolumn, define_eq_column_iff, ← hread false]
    have htext : (dataType ++ " DEFAULT " ++ value ++ " NOT NULL").toList =
        sql { dataType := dataType.toList, default := some value.toList, nullable := false } := by
      simp [sql, defaultSql_some, nullSql]
    rw [htext]

/-- A `NULL` with blanks around it, in quotes. -/
theorem define_default_of_quoted_null :
    (ofName "a").define "varchar(9) DEFAULT 'NOT NULL '" =
        .ok { name := "a", dataType := some "varchar(9)", default := some "'NOT NULL '", nullable := true } ∧
      (ofName "a").define "varchar(9) DEFAULT 'NOT NULL ' NOT NULL" =
        .ok { name := "a", dataType := some "varchar(9)", default := some "'NOT NULL '", nullable := false } := by
  have hvalue : Expression "'NOT NULL '".toList :=
    ⟨by decide, by decide, by decide, by decide +kernel, by decide +kernel⟩
  have h := define_default_iff (ofName "a") (show "varchar(9)".toList ≠ [] by decide) (by decide)
    (by decide +kernel) hvalue
  exact ⟨h.1.2 (by decide +kernel), h.2.2 (by decide +kernel)⟩

/-- A `DEFAULT` in quotes is the one that is found, and half of the quotes goes to the type. -/
theorem define_default_of_quoted_default :
    ("text".toList ≠ [] ∧ Trimmed "text".toList ∧ Unmarked "text".toList ∧
      words "text".toList = ["text".toList]) ∧
    Expression "'a DEFAULT b'".toList ∧
    (ofName "a").define ("text" ++ " DEFAULT " ++ "'a DEFAULT b'") =
      .ok { name := "a", dataType := some "text DEFAULT 'a", default := some "b'", nullable := true } ∧
    (ofName "a").define ("text" ++ " DEFAULT " ++ "'a DEFAULT b'") ≠
      .ok { name := "a", dataType := some "text", default := some "'a DEFAULT b'", nullable := true } ∧
    (ofName "a").define ("text" ++ " DEFAULT " ++ "'a DEFAULT b'" ++ " NOT NULL") ≠
      .ok { name := "a", dataType := some "text", default := some "'a DEFAULT b'", nullable := false } := by
  have hvalue : Expression "'a DEFAULT b'".toList :=
    ⟨by decide, by decide, by decide, by decide +kernel, by decide +kernel⟩
  exact ⟨by decide +kernel, hvalue, by decide +kernel, by decide +kernel, by decide +kernel⟩

end Column

end DdlCatalog
