import DdlCatalog.Proofs.Catalog.Define
import DdlCatalog.Proofs.Catalog.Definition
import DdlCatalog.Proofs.Text.Pieces
import Mathlib.Data.Nat.Find

/-!
# Definitions read from their words

What a definition says can be told from its words and from the places where they stand.

* `Definition.nullWords`, `Definition.defaultPlace`, `Definition.byWords?` — a definition read word by word;
* `nullWords_of_nullability` : the words about `NULL` are the ones that are taken away;
* `defaultPlace_of_splits`, `defaultPlace_eq_zero` : the `DEFAULT` that is found is the last one between words;
* `ofText?_eq_byWords` : both ways to read a definition give the same;
* `Column.define_eq_byWords` : what becomes of a column.
-/

namespace DdlCatalog

open Text

namespace Definition

/-- Whether the column may hold `NULL`, and the number of the words before those that say so. -/
def nullWords (ws : List (List Char)) : Bool × Nat :=
  if 3 ≤ ws.length ∧ ["NOT".toList, "NULL".toList] <:+ ws then (false, ws.length - 2)
  else if 2 ≤ ws.length ∧ ["NULL".toList] <:+ ws ∧ ¬ (3 ≤ ws.length ∧ ["DEFAULT".toList, "NULL".toList] <:+ ws) then
    (true, ws.length - 1)
  else (true, ws.length)

/-- The number of words before the last `DEFAULT` with words on both sides, zero if there is no such word. -/
def defaultPlace (ws : List (List Char)) : Nat :=
  Nat.findGreatest (fun place => ws[place]? = some "DEFAULT".toList ∧ place + 1 < ws.length) ws.length

/-- The definition that a text is, read word by word; none if it has no word or starts with a keyword. -/
def byWords? (text : List Char) : Option Definition :=
  let ws := words text
  if ws = [] ∨ ws.head? ∈ [some "DEFAULT".toList, some "NOT".toList, some "NULL".toList] then none
  else
    let (nullable, count) := nullWords ws
    let place := defaultPlace (ws.take count)
    if place = 0 then some { dataType := piece 0 count text, default := none, nullable }
    else
      some { dataType := piece 0 place text, default := some (piece (place + 1) (count - (place + 1)) text), nullable }

variable {text before rest remainder dataType value : List Char} {us vs ws : List (List Char)} {nullable : Bool}

/-! ### The words about `NULL` -/

theorem nullWords_notNull (hus : us ≠ []) : nullWords (us ++ ["NOT".toList, "NULL".toList]) = (false, us.length) := by
  have hlength : 3 ≤ (us ++ ["NOT".toList, "NULL".toList]).length := by
    have := List.length_pos_iff.2 hus
    simp only [List.length_append, List.length_cons, List.length_nil]
    omega
  unfold nullWords
  rw [if_pos ⟨hlength, List.suffix_append _ _⟩]
  simp

theorem exists_of_suffix {w v : List Char} (hlength : 3 ≤ ws.length) (h : [w, v] <:+ ws) :
    ∃ us, us ≠ [] ∧ ws = us ++ [w, v] := by
  obtain ⟨us, rfl⟩ := h
  refine ⟨us, ?_, rfl⟩
  rintro rfl
  simp at hlength

theorem nullWords_null (hus : us ≠ []) (hnot : ∀ us', us' ≠ [] → us ≠ us' ++ ["NOT".toList])
    (hdefault : ∀ us', us' ≠ [] → us ≠ us' ++ ["DEFAULT".toList]) :
    nullWords (us ++ ["NULL".toList]) = (true, us.length) := by
  have hends {w : List Char} (h : ∀ us', us' ≠ [] → us ≠ us' ++ [w]) :
      ¬ (3 ≤ (us ++ ["NULL".toList]).length ∧ [w, "NULL".toList] <:+ us ++ ["NULL".toList]) := by
    rintro ⟨hlength, hsuffix⟩
    obtain ⟨us', hus', e⟩ := exists_of_suffix hlength hsuffix
    exact h us' hus' (List.append_cancel_right (e.trans (List.append_assoc us' [_] [_]).symm))
  have hlength : 2 ≤ (us ++ ["NULL".toList]).length := by
    have := List.length_pos_iff.2 hus
    simp only [List.length_append, List.length_cons, List.length_nil]
    omega
  unfold nullWords
  rw [if_neg (hends hnot), if_pos ⟨hlength, List.suffix_append _ _, hends hdefault⟩]
  simp

theorem nullWords_silent (h : Silent ws) : nullWords ws = (true, ws.length) := by
  have hnot : ¬ (3 ≤ ws.length ∧ ["NOT".toList, "NULL".toList] <:+ ws) := by
    rintro ⟨hlength, hsuffix⟩
    obtain ⟨us, hus, e⟩ := exists_of_suffix hlength hsuffix
    exact h.not_notNull us hus e
  have hnull : ¬ (2 ≤ ws.length ∧ ["NULL".toList] <:+ ws ∧
      ¬ (3 ≤ ws.length ∧ ["DEFAULT".toList, "NULL".toList] <:+ ws)) := by
    rintro ⟨hlength, ⟨us, rfl⟩, hdefault⟩
    have hus : us ≠ [] := by
      rintro rfl
      simp at hlength
    obtain ⟨us', hus', rfl⟩ := h.default_null us hus rfl
    have hpos := List.length_pos_iff.2 hus'
    refine hdefault ⟨?_, us', by simp⟩
    simp only [List.length_append, List.length_cons, List.length_nil]
    omega
  unfold nullWords
  rw [if_neg hnot, if_neg hnull]

/-- The words that are left are those before the words about `NULL`. -/
theorem nullWords_of_nullability (h : nullability text = (nullable, remainder)) :
    nullWords (words text) = (nullable, (words remainder).length) := by
  rcases nullability_cases text with ⟨before, rest, e, hn, hb, hend, hs, hrest⟩ |
    ⟨before, rest, e, hn, hb, hend, hs, hrest, hnot, hdefault⟩ | ⟨hn, hsilent⟩
  · obtain ⟨rfl, rfl⟩ := Prod.mk.inj (h.symm.trans hn)
    rw [e, words_append_of_startsBlank (.inr hs), hrest]
    exact nullWords_notNull (words_ne_nil hb hend)
  · obtain ⟨rfl, rfl⟩ := Prod.mk.inj (h.symm.trans hn)
    rw [e, words_append_of_startsBlank (.inr hs), hrest]
    exact nullWords_null (words_ne_nil hb hend) hnot hdefault
  · obtain ⟨rfl, rfl⟩ := Prod.mk.inj (h.symm.trans hn)
    exact nullWords_silent hsilent

/-! ### The place of the `DEFAULT` -/

theorem defaultPlace_append (hvs : vs ≠ []) (hlast : "DEFAULT".toList ∉ vs.dropLast) :
    defaultPlace (us ++ "DEFAULT".toList :: vs) = us.length := by
  have hpos := List.length_pos_iff.2 hvs
  refine Nat.findGreatest_eq_iff.2 ⟨by simp, fun _ => ⟨by simp, ?_⟩, fun place hlt _ => ?_⟩
  · simp only [List.length_append, List.length_cons]
    omega
  · -- a later place would be one in `vs`, and not the last one
    rintro ⟨hplace, hbehind⟩
    obtain ⟨k, rfl⟩ := Nat.exists_eq_add_of_lt hlt
    rw [List.getElem?_append_right (by omega), show us.length + k + 1 - us.length = k + 1 by omega,
      List.getElem?_cons_succ] at hplace
    simp only [List.length_append, List.length_cons] at hbehind
    refine hlast (List.mem_of_getElem? (i := k) ?_)
    rw [List.getElem?_dropLast, if_pos (by omega), hplace]

theorem defaultPlace_eq_zero (h : ∀ us vs, us ≠ [] → vs ≠ [] → ws ≠ us ++ "DEFAULT".toList :: vs) :
    defaultPlace ws = 0 := by
  refine Nat.findGreatest_eq_zero_iff.2 fun place hpos _ => ?_
  rintro ⟨hplace, hbehind⟩
  obtain ⟨hlt, hword⟩ := List.getElem?_eq_some_iff.1 hplace
  refine h (ws.take place) (ws.drop (place + 1)) ?_ ?_ ?_
  · rw [ne_eq, List.take_eq_nil_iff]
    rintro (h0 | rfl)
    · omega
    · simp at hlt
  · rw [ne_eq, List.drop_eq_nil_iff]
    omega
  · rw [← hword, ← List.drop_eq_getElem_cons hlt, List.take_append_drop]

/-- The `DEFAULT` that splits a definition is the one that the words tell. -/
theorem defaultPlace_of_splits (h : Splits text dataType value) :
    defaultPlace (words text) = (words dataType).length ∧
      words text = words dataType ++ "DEFAULT".toList :: words value := by
  obtain ⟨gap, gap', hgap, hne, hgap', hne', e⟩ := h.eq
  have hwords : words text = words dataType ++ "DEFAULT".toList :: words value := by
    rw [e, words_append hne' hgap', words_append hne hgap, words_of_isWord isWord_default, List.append_assoc]
    rfl
  have hvalue : words value ≠ [] := words_ne_nil h.value_ne_nil h.trimmed_value.2
  exact ⟨by rw [hwords, defaultPlace_append hvalue h.isLast], hwords⟩

theorem defaultPlace_of_no_split (h : splitDefault? text = none) : defaultPlace (words text) = 0 := by
  rw [splitDefault?_eq, searchRight_eq_none_iff (by decide)] at h
  refine defaultPlace_eq_zero fun us vs hus hvs e => ?_
  obtain ⟨before, rest, rfl, rfl, hrest, hend, hstart⟩ := exists_of_words_append e hus (by simp)
  obtain ⟨gap, later, hgap, hlater, rfl, rfl⟩ := exists_of_words_cons hrest
  have hgapne : gap ≠ [] := by
    rw [List.append_assoc] at hstart
    exact left_ne_nil hstart isWord_default.startsBlank_append
  have hsome : typeAndValue? (before ++ gap) later = some (trim (before ++ gap), trim later) := by
    refine typeAndValue?_eq_some_iff.2 ⟨endsBlank_append_gap hgap hgapne, ?_, rfl, rfl, ?_, words_trim_ne_nil_iff.1 hvs⟩
    · exact hlater.resolve_left (ne_nil_of_words rfl hvs)
    · exact trim_append_ne_nil (words_trim_ne_nil_iff.1 hus)
  rw [h (before ++ gap) later (by simp)] at hsome
  cases hsome

/-! ### The pieces -/

variable {gap rest : List Char}

/-- A text without the words about `NULL` is cut out of the definition, whatever stands behind it. -/
theorem exists_behind (h : Opens remainder (trim text)) :
    ∃ gap rest, AllBlank gap ∧ (rest = [] ∨ startsBlank rest = true) ∧ text = gap ++ remainder ++ rest := by
  obtain ⟨rest, e, hrest⟩ := h
  obtain ⟨gap, gap', hgap, hgap', etext⟩ := exists_eq_trim text
  refine ⟨gap, rest ++ gap', hgap, ?_, by rw [etext, e]; simp⟩
  by_cases hne : rest = []
  · rw [hne, List.nil_append]
    exact or_iff_not_imp_left.2 (startsBlank_of_allBlank hgap')
  · rw [startsBlank_append hne]
    exact .inr (hrest.resolve_left hne)

theorem piece_of_trimmed (h : Trimmed remainder) (hne : remainder ≠ []) (hgap : AllBlank gap)
    (hrest : rest = [] ∨ startsBlank rest = true) :
    piece 0 (words remainder).length (gap ++ remainder ++ rest) = remainder := by
  rw [piece_zero_append (by rw [words_blank_append hgap]) (by rw [endsBlank_append hne, h.2]) hrest]
  simpa using trim_pad hgap allBlank_nil h

/-- The type and the expression stand where their words do. -/
theorem pieces_of_splits (h : Splits remainder dataType value) (hgap : AllBlank gap)
    (hrest : rest = [] ∨ startsBlank rest = true) :
    piece 0 (words dataType).length (gap ++ remainder ++ rest) = dataType ∧
      piece ((words dataType).length + 1) (words value).length (gap ++ remainder ++ rest) = value := by
  obtain ⟨gap₁, gap₂, hgap₁, hne₁, hgap₂, hne₂, rfl⟩ := h.eq
  constructor
  · have e : gap ++ (dataType ++ gap₁ ++ "DEFAULT".toList ++ gap₂ ++ value) ++ rest =
        gap ++ dataType ++ (gap₁ ++ ("DEFAULT".toList ++ gap₂ ++ value ++ rest)) := by
      simp only [List.append_assoc]
    rw [e]
    exact piece_of_trimmed h.trimmed_dataType h.dataType_ne_nil hgap (.inr (startsBlank_gap_append hgap₁ hne₁))
  · have e : gap ++ (dataType ++ gap₁ ++ "DEFAULT".toList ++ gap₂ ++ value) ++ rest =
        gap ++ dataType ++ gap₁ ++ "DEFAULT".toList ++ (gap₂ ++ value) ++ rest := by
      simp only [List.append_assoc]
    have hbefore : words (gap ++ dataType ++ gap₁ ++ "DEFAULT".toList) = words dataType ++ ["DEFAULT".toList] := by
      rw [words_append hne₁ hgap₁, words_blank_append hgap, words_of_isWord isWord_default]
    rw [e, piece_append (by rw [hbefore]; simp) (by rw [words_blank_append hgap₂]) isWord_default.endsBlank_append
      (startsBlank_gap_append hgap₂ hne₂) (by rw [endsBlank_append h.value_ne_nil, h.trimmed_value.2]) hrest]
    simpa using trim_pad hgap₂ allBlank_nil h.trimmed_value

/-! ### A whole definition -/

/-- The words tell whether a definition is refused. -/
theorem ofText?_eq_none_iff : ofText? text = none ↔
    words text = [] ∨ (words text).head? ∈ [some "DEFAULT".toList, some "NOT".toList, some "NULL".toList] := by
  rw [← Option.not_isSome_iff_eq_none, ofText?_isSome_iff, ← words_trim_ne_nil_iff, startsWithKeyword, firstWord_eq]
  cases words text with
  | nil => simp
  | cons w ws =>
    simp only [List.head?_cons, Option.getD_some, List.contains_eq_mem, decide_eq_false_iff_not, not_and_not_right]
    simp

/-- **A definition is read as its words tell.** -/
theorem ofText?_eq_byWords (text : List Char) : ofText? text = byWords? text := by
  unfold byWords?
  dsimp only
  split
  next hnone => exact ofText?_eq_none_iff.2 hnone
  next hsome =>
    obtain ⟨d, hread⟩ := Option.ne_none_iff_exists'.1 (mt ofText?_eq_none_iff.1 hsome)
    rw [hread]
    have hblank : trim text ≠ [] := (ofText?_isSome_iff.1 (by rw [hread]; rfl)).1
    obtain ⟨remainder, hn, ht, -, -⟩ := ofText?_eq_some_iff.1 hread
    obtain ⟨htrimmed, hne, hopens⟩ := opens_nullability (trimmed_trim text) hblank
    rw [hn] at htrimmed hne hopens
    have hwords : nullWords (words text) = (d.nullable, (words remainder).length) := by
      rw [← words_trim]
      exact nullWords_of_nullability hn
    have htake : (words text).take (words remainder).length = words remainder := by
      obtain ⟨ws, e⟩ := hopens.words_eq
      rw [← words_trim text, e]
      exact List.take_left
    -- pieces are counted in the whole text, so the blanks before it and the words about `NULL` come back in
    obtain ⟨gap, rest, hgap, hrest, etext⟩ := exists_behind hopens
    rw [hwords, htake]
    rcases typeAndDefault_cases htrimmed with ⟨dataType, value, hsplit, hs⟩ | ⟨hwhole, hnone⟩
    · obtain ⟨hT, hV⟩ := Prod.mk.inj (ht.symm.trans hsplit)
      obtain ⟨hplace, hws⟩ := defaultPlace_of_splits hs
      obtain ⟨hpieceT, hpieceV⟩ := pieces_of_splits hs hgap hrest
      have hpos : (words dataType).length ≠ 0 :=
        (List.length_pos_iff.2 (words_ne_nil hs.dataType_ne_nil hs.trimmed_dataType.2)).ne'
      have hcount : (words remainder).length - ((words dataType).length + 1) = (words value).length := by
        rw [hws, List.length_append, List.length_cons]
        omega
      rw [hplace, if_neg hpos, hcount, etext, hpieceT, hpieceV, ← hT, ← hV]
    · obtain ⟨hT, hV⟩ := Prod.mk.inj (ht.symm.trans hwhole)
      rw [defaultPlace_of_no_split hnone, if_pos rfl, etext, piece_of_trimmed htrimmed hne hgap hrest, ← hT, ← hV]

/-- A `NULL` behind a `DEFAULT` is an expression, and the `DEFAULT` before that belongs to the type. -/
example : byWords? "int  DEFAULT DEFAULT\tNULL".toList =
    some { dataType := "int  DEFAULT".toList, default := some "NULL".toList, nullable := true } := by decide +kernel

/-- The type and the expression are cut out of the definition. -/
theorem byWords?_isInfix {d : Definition} (h : byWords? text = some d) :
    d.dataType <:+: text ∧ ∀ value, d.default = some value → value <:+: text := by
  unfold byWords? at h
  dsimp only at h
  split at h
  · cases h
  split at h
  · cases h
    exact ⟨piece_isInfix _ _ _, by simp⟩
  · cases h
    refine ⟨piece_isInfix _ _ _, fun value hvalue => ?_⟩
    obtain rfl := Option.some.inj hvalue
    exact piece_isInfix _ _ _

end Definition

/-- What is in a table of the column that is defined. -/
theorem Table.column_defineColumn (t : Table) (name definition : String) :
    (t.defineColumn name definition).1.column name =
      match Definition.ofText? definition.toList with
      | some d => d.column name
      | none => t.column name := by
  cases h : Definition.ofText? definition.toList with
  | some d =>
    rw [defineColumn_of_some h]
    exact Named.get_put (d.column name) t.columns
  | none =>
    rw [defineColumn_of_none h]
    have hput := Named.get_put (t.column name) t.columns
    rwa [show Named.name (t.column name) = name from t.name_column name] at hput

/-- **The words of a definition tell what becomes of its column**: whether it is refused, what is said about `NULL`,
and which pieces of the definition are the type and the default. -/
theorem Column.define_eq_byWords (c : Column) (definition : String) :
    (c.define definition =
        match Definition.byWords? definition.toList with
        | some d => .ok (d.column c.name)
        | none => .error (.invalidDefinition c.name definition)) ∧
      ((∃ c', c.define definition = .ok c') ↔
        words definition.toList ≠ [] ∧
          (words definition.toList).head? ∉ [some "DEFAULT".toList, some "NOT".toList, some "NULL".toList]) ∧
      (∀ d, Definition.byWords? definition.toList = some d →
        d.dataType <:+: definition.toList ∧ ∀ value, d.default = some value → value <:+: definition.toList) ∧
      ∀ (t : Table) (name : String),
        (t.defineColumn name definition).1.column name =
          match Definition.byWords? definition.toList with
          | some d => d.column name
          | none => t.column name := by
  refine ⟨?_, ?_, fun d => Definition.byWords?_isInfix, fun t name => ?_⟩
  · rw [← Definition.ofText?_eq_byWords]
    cases h : Definition.ofText? definition.toList with
    | some d => exact define_of_some h
    | none => exact define_of_none h
  · rw [← not_or, ← Definition.ofText?_eq_none_iff]
    cases h : Definition.ofText? definition.toList with
    | some d => simp [define_of_some h]
    | none => simp [define_of_none h]
  · rw [← Definition.ofText?_eq_byWords, t.column_defineColumn]

end DdlCatalog
