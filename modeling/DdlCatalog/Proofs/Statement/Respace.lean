import DdlCatalog.Proofs.Statement.Layout
import DdlCatalog.Proofs.Statement.Sequence
import DdlCatalog.Proofs.Statement.Wording
import DdlCatalog.Proofs.Text.Respace

/-!
# Statements with other blanks

* `Heading.SamePlace` — the headings of two statements are found at the same place, the blanks left out;
* `ColumnList.exists_ofBody_of_respaced` : a list is cut at the same commas and closed by the same parenthesis;
* `Options.wording_inj` : what is said behind a list is told by its words, but has to be worded to the letter
  (`Options.trim_residual_eq_nil_iff`);
* `Schema.create_respaced` : with other blanks a statement makes the same table, unless they break `CREATE TABLE`,
  `WITH OIDS` or `WITHOUT OIDS`, for which it is refused.
-/

namespace DdlCatalog

open Sql Text

variable {a b : List Char}

/-! ### Headings -/

namespace Heading

/-- The headings of two statements have the same text before them, the blanks left out. -/
def SamePlace (a b : List Char) : Prop :=
  ∃ p q, place? a = some p ∧ place? b = some q ∧ letters p.before = letters q.before

variable {p q : Place} {command : String} {h : Heading}

/-- Behind `CREATE TABLE` any blanks will do. -/
theorem exists_nameAndList?_of_respaced {name list : List Char} (h : Respaced a b)
    (ha : nameAndList? a = some (name, list)) :
    ∃ list', nameAndList? b = some (name, list') ∧ Respaced list list' := by
  obtain ⟨hname, gap, gap', hgap, hgne, hgap', rfl⟩ := nameAndList?_eq_some_iff.1 ha
  obtain ⟨x, list', rfl, hx, hlist⟩ := h.split (by decide : isBlank '(' = false) rfl
  refine ⟨list', nameAndList?_eq_some_iff.2 ⟨hname, ?_⟩, hlist⟩
  have hword : IsWord name := ⟨hname.1, solid_of_isTableName hname⟩
  have hwords : words x = [name] := by
    rw [← hx.words_eq, words_append_blank hgap', words_blank_append hgap, words_of_isWord hword]
  obtain ⟨g, rest, hg, -, rfl, hrest⟩ := exists_of_words_cons hwords
  have hstart : startsBlank (g ++ (name ++ rest)) = true := by
    rw [← List.append_assoc, ← hx.startsBlank_eq, List.append_assoc]
    exact startsBlank_gap_append hgap hgne
  refine ⟨g, rest, hg, left_ne_nil hstart hword.startsBlank_append, words_eq_nil_iff.1 hrest, rfl⟩

/-- At the same place the same name is found, and what is left of the statement differs in blanks only. -/
theorem respaced_of_place? (h : Respaced a b) (hp : place? a = some p) (hq : place? b = some q)
    (hplace : letters p.before = letters q.before) :
    p.name = q.name ∧ Respaced (p.before ++ p.list) (q.before ++ q.list) := by
  obtain ⟨after, rfl, hafter⟩ := exists_of_place? hp
  obtain ⟨after', rfl, hafter'⟩ := exists_of_place? hq
  have hbefore : Respaced p.before q.before := by
    have hcut : Respaced (p.before ++ 'C' :: ("REATE TABLE".toList ++ after))
        (q.before ++ 'C' :: ("REATE TABLE".toList ++ after')) := by
      simpa using h
    exact (hcut.split_unique (by decide) (by decide) hplace).1
  have hbehind : Respaced after after' := by
    have hcut : Respaced ((p.before ++ "CREATE TABL".toList) ++ 'E' :: after)
        ((q.before ++ "CREATE TABL".toList) ++ 'E' :: after') := by
      simpa using h
    refine (hcut.split_unique (by decide) (by decide) ?_).2.2
    rw [letters_append, letters_append, hplace]
  obtain ⟨list', hlist', hlist⟩ := exists_nameAndList?_of_respaced hbehind hafter
  obtain ⟨hname, rfl⟩ := Prod.mk.inj (Option.some.inj (hlist'.symm.trans hafter'))
  exact ⟨hname, hbefore.append hlist⟩

end Heading

/-! ### Column lists -/

theorem respaced_dropTerminator (h : Respaced a b) : Respaced (dropTerminator a) (dropTerminator b) := by
  have hsuffix {a b x : List Char} (h : Respaced a b) (hx : [';'].isSuffixOf? a = some x) :
      ∃ x', [';'].isSuffixOf? b = some x' ∧ Respaced x x' := by
    have e := List.isSuffixOf?_eq_some_iff_append_eq.1 hx
    obtain ⟨x', y', rfl, hx', hy'⟩ := h.split (by decide : isBlank ';' = false) e.symm
    obtain rfl : y' = [] := hy'.eq_nil_iff.1 rfl
    exact ⟨x', List.isSuffixOf?_eq_some_iff_append_eq.2 rfl, hx'⟩
  unfold dropTerminator
  dsimp only
  have htrim := h.trimEnd
  cases hx : [';'].isSuffixOf? (trimEnd a) with
  | some x =>
    obtain ⟨x', hx', hrest⟩ := hsuffix htrim hx
    rw [hx']
    exact hrest
  | none =>
    cases hx' : [';'].isSuffixOf? (trimEnd b) with
    | some x =>
      obtain ⟨x', hx', -⟩ := hsuffix htrim.symm hx'
      rw [hx'] at hx
      cases hx
    | none => exact htrim

theorem skeleton_of_respaced (h : Respaced a b) : skeleton a = skeleton b := by
  rw [skeleton_eq_flatMap_words, h.words_eq, ← skeleton_eq_flatMap_words]

namespace ColumnList

variable {clauses : List (List Char)} {tail : List Char}

theorem exists_of_mem_right {α β : Type} {R : α → β → Prop} {xs : List α} {ys : List β} {y : β}
    (h : List.Forall₂ R xs ys) (hy : y ∈ ys) : ∃ x ∈ xs, R x y := by
  induction h with
  | nil => cases hy
  | cons hxy _ ih =>
    rcases List.mem_cons.1 hy with rfl | hy
    · exact ⟨_, List.mem_cons_self, hxy⟩
    · obtain ⟨x, hx, hR⟩ := ih hy
      exact ⟨x, List.mem_cons_of_mem _ hx, hR⟩

/-- A list is cut at the same commas and closed by the same parenthesis. -/
theorem exists_intercalate_of_respaced (h : Respaced ([','].intercalate clauses ++ ')' :: tail) b) :
    ∃ clauses' tail', b = [','].intercalate clauses' ++ ')' :: tail' ∧ List.Forall₂ Respaced clauses clauses' ∧
      Respaced tail tail' := by
  induction clauses generalizing b with
  | nil =>
    obtain ⟨tail', rfl, htail⟩ := h.of_cons (by decide : isBlank ')' = false)
    exact ⟨[], tail', rfl, .nil, htail⟩
  | cons c clauses ih =>
    cases clauses with
    | nil =>
      obtain ⟨c', tail', rfl, hc, htail⟩ := h.split (by decide : isBlank ')' = false) rfl
      exact ⟨[c'], tail', by simp, .cons (by simpa using hc) .nil, htail⟩
    | cons d clauses =>
      have e : [','].intercalate (c :: d :: clauses) ++ ')' :: tail =
          c ++ ',' :: ([','].intercalate (d :: clauses) ++ ')' :: tail) := by
        simp [List.intercalate_cons_cons]
      obtain ⟨c', rest', rfl, hc, hrest⟩ := h.split (by decide : isBlank ',' = false) e
      obtain ⟨clauses', tail', rfl, hclauses, htail⟩ := ih hrest
      cases hclauses with
      | cons hd hclauses =>
        exact ⟨c' :: _ :: _, tail', by simp [List.intercalate_cons_cons], .cons hc (.cons hd hclauses), htail⟩

/-- A list that is closed has clauses with other blanks if its text has. -/
theorem exists_ofBody_of_respaced (h : Respaced a b) (ha : ofBody a = { clauses, ending := .tail tail }) :
    ∃ clauses' tail', ofBody b = { clauses := clauses', ending := .tail tail' } ∧
      List.Forall₂ Respaced clauses clauses' ∧ Respaced tail tail' := by
  obtain ⟨hne, e⟩ := eq_intercalate_of_cutFrom ha
  rw [List.nil_append] at e
  obtain ⟨clauses', tail', rfl, hclauses, htail⟩ := exists_intercalate_of_respaced (e ▸ h)
  refine ⟨clauses', tail', ?_, hclauses, htail⟩
  refine cutFrom_intercalate atTop_nil ?_ ?_
  · rintro rfl
    cases hclauses
    exact hne rfl
  · intro c' hc'
    obtain ⟨c, hc, hrespaced⟩ := exists_of_mem_right hclauses hc'
    have hmem : c ∈ (ofBody a).clauses := by rwa [ha]
    rw [← passFrom_congr Clause.isStructural_of_isStop (skeleton_of_respaced hrespaced)]
    exact passFrom_of_mem_ofBody hmem

end ColumnList

/-! ### Options -/

namespace Options

variable {text : List Char}

theorem exists_group?_of_respaced {found : List Char × List Char} (h : Respaced a b) (ha : group? a = some found) :
    ∃ found', group? b = some found' ∧ Respaced found.2 found'.2 := by
  obtain ⟨inside, rest⟩ := found
  obtain ⟨henclosed, rfl⟩ := group?_eq_some_iff.1 ha
  obtain ⟨text, rfl, htext⟩ := h.of_cons (by decide : isBlank '(' = false)
  obtain ⟨inside', rest', rfl, hinside, hrest⟩ := htext.split (by decide : isBlank ')' = false) rfl
  have hstops : ∀ c, (c == ')') = true → isStructural c = true := by simp [isStructural]
  have henclosed' : Enclosed inside' := by
    rw [enclosed_iff, ← passFrom_congr hstops (skeleton_of_respaced hinside), ← enclosed_iff]
    exact henclosed
  exact ⟨(inside', rest'), group?_eq_some_iff.2 ⟨henclosed', rfl⟩, hrest⟩

theorem respaced_dropSemicolon (h : Respaced a b) : Respaced (dropSemicolon a) (dropSemicolon b) := by
  have hsemicolon : isBlank ';' = false := by decide
  have htrim := h.trimStart
  unfold dropSemicolon
  split
  next rest ha =>
    obtain ⟨rest', hb, hrest⟩ := (ha ▸ htrim).of_cons hsemicolon
    rw [hb]
    exact hrest
  next hno =>
    split
    next rest hb =>
      obtain ⟨rest', ha, -⟩ := (hb ▸ htrim.symm).of_cons hsemicolon
      exact absurd ha (hno rest')
    next => exact h

/-- What is left of two texts without their parents differs in blanks only. -/
theorem respaced_afterInherits (h : Respaced a b) : Respaced (afterInherits a) (afterInherits b) := by
  have htake : Option.Rel (fun f f' : List Char × List Char => Respaced f.2 f'.2) (takeInherits? a)
      (takeInherits? b) := by
    refine h.searchLeft (by decide) (by decide) fun x x' y y' hx hy => ?_
    have hy := hy.trimStart
    cases hgroup : group? (trimStart y) with
    | some found =>
      obtain ⟨found', hgroup', hrest⟩ := exists_group?_of_respaced hy hgroup
      rw [hgroup']
      exact .some (hx.append (respaced_dropSemicolon hrest))
    | none =>
      cases hgroup' : group? (trimStart y') with
      | some found =>
        obtain ⟨found', hsome, -⟩ := exists_group?_of_respaced hy.symm hgroup'
        rw [hsome] at hgroup
        cases hgroup
      | none => exact .none
  unfold afterInherits
  cases ha : takeInherits? a <;> cases hb : takeInherits? b <;> rw [ha, hb] at htake <;> cases htake
  · exact h
  next hrest => exact hrest

/-- The words of a wording tell it. -/
theorem wording_inj {oids oids' : Option Bool} (h : words (wording oids) = words (wording oids')) : oids = oids' := by
  have hinj : ∀ o o', words (oidsWords o) = words (oidsWords o') → o = o' := by decide
  have hne : ∀ o, words (oidsWords o) ≠ words [] := by decide
  rcases oids with _ | o <;> rcases oids' with _ | o'
  · rfl
  · exact absurd h.symm (hne o')
  · exact absurd h (hne o)
  · rw [hinj o o' h]

/-- With other blanks nothing is left if the wording is still the same. -/
theorem trim_residual_eq_nil_iff_of_respaced {oids : Option Bool} (h : Respaced a b)
    (ha : trim (afterInherits a) = wording oids) :
    trim (residual b) = [] ↔ trim (afterInherits a) = trim (afterInherits b) := by
  rw [trim_residual_eq_nil_iff]
  constructor
  · rintro ⟨oids', hb⟩
    have hwords : words (wording oids) = words (wording oids') := by
      rw [← ha, ← hb, words_trim, words_trim, (respaced_afterInherits h).words_eq]
    rw [ha, hb, wording_inj hwords]
  · intro e
    exact ⟨oids, e.symm.trans ha⟩

end Options

/-! ### Statements -/

/-- Two tables of one name whose columns are alike, with constraints of the same names, and which both have object
identifiers or both have not. -/
structure Table.Alike (t t' : Table) : Prop where
  name_eq : t.name = t'.name
  columns : List.Forall₂ Column.Alike t.columns t'.columns
  constraintNames : t.constraintNames = t'.constraintNames
  withOids : t.withOids = t'.withOids

namespace Heading

/-- What stands behind the column list besides the parents, the blanks around it apart. -/
def options? (h : Heading) : Option (List Char) :=
  match h.list.ending with
  | .tail text => some (trim (Options.afterInherits text))
  | .broken _ => none

/-- Two statements say the same behind their column lists, their parents apart.  These may stand between `WITH` and
`OIDS`, so it is what is left without them that counts. -/
def SameOptions (a b : String) : Prop :=
  ∃ h h', ofCommand a = .ok h ∧ ofCommand b = .ok h' ∧ h.options? = h'.options?

variable {h h' : Heading} {tail tail' : List Char} {name : String}

/-- What is read of a list that is closed. -/
theorem exists_tail_of_respaced (hrest : Respaced h.rest.toList h'.rest.toList) (ht : h.list.tail = .ok tail) :
    ∃ tail', h'.list.tail = .ok tail' ∧ Respaced tail tail' ∧
      List.Forall₂ Column.Alike (h.list.clauses.filterMap Clause.column?) (h'.list.clauses.filterMap Clause.column?) ∧
      List.Forall₂ (fun c c' : Constraint => c.name = c'.name) (h.list.clauses.filterMap Clause.constraint?)
        (h'.list.clauses.filterMap Clause.constraint?) := by
  obtain ⟨hsound, hending⟩ := ColumnList.tail_eq_ok_iff.1 ht
  have hlist : ColumnList.ofBody (dropTerminator h.rest.toList) =
      { clauses := h.list.clauses, ending := .tail tail } := by
    rw [← hending]
    rfl
  obtain ⟨clauses', tail', hlist', hclauses, htail⟩ :=
    ColumnList.exists_ofBody_of_respaced (respaced_dropTerminator hrest) hlist
  have hlist' : h'.list = { clauses := clauses', ending := .tail tail' } := hlist'
  have hdeclares := ((List.forall₂_and_left _ _).2 ⟨hsound, hclauses⟩).imp fun _ _ hc =>
    Clause.declares_of_words hc.2.words_eq hc.1
  refine ⟨tail', ColumnList.tail_eq_ok_iff.2 ⟨fun c' hc' => ?_, by rw [hlist']⟩, htail, ?_, ?_⟩
  · rw [hlist'] at hc'
    obtain ⟨c, -, hfault, -⟩ := ColumnList.exists_of_mem_right hdeclares hc'
    exact hfault
  · rw [hlist']
    exact List.rel_filterMap (fun _ _ hc => hc.2.1) hdeclares
  · rw [hlist']
    exact List.rel_filterMap (fun _ _ hc => hc.2.2) hdeclares

/-- A statement that succeeds has a closed list, and what is behind it is worded to the letter. -/
theorem exists_wording_of_answer (ha : h.answer = .ok name) :
    ∃ tail oids, h.list.tail = .ok tail ∧ trim (Options.afterInherits tail) = Options.wording oids := by
  unfold answer at ha
  cases ht : h.list.tail with
  | error e =>
    rw [ht] at ha
    cases ha
  | ok tail =>
    rw [ht] at ha
    dsimp only at ha
    split at ha
    next hresidual =>
      obtain ⟨oids, hoids⟩ := Options.trim_residual_eq_nil_iff.1 hresidual
      exact ⟨tail, oids, rfl, hoids⟩
    · cases ha

/-- At the same place headings of the same table are found. -/
theorem exists_of_samePlace {a b : String} (h : Respaced a.toList b.toList) (hplace : SamePlace a.toList b.toList) :
    ∃ h h', ofCommand a = .ok h ∧ ofCommand b = .ok h' ∧ h'.table = h.table ∧
      Respaced h.rest.toList h'.rest.toList := by
  obtain ⟨p, q, hp, hq, hletters⟩ := hplace
  obtain ⟨hname, hrest⟩ := respaced_of_place? h hp hq hletters
  refine ⟨_, _, ofCommand_of_place? hp, ofCommand_of_place? hq, by rw [hname], ?_⟩
  rwa [String.toList_ofList, String.toList_ofList]

theorem options?_of_tail (ht : h.list.tail = .ok tail) : h.options? = some (trim (Options.afterInherits tail)) := by
  unfold options?
  rw [(ColumnList.tail_eq_ok_iff.1 ht).2]

theorem answer_of_tail (ht : h.list.tail = .ok tail) :
    h.answer = if trim (Options.residual tail) = [] then .ok h.table
      else .error (.leftover h.table (String.ofList (trim (Options.residual tail)))) := by
  unfold answer
  rw [ht]

theorem withOids_change (ht : h.list.tail = .ok tail) : h.change.withOids = Options.oids? tail := by
  rw [change_of_ok ht]
  exact Option.or_none

theorem sameOptions_iff {a b : String} (hh : ofCommand a = .ok h) (hh' : ofCommand b = .ok h') :
    SameOptions a b ↔ h.options? = h'.options? := by
  constructor
  · rintro ⟨k, k', hk, hk', e⟩
    cases hk.symm.trans hh
    cases hk'.symm.trans hh'
    exact e
  · intro e
    exact ⟨h, h', hh, hh', e⟩

/-- What the wording decides when only blanks are changed in a statement that succeeds. -/
theorem answer_of_respaced (hrest : Respaced h.rest.toList h'.rest.toList) (htable : h'.table = h.table)
    (ha : h.answer = .ok name) :
    (h.options? = h'.options? → h'.answer = .ok name) ∧
      (h.options? ≠ h'.options? → ∃ left, h'.answer = .error (.leftover name left)) := by
  obtain ⟨tail, oids, ht, hwording⟩ := exists_wording_of_answer ha
  obtain ⟨tail', ht', htail, -⟩ := exists_tail_of_respaced hrest ht
  have hname : h'.table = name := htable.trans (fault?_of_answer ha).2.symm
  rw [options?_of_tail ht, options?_of_tail ht', answer_of_tail ht', hname, Ne, Option.some_inj,
    ← Options.trim_residual_eq_nil_iff_of_respaced htail hwording]
  exact ⟨fun hnone => if_pos hnone, fun hleft => ⟨_, if_neg hleft⟩⟩

/-- What two statements change that succeed and differ in blanks only. -/
theorem alike_change (hrest : Respaced h.rest.toList h'.rest.toList) (ha : h.answer = .ok name)
    (ha' : h'.answer = .ok name) :
    List.Forall₂ Column.Alike h.change.columns h'.change.columns ∧
      List.Forall₂ (fun c c' : Constraint => c.name = c'.name) h.change.constraints h'.change.constraints ∧
      h.change.withOids = h'.change.withOids := by
  obtain ⟨tail, oids, ht, hwording⟩ := exists_wording_of_answer ha
  obtain ⟨tail', ht', htail, hcolumns, hconstraints⟩ := exists_tail_of_respaced hrest ht
  obtain ⟨tail₁, oids', ht₁, hwording'⟩ := exists_wording_of_answer ha'
  obtain rfl : tail' = tail₁ := Except.ok.inj (ht'.symm.trans ht₁)
  have hwords : words (Options.wording oids) = words (Options.wording oids') := by
    rw [← hwording, ← hwording', words_trim, words_trim, (Options.respaced_afterInherits htail).words_eq]
  obtain rfl := Options.wording_inj hwords
  rw [(change_of_answer ha).1, (change_of_answer ha').1, (change_of_answer ha).2.2, (change_of_answer ha').2.2,
    withOids_change ht, withOids_change ht', (Options.oids?_of_wording hwording).1,
    (Options.oids?_of_wording hwording').1]
  exact ⟨hcolumns, hconstraints, rfl⟩

end Heading

namespace Schema

variable {name : String} {h h' : Heading} {a b : String}

theorem alike_apply {d d' : Table.Change} {t : Table} (hcolumns : List.Forall₂ Column.Alike d.columns d'.columns)
    (hmentioned : d.mentioned = none) (hmentioned' : d'.mentioned = none)
    (hconstraints : List.Forall₂ (fun c c' : Constraint => c.name = c'.name) d.constraints d'.constraints)
    (hoids : d.withOids = d'.withOids) : (d.apply t).Alike (d'.apply t) where
  name_eq := rfl
  columns := by
    unfold Table.Change.apply
    dsimp only
    rw [Table.Change.newColumns_of_none hmentioned, Table.Change.newColumns_of_none hmentioned']
    exact Named.forall₂_putAll (fun _ _ hc => hc.name_eq) hcolumns (List.forall₂_same.2 fun c _ => .refl c)
  constraintNames := by
    have hput := Named.forall₂_putAll (fun _ _ hc => hc) hconstraints
      (List.forall₂_same.2 fun c (_ : c ∈ t.constraints) => rfl)
    unfold Table.constraintNames Named.names
    rw [← List.forall₂_eq_eq_eq, List.forall₂_map_left_iff, List.forall₂_map_right_iff]
    exact hput
  withOids := by
    unfold Table.Change.apply
    dsimp only
    rw [hoids]

/-- **Blanks do not matter but in the keywords.**  Let a schema accept a statement, and let another one differ from it
in its blanks only, perhaps also in blanks between quotes.

* If its heading is found at the same place and what it says behind its list is worded the same, the schema accepts it
  too, and its table is alike.
* If its heading is found at the same place and what it says behind its list is worded in another way, it is refused
  for that.
* If it has no heading, it is refused for that. -/
theorem create_respaced (s : Schema) {a b name : String} (hab : Respaced a.toList b.toList)
    (ha : (s.create a).2 = .ok name) :
    (Heading.SamePlace a.toList b.toList → Heading.SameOptions a b →
      (s.create b).2 = .ok name ∧ ((s.create a).1.table name).Alike ((s.create b).1.table name)) ∧
    (Heading.SamePlace a.toList b.toList → ¬ Heading.SameOptions a b →
      ∃ left, (s.create b).2 = .error (.leftover name left)) ∧
    (Heading.place? b.toList = none → (s.create b).2 = .error (.unreadable b)) := by
  refine ⟨fun hplace hoptions => ?_, fun hplace hoptions => ?_, fun hnone => ?_⟩
  · obtain ⟨h, h', hh, hh', htable, hrest⟩ := Heading.exists_of_samePlace hab hplace
    rw [create_eq s hh] at ha
    dsimp only at ha
    have hb := (Heading.answer_of_respaced hrest htable ha).1 ((Heading.sameOptions_iff hh hh').1 hoptions)
    refine ⟨by rw [create_eq s hh', hb], ?_⟩
    obtain ⟨hcolumns, hconstraints, hoids⟩ := Heading.alike_change hrest ha hb
    have htable' := table_create s hh'
    rw [htable] at htable'
    rw [(Heading.fault?_of_answer ha).2, table_create s hh, htable']
    exact alike_apply hcolumns (Heading.change_of_answer ha).2.1 (Heading.change_of_answer hb).2.1 hconstraints hoids
  · obtain ⟨h, h', hh, hh', htable, hrest⟩ := Heading.exists_of_samePlace hab hplace
    rw [create_eq s hh] at ha
    dsimp only at ha
    obtain ⟨left, hb⟩ := (Heading.answer_of_respaced hrest htable ha).2
      fun e => hoptions ((Heading.sameOptions_iff hh hh').2 e)
    exact ⟨left, by rw [create_eq s hh', hb]⟩
  · rw [create_of_no_heading s (Heading.ofCommand_of_place?_eq_none hnone)]

/-- A break behind `CREATE TABLE`, one in `NOT NULL`, one in a constraint and one before the options. -/
theorem create_respaced_of_four_breaks :
    let a := "CREATE TABLE t (a int NOT NULL, CONSTRAINT k CHECK (a > 0)) WITH OIDS;"
    let b := "CREATE TABLE\n  t (a int NOT\nNULL, CONSTRAINT\tk CHECK (a > 0))\nWITH OIDS;"
    Respaced a.toList b.toList ∧ (default.create a).2 = .ok "t" ∧ Heading.SamePlace a.toList b.toList ∧
      Heading.SameOptions a b ∧ (default.create b).2 = .ok "t" ∧
      ((default.create a).1.table "t").Alike ((default.create b).1.table "t") := by
  intro a b
  have hab : Respaced a.toList b.toList := by
    have h := Respaced.behind "CREATE TABLE".toList .space ⟨"\n  ".toList, by decide⟩ <|
      .behind "t (a int NOT".toList .space ⟨['\n'], by decide⟩ <|
      .behind "NULL, CONSTRAINT".toList .space ⟨['\t'], by decide⟩ <|
      .behind "k CHECK (a > 0))".toList .space ⟨['\n'], by decide⟩ (.refl "WITH OIDS;".toList)
    simpa [a, b] using h
  have ha : (default.create a).2 = .ok "t" := by decide +kernel
  have hplace : Heading.SamePlace a.toList b.toList :=
    ⟨⟨[], ['t'], "a int NOT NULL, CONSTRAINT k CHECK (a > 0)) WITH OIDS;".toList⟩,
      ⟨[], ['t'], "a int NOT\nNULL, CONSTRAINT\tk CHECK (a > 0))\nWITH OIDS;".toList⟩, by decide +kernel,
      by decide +kernel, rfl⟩
  have hoptions : Heading.SameOptions a b :=
    ⟨⟨"t", "a int NOT NULL, CONSTRAINT k CHECK (a > 0)) WITH OIDS;"⟩,
      ⟨"t", "a int NOT\nNULL, CONSTRAINT\tk CHECK (a > 0))\nWITH OIDS;"⟩, by decide +kernel, by decide +kernel,
      by decide +kernel⟩
  obtain ⟨hb, halike⟩ := (create_respaced default hab ha).1 hplace hoptions
  exact ⟨hab, ha, hplace, hoptions, hb, halike⟩

/-- A break in `CREATE TABLE` and one in `WITH OIDS`, each of which makes a good statement fail. -/
theorem create_refuses_broken_keywords :
    let a := "CREATE TABLE t (a int) WITH OIDS;"
    let b := "CREATE\nTABLE t (a int) WITH OIDS;"
    let c := "CREATE TABLE t (a int) WITH\nOIDS;"
    Respaced a.toList b.toList ∧ Respaced a.toList c.toList ∧ (default.create a).2 = .ok "t" ∧
      (default.create b).2 = .error (.unreadable b) ∧ (default.create c).2 = .error (.leftover "t" "WITH\nOIDS") := by
  intro a b c
  have hab : Respaced a.toList b.toList := by
    have h := Respaced.behind "CREATE".toList .space ⟨['\n'], by decide⟩ (.refl "TABLE t (a int) WITH OIDS;".toList)
    simpa [a, b] using h
  have hac : Respaced a.toList c.toList := by
    have h := Respaced.behind "CREATE TABLE t (a int) WITH".toList .space ⟨['\n'], by decide⟩ (.refl "OIDS;".toList)
    simpa [a, c] using h
  exact ⟨hab, hac, by decide +kernel, by decide +kernel, by decide +kernel⟩

end Schema

end DdlCatalog
