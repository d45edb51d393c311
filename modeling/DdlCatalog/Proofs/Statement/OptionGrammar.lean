import DdlCatalog.Proofs.Statement.Options

/-!
# The grammar of options

* `Worded t` — the text `t` is made of options as they may be written;
* `Torn o t` — the option that names parents stands within `WITH OIDS` or `WITHOUT OIDS`, a part of which is on either
  side of it;
* `applyOptions_layout` : options that are worded are carried out, and nothing is left of them;
* `applyOptions_worded_iff` : a text of which nothing is left is worded, unless it is torn.
-/

namespace DdlCatalog

open Text

namespace Options

/-- Options as they may be written, with blanks around them. -/
def Worded (text : List Char) : Prop :=
  ∃ (o : Layout) (semicolon : Option Blanks) (a b : Blanks), text = a.1 ++ o.textWith semicolon ++ b.1

/-- What is said about object identifiers starts before the option that names parents and ends behind it. -/
def Torn (oids : Bool) (text : List Char) : Prop :=
  ∃ before p semicolon after x y, ParentsAt text before p semicolon after ∧ x ≠ [] ∧ y ≠ [] ∧
    x ++ y = oidsWords oids ∧ x <:+ before ∧ y <+: after

/-- What is said about object identifiers stands before the option that names parents, or behind it, or in a text
without that option. -/
def StandsApart (oids : Bool) (text : List Char) : Prop :=
  (∃ before p semicolon after, ParentsAt text before p semicolon after ∧
    (oidsWords oids <:+: before ∨ oidsWords oids <:+: after)) ∨
  (∀ b (q : ParentList) a, text ≠ b ++ q.text ++ a) ∧ oidsWords oids <:+: text

variable {text a b before after : List Char} {oids : Bool} {p : ParentList} {semicolon : Option Blanks}

/-! ### What is left without the parents -/

/-- A text without the option that names parents is what stands around it. -/
theorem afterInherits_cases (text : List Char) :
    (∃ before p semicolon after, ParentsAt text before p semicolon after ∧ afterInherits text = before ++ after) ∨
      (∀ b (q : ParentList) a, text ≠ b ++ q.text ++ a) ∧ afterInherits text = text := by
  unfold afterInherits
  cases h : takeInherits? text with
  | none => exact .inr ⟨takeInherits?_eq_none_iff.1 h, rfl⟩
  | some found =>
    obtain ⟨before, p, semicolon, after, hat, -, hrest⟩ := takeInherits?_eq_some_iff.1 h
    exact .inl ⟨before, p, semicolon, after, hat, hrest⟩

theorem infix_of_oids? (h : oids? text = some oids) : oidsWords oids <:+: afterInherits text := by
  unfold oids? at h
  obtain ⟨⟨oids, rest⟩, htake, rfl⟩ := Option.map_eq_some_iff.1 h
  obtain ⟨before, after, e, -⟩ := exists_of_takeOids? htake
  rw [e]
  exact List.infix_append before _ after

/-- What a text says about object identifiers stands in it, or it is torn. -/
theorem standsApart_or_torn (h : oids? text = some oids) : StandsApart oids text ∨ Torn oids text := by
  have hinfix := infix_of_oids? h
  rcases afterInherits_cases text with ⟨before, p, semicolon, after, hat, hleft⟩ | ⟨hnone, hleft⟩
  · rw [hleft] at hinfix
    obtain ⟨a, b, e⟩ := hinfix
    rcases append_word_append e with ⟨m, -, rfl⟩ | ⟨m, rfl, -⟩ | ⟨x, y, hx, hy, hxy, rfl, rfl⟩
    · exact .inl (.inl ⟨before, p, semicolon, _, hat, .inr (List.infix_append m _ b)⟩)
    · exact .inl (.inl ⟨_, p, semicolon, after, hat, .inl (List.infix_append a _ m)⟩)
    · exact .inr ⟨_, p, semicolon, _, x, y, hat, hx, hy, hxy, List.suffix_append a x, List.prefix_append y b⟩
  · rw [hleft] at hinfix
    exact .inl (.inr ⟨hnone, hinfix⟩)

theorem StandsApart.isInfix (h : StandsApart oids text) : oidsWords oids <:+: text := by
  rcases h with ⟨before, p, semicolon, after, hat, hbefore | hafter⟩ | ⟨-, h⟩
  · rw [hat.eq, List.append_assoc]
    exact hbefore.trans (List.prefix_append before _).isInfix
  · rw [hat.eq]
    exact hafter.trans (List.suffix_append _ after).isInfix
  · exact h

/-! ### Worded texts and texts of which nothing is left -/

theorem allBlank_residual_of_worded (h : Worded text) : AllBlank (residual text) := by
  obtain ⟨o, semicolon, a, b, rfl⟩ := h
  exact (read_textWith o semicolon a.2 b.2).2.2

/-- In a worded text nothing else stands before the parents, or nothing else behind them. -/
theorem allBlank_of_worded (h : Worded text) (hat : ParentsAt text before p semicolon after) :
    AllBlank before ∨ AllBlank after := by
  obtain ⟨o, semicolon', a, b, rfl⟩ := h
  exact (o.tells semicolon' a.2 b.2).atEnd hat

theorem not_torn_of_worded (h : Worded text) : ¬ Torn oids text := by
  rintro ⟨before, p, semicolon, after, x, y, hat, hx, hy, hxy, ⟨u, rfl⟩, ⟨v, rfl⟩⟩
  obtain ⟨hstart, hend⟩ := trimmed_oidsWords oids
  rw [← hxy] at hstart hend
  rcases allBlank_of_worded h hat with hbefore | hafter
  · exact hx (eq_nil_of_startsBlank (allBlank_append.1 hbefore).2 hstart)
  · exact hy (eq_nil_of_endsBlank (allBlank_append.1 hafter).1 hend)

/-- What stands around the parents is blank or says something about object identifiers, on one side of them. -/
theorem worded_of_allBlank_residual (h : AllBlank (residual text)) (hno : ∀ oids, ¬ Torn oids text) :
    Worded text := by
  obtain ⟨said, hsaid⟩ := trim_residual_eq_nil_iff.1 (trim_eq_nil h)
  obtain ⟨a, b, ha, hb, e⟩ := exists_eq_trim (afterInherits text)
  rw [hsaid] at e
  rcases afterInherits_cases text with ⟨before, p, semicolon, after, hat, hleft⟩ | ⟨-, hleft⟩
  · rw [hleft] at e
    cases said with
    | none =>
      have hblank : AllBlank (before ++ after) := by
        rw [e]
        simp [wording, ha, hb]
      obtain ⟨hbefore, hafter⟩ := allBlank_append.1 hblank
      exact ⟨.parents p, semicolon, ⟨before, hbefore⟩, ⟨after, hafter⟩, hat.eq⟩
    | some oids =>
      -- The words are behind the parents, or before them, or on both sides.
      rcases append_word_append e.symm with ⟨m, rfl, rfl⟩ | ⟨m, rfl, rfl⟩ | ⟨x, y, hx, hy, hxy, rfl, rfl⟩
      · obtain ⟨hbefore, hm⟩ := allBlank_append.1 ha
        refine ⟨.parentsOids p ⟨m, hm⟩ oids, semicolon, ⟨before, hbefore⟩, ⟨b, hb⟩, hat.eq.trans ?_⟩
        simp [Layout.textWith, wording]
      · obtain ⟨hm, hafter⟩ := allBlank_append.1 hb
        refine ⟨.oidsParents oids ⟨m, hm⟩ p, semicolon, ⟨a, ha⟩, ⟨after, hafter⟩, hat.eq.trans ?_⟩
        simp [Layout.textWith, wording]
      · exact absurd ⟨_, p, semicolon, _, x, y, hat, hx, hy, hxy, List.suffix_append a x, List.prefix_append y b⟩
          (hno oids)
  · rw [hleft] at e
    cases said with
    | none => exact ⟨.none, .none, ⟨a, ha⟩, ⟨b, hb⟩, e⟩
    | some oids => exact ⟨.oids oids, .none, ⟨a, ha⟩, ⟨b, hb⟩, e⟩

end Options

namespace Table

open Options

/-- **Options that are worded are carried out.**  Whatever their order and the blanks between them, and with a
semicolon behind the parents or without one, nothing but blanks is left; what they do not say stays.  No text changes
anything else in a table. -/
theorem applyOptions_layout (t : Table) :
    (∀ text, (t.applyOptions text).1.name = t.name ∧ (t.applyOptions text).1.columns = t.columns ∧
      (t.applyOptions text).1.constraints = t.constraints) ∧
    ∀ (o : Layout) (semicolon : Option Blanks) (a b : Blanks),
      AllBlank (t.applyOptions (a.1 ++ o.textWith semicolon ++ b.1)).2 ∧
      (t.applyOptions (a.1 ++ o.textWith semicolon ++ b.1)).1.inherits =
        (o.parents?.map String.ofList).or t.inherits ∧
      (t.applyOptions (a.1 ++ o.textWith semicolon ++ b.1)).1.withOids = o.oids?.or t.withOids := by
  refine ⟨fun text => ?_, fun o semicolon a b => ?_⟩
  · rw [applyOptions_eq]
    exact ⟨rfl, rfl, rfl⟩
  · obtain ⟨hparents, hoids, hresidual⟩ := read_textWith o semicolon a.2 b.2
    rw [applyOptions_eq, hparents, hoids]
    exact ⟨hresidual, rfl, rfl⟩

example : (ofName "t").applyOptions "WITHOUT OIDS INHERITS (a, (b), WITH OIDS) ;".toList =
    ({ ofName "t" with inherits := some "a, (b), WITH OIDS", withOids := some false }, " ".toList) := by
  decide +kernel

/-- **A text is worded if and only if nothing is left of it and it is not torn.**  What it says about object
identifiers stands in it outside of the parents, unless it is torn. -/
theorem applyOptions_worded_iff (t : Table) (text : List Char) :
    (Worded text ↔ AllBlank (t.applyOptions text).2 ∧ ∀ oids, ¬ Torn oids text) ∧
    ∀ oids, (t.applyOptions text).1.withOids = some oids →
      t.withOids = some oids ∨ StandsApart oids text ∨ Torn oids text := by
  rw [applyOptions_eq]
  refine ⟨⟨fun h => ?_, fun h => worded_of_allBlank_residual h.1 h.2⟩, fun oids h => ?_⟩
  · exact ⟨allBlank_residual_of_worded h, fun _ => not_torn_of_worded h⟩
  · rcases Option.or_eq_some_iff.1 h with hsaid | ⟨-, hbefore⟩
    · exact .inr (standsApart_or_torn hsaid)
    · exact .inl hbefore

/-- Parents within `WITH OIDS` bring its two parts together. -/
theorem not_worded_of_torn :
    let t := Table.ofName "t"
    let text := "WITH INHERITS (p)OIDS".toList
    t.applyOptions text = ({ t with inherits := some "p", withOids := some true }, []) ∧
      (∀ oids, ¬ oidsWords oids <:+: text) ∧ ¬ Worded text := by
  intro t text
  have happly : t.applyOptions text = ({ t with inherits := some "p", withOids := some true }, []) := by
    decide +kernel
  have hno : ∀ oids, ¬ oidsWords oids <:+: text := by decide +kernel
  refine ⟨happly, hno, fun hworded => ?_⟩
  have hsaid : oids? text = some true := by decide +kernel
  rcases standsApart_or_torn hsaid with hapart | htorn
  · exact hno true hapart.isInfix
  · exact not_torn_of_worded hworded htorn

end Table

end DdlCatalog
