import DdlCatalog.Proofs.Sql.Skeleton
import DdlCatalog.Proofs.Text.Search
import DdlCatalog.Statement.Options

/-!
# What options do to a table

* `Options.parents?`, `Options.oids?`, `Options.residual` — what a text says and what is left of it.  The table plays
  no part in it;
* `applyOptions_eq` : the parents and the object identifiers become what the text says and stay where it says
  nothing;
* `ParentsAt` — where a text names parents first, and `takeInherits?_eq_some_iff` : that option is the one taken out;
* `enclosed_of_parents?` : a list of parents is trimmed, and its quotes and parentheses are closed;
* `trim_residual_eq_nil_iff` : nothing is left of a text only if it is worded to the letter, its parents apart;
* `read_textWith` : options are read whatever their order, with or without a semicolon.
-/

namespace DdlCatalog

namespace Options

/-- The list of parents that a text names. -/
def parents? (text : List Char) : Option (List Char) :=
  (takeInherits? text).map Prod.fst

/-- A text without the option that names parents. -/
def afterInherits (text : List Char) : List Char :=
  ((takeInherits? text).map Prod.snd).getD text

/-- What a text says about object identifiers. -/
def oids? (text : List Char) : Option Bool :=
  (takeOids? (afterInherits text)).map Prod.fst

/-- What is left of a text without its options. -/
def residual (text : List Char) : List Char :=
  ((takeOids? (afterInherits text)).map Prod.snd).getD (afterInherits text)

end Options

namespace Table

open Options

theorem applyOptions_eq (t : Table) (text : List Char) :
    t.applyOptions text =
      ({ t with
          inherits := ((parents? text).map String.ofList).or t.inherits
          withOids := (oids? text).or t.withOids }, Options.residual text) := by
  unfold applyOptions oids? Options.residual afterInherits parents?
  rcases takeInherits? text with _ | ⟨parents, rest⟩
  · dsimp only [Option.map_none, Option.getD_none]
    rcases takeOids? text with _ | ⟨oids, rest⟩ <;> rfl
  · dsimp only [Option.map_some, Option.getD_some]
    rcases takeOids? rest with _ | ⟨oids, rest⟩ <;> rfl

end Table

namespace Options

open Sql Text

/-! ### Where parents are named -/

/-- A list of parents between its parentheses, with blanks before it. -/
structure ParentList where
  gap : Blanks
  inside : List Char
  enclosed : Enclosed inside

def ParentList.text (p : ParentList) : List Char :=
  "INHERITS".toList ++ p.gap.1 ++ '(' :: p.inside ++ [')']

/-- The semicolon that may end the option, with the blanks before it. -/
def ending : Option Blanks → List Char
  | none => []
  | some gap => gap.1 ++ [';']

/-- The next character that is no blank is no semicolon. -/
def NoSemicolon (text : List Char) : Prop := (trimStart text).head? ≠ some ';'

/-- The option that names parents, with a semicolon or without one. -/
def ParentList.textWith (semicolon : Option Blanks) (p : ParentList) : List Char :=
  p.text ++ ending semicolon

/-- Where a text names parents first: the text before the option, the option and the text behind it. -/
structure ParentsAt (text before : List Char) (p : ParentList) (semicolon : Option Blanks) (after : List Char) :
    Prop where
  eq : text = before ++ p.textWith semicolon ++ after
  first : ∀ b (q : ParentList) a, text = b ++ q.text ++ a → before.length ≤ b.length
  /-- A semicolon that is next belongs to the option. -/
  greedy : semicolon = none → NoSemicolon after

section Parents

variable {a b rest text before after : List Char} {semicolon : Option Blanks} {p : ParentList}

@[simp] theorem ending_none : ending none = [] := rfl

@[simp] theorem ParentList.textWith_none (p : ParentList) : p.textWith none = p.text := List.append_nil _

/-- The semicolon of an option stands at the start of what follows its list. -/
theorem ParentsAt.eq_text (h : ParentsAt text before p semicolon after) :
    text = before ++ p.text ++ (ending semicolon ++ after) := by
  rw [h.eq]
  simp [ParentList.textWith]

theorem dropSemicolon_eq_iff :
    dropSemicolon text = rest ↔
      ∃ semicolon, text = ending semicolon ++ rest ∧ (semicolon = none → NoSemicolon rest) := by
  unfold dropSemicolon
  constructor
  · intro h
    split at h
    next left hleft =>
      obtain ⟨gap, hgap, e⟩ := exists_eq_trimStart text
      obtain rfl := h
      refine ⟨some ⟨gap, hgap⟩, ?_, (fun hnone => nomatch hnone)⟩
      rw [e, hleft]
      exact (List.append_assoc gap [';'] left).symm
    next hno =>
      obtain rfl := h
      refine ⟨none, rfl, fun _ hhead => ?_⟩
      obtain ⟨left, hleft⟩ := List.head?_eq_some_iff.1 hhead
      exact hno left hleft
  · rintro ⟨semicolon, rfl, hgreedy⟩
    cases semicolon with
    | some gap =>
      have htrim : trimStart (ending (some gap) ++ rest) = ';' :: rest := by
        rw [ending, List.append_assoc, trimStart_append_of_blank gap.2]
        exact trimStart_eq_self (by rw [List.singleton_append, startsBlank_cons]; decide)
      rw [htrim]
      rfl
    | none =>
      rw [ending_none, List.nil_append]
      split
      next left hleft => exact absurd (by rw [hleft]; rfl) (hgreedy rfl)
      · rfl

/-- The text before the list and the text behind it, as a search for the keyword meets them. -/
theorem ParentList.append_text (a : List Char) (p : ParentList) (b : List Char) :
    a ++ p.text ++ b = a ++ "INHERITS".toList ++ (p.gap.1 ++ '(' :: (p.inside ++ ')' :: b)) := by
  unfold ParentList.text
  generalize "INHERITS".toList = word
  simp

theorem group?_parentList (p : ParentList) :
    group? (trimStart (p.gap.1 ++ '(' :: (p.inside ++ ')' :: b))) = some (p.inside, b) := by
  have hstart : startsBlank ('(' :: (p.inside ++ ')' :: b)) = false := by
    rw [startsBlank_cons]
    decide
  rw [trimStart_append_of_blank p.gap.2, trimStart_eq_self hstart]
  exact group?_eq_some_iff.2 ⟨p.enclosed, rfl⟩

theorem exists_parentList {inside : List Char} (h : group? (trimStart after) = some (inside, rest)) :
    ∃ p : ParentList, p.inside = inside ∧ after = p.gap.1 ++ '(' :: (p.inside ++ ')' :: rest) := by
  obtain ⟨henclosed, e⟩ := group?_eq_some_iff.1 h
  obtain ⟨gap, hgap, htrim⟩ := exists_eq_trimStart after
  exact ⟨⟨⟨gap, hgap⟩, inside, henclosed⟩, rfl, by rw [htrim, e]⟩

theorem isSome_group?_iff :
    (group? (trimStart after)).isSome ↔
      ∃ (p : ParentList) (b : List Char), after = p.gap.1 ++ '(' :: (p.inside ++ ')' :: b) := by
  constructor
  · intro h
    obtain ⟨⟨inside, b⟩, hgroup⟩ := Option.isSome_iff_exists.1 h
    obtain ⟨p, -, e⟩ := exists_parentList hgroup
    exact ⟨p, b, e⟩
  · rintro ⟨p, b, rfl⟩
    rw [group?_parentList, Option.isSome_some]

/-- **The first option that names parents is taken out**, with its semicolon. -/
theorem takeInherits?_eq_some_iff {parents : List Char} :
    takeInherits? text = some (parents, rest) ↔
      ∃ before p semicolon after, ParentsAt text before p semicolon after ∧ parents = trim p.inside ∧
        rest = before ++ after := by
  unfold takeInherits?
  rw [searchLeft_eq_some_iff_le (by decide)]
  simp only [Option.isSome_map, isSome_group?_iff]
  constructor
  · rintro ⟨before, after, rfl, hsome, hfirst⟩
    obtain ⟨⟨inside, left⟩, hgroup, e⟩ := Option.map_eq_some_iff.1 hsome
    cases e
    obtain ⟨p, rfl, rfl⟩ := exists_parentList hgroup
    obtain ⟨semicolon, hleft, hgreedy⟩ := dropSemicolon_eq_iff.1 (rfl : dropSemicolon left = _)
    refine ⟨before, p, semicolon, dropSemicolon left, ⟨?_, fun b q a e => ?_, hgreedy⟩, rfl, rfl⟩
    · rw [← p.append_text]
      conv_lhs => rw [hleft]
      simp [ParentList.textWith]
    · exact hfirst b _ (e.trans (q.append_text b a)) ⟨q, a, rfl⟩
  · rintro ⟨before, p, semicolon, after, hat, rfl, rfl⟩
    have hdrop : dropSemicolon (ending semicolon ++ after) = after :=
      dropSemicolon_eq_iff.2 ⟨semicolon, rfl, hat.greedy⟩
    refine ⟨before, _, hat.eq_text.trans (p.append_text _ _), ?_, ?_⟩
    · rw [group?_parentList, Option.map_some]
      dsimp only
      rw [hdrop]
    · rintro b _ e ⟨q, a, rfl⟩
      exact hat.first b q a (e.trans (q.append_text b a).symm)

theorem isSome_takeInherits?_iff :
    (takeInherits? text).isSome ↔ ∃ (b : List Char) (q : ParentList) (a : List Char), text = b ++ q.text ++ a := by
  unfold takeInherits?
  rw [isSome_searchLeft_iff (by decide)]
  simp only [Option.isSome_map, isSome_group?_iff]
  constructor
  · rintro ⟨b, _, e, q, a, rfl⟩
    exact ⟨b, q, a, e.trans (q.append_text b a).symm⟩
  · rintro ⟨b, q, a, e⟩
    exact ⟨b, _, e.trans (q.append_text b a), q, a, rfl⟩

theorem takeInherits?_eq_none_iff :
    takeInherits? text = none ↔ ∀ b (q : ParentList) a, text ≠ b ++ q.text ++ a := by
  rw [← Option.not_isSome_iff_eq_none, isSome_takeInherits?_iff]
  simp only [not_exists, ne_eq]

/-- Parents are named first at one place. -/
theorem ParentsAt.unique {before' after' : List Char} {p' : ParentList} {semicolon' : Option Blanks}
    (h : ParentsAt text before p semicolon after) (h' : ParentsAt text before' p' semicolon' after') :
    before = before' ∧ after = after' := by
  have hsome := takeInherits?_eq_some_iff.2 ⟨before, p, semicolon, after, h, rfl, rfl⟩
  rw [takeInherits?_eq_some_iff.2 ⟨before', p', semicolon', after', h', rfl, rfl⟩] at hsome
  have hrest : before' ++ after' = before ++ after := (Prod.mk.inj (Option.some.inj hsome)).2
  have hle := h.first before' p' _ h'.eq_text
  have hge := h'.first before p _ h.eq_text
  exact List.append_inj hrest.symm (Nat.le_antisymm hle hge)

/-- An option behind a text that avoids its keyword is the first one. -/
theorem ParentsAt.of_avoids (h : Avoids "INHERITS".toList before) (p : ParentList) (semicolon : Option Blanks)
    (hgreedy : semicolon = none → NoSemicolon after) :
    ParentsAt (before ++ p.textWith semicolon ++ after) before p semicolon after where
  eq := rfl
  first b q a e := by
    rw [q.append_text, List.append_assoc] at e
    exact h.le_length e
  greedy := hgreedy

theorem takeInherits?_eq_none (h : Avoids "INHERITS".toList a) : takeInherits? a = none :=
  searchLeft_eq_none_of_avoids (by decide) h

theorem enclosed_of_parents? {parents : List Char} (h : parents? text = some parents) :
    Enclosed parents ∧ Trimmed parents := by
  unfold parents? at h
  obtain ⟨⟨parents, rest⟩, hfound, rfl⟩ := Option.map_eq_some_iff.1 h
  obtain ⟨-, p, -, -, -, rfl, -⟩ := takeInherits?_eq_some_iff.1 hfound
  exact ⟨(enclosed_congr (skeleton_trim p.inside)).2 p.enclosed, trimmed_trim p.inside⟩

end Parents

/-! ### What is said about object identifiers -/

variable {a b rest : List Char}

/-- The wording of what a text says about object identifiers. -/
def oidsWords : Bool → List Char
  | true => "WITH OIDS".toList
  | false => "WITHOUT OIDS".toList

theorem trimmed_oidsWords (oids : Bool) : Trimmed (oidsWords oids) := by
  cases oids <;> decide

theorem noSemicolon_of_allBlank (h : AllBlank a) : NoSemicolon a := by
  rw [NoSemicolon, trimStart_eq_nil h]
  simp

theorem noSemicolon_oidsWords (h : AllBlank a) (oids : Bool) : NoSemicolon (a ++ oidsWords oids ++ b) := by
  rw [NoSemicolon, List.append_assoc, trimStart_append_of_blank h]
  cases oids <;> exact fun hhead => nomatch hhead

theorem avoids_oidsWords (oids : Bool) : Avoids "INHERITS".toList (oidsWords oids) := by
  cases oids <;> decide

theorem takeOids?_of_allBlank (h : AllBlank a) : takeOids? a = none := by
  have h1 : take? "WITH OIDS".toList a = none :=
    searchLeft_eq_none_of_avoids (by decide) (avoids_of_allBlank (by decide) (by decide) h)
  have h2 : take? "WITHOUT OIDS".toList a = none :=
    searchLeft_eq_none_of_avoids (by decide) (avoids_of_allBlank (by decide) (by decide) h)
  rw [takeOids?, h1]
  dsimp only
  rw [h2]
  rfl

theorem takeOids?_oidsWords (ha : AllBlank a) (hb : AllBlank b) (oids : Bool) :
    takeOids? (a ++ oidsWords oids ++ b) = some (oids, a ++ b) := by
  have hblank {word : List Char} (hne : word ≠ []) (hw : startsBlank word = false) {t : List Char} (h : AllBlank t) :
      Avoids word t := avoids_of_allBlank hne hw h
  cases oids with
  | true =>
    have h1 : take? "WITH OIDS".toList (a ++ oidsWords true ++ b) = some (a ++ b) :=
      searchLeft_of_avoids (by decide) (hblank (by decide) (by decide) ha) rfl
    rw [takeOids?, h1]
  | false =>
    have h1 : take? "WITH OIDS".toList (a ++ oidsWords false ++ b) = none := by
      refine searchLeft_eq_none_of_avoids (by decide) (.append (.append ?_ (by decide)) ?_)
      · exact hblank (by decide) (by decide) ha
      · exact hblank (by decide) (by decide) hb
    have h2 : take? "WITHOUT OIDS".toList (a ++ oidsWords false ++ b) = some (a ++ b) :=
      searchLeft_of_avoids (by decide) (hblank (by decide) (by decide) ha) rfl
    rw [takeOids?, h1]
    dsimp only
    rw [h2]
    rfl

/-! ### Texts of which nothing is left -/

section Left

variable {text : List Char}

/-- What a statement may say about object identifiers, to the letter. -/
def wording : Option Bool → List Char
  | none => []
  | some oids => oidsWords oids

theorem trim_wording (ha : AllBlank a) (hb : AllBlank b) (oids : Option Bool) :
    trim (a ++ wording oids ++ b) = wording oids := by
  cases oids with
  | none => exact trim_eq_nil (by simp [wording, ha, hb])
  | some oids => exact trim_pad ha hb (trimmed_oidsWords oids)

theorem exists_of_take? {word rest : List Char} (hne : word ≠ []) (h : take? word text = some rest) :
    ∃ before after, text = before ++ word ++ after ∧ rest = before ++ after := by
  obtain ⟨before, after, e, hsome, -⟩ := (searchLeft_eq_some_iff hne).1 h
  exact ⟨before, after, e, (Option.some.inj hsome).symm⟩

/-- What is said about object identifiers is taken out to the letter. -/
theorem exists_of_takeOids? {oids : Bool} {rest : List Char} (h : takeOids? text = some (oids, rest)) :
    ∃ before after, text = before ++ oidsWords oids ++ after ∧ rest = before ++ after := by
  unfold takeOids? at h
  split at h
  next hwith =>
    cases h
    exact exists_of_take? (show oidsWords true ≠ [] by decide) hwith
  next =>
    obtain ⟨rest', hwithout, e⟩ := Option.map_eq_some_iff.1 h
    cases e
    exact exists_of_take? (show oidsWords false ≠ [] by decide) hwithout

theorem oids?_of_wording {oids : Option Bool} (h : trim (afterInherits text) = wording oids) :
    oids? text = oids ∧ trim (residual text) = [] := by
  unfold residual oids?
  generalize afterInherits text = left at h ⊢
  cases oids with
  | none =>
    rw [takeOids?_of_allBlank (trim_eq_nil_iff.1 h)]
    exact ⟨rfl, h⟩
  | some oids =>
    obtain ⟨x, y, hx, hy, e⟩ := exists_eq_trim left
    rw [e, h, wording, takeOids?_oidsWords hx hy]
    exact ⟨rfl, trim_eq_nil (allBlank_append.2 ⟨hx, hy⟩)⟩

/-- **Nothing is left of a text only if it is worded to the letter**, its parents apart. -/
theorem trim_residual_eq_nil_iff :
    trim (residual text) = [] ↔ ∃ oids, trim (afterInherits text) = wording oids := by
  constructor
  · intro h
    unfold residual at h
    cases htake : takeOids? (afterInherits text) with
    | none =>
      rw [htake] at h
      exact ⟨none, h⟩
    | some found =>
      obtain ⟨oids, rest⟩ := found
      obtain ⟨before, after, e, rfl⟩ := exists_of_takeOids? htake
      rw [htake] at h
      have hblank : AllBlank (before ++ after) := trim_eq_nil_iff.1 h
      obtain ⟨hbefore, hafter⟩ := allBlank_append.1 hblank
      refine ⟨some oids, ?_⟩
      rw [e]
      exact trim_wording hbefore hafter (some oids)
  · rintro ⟨oids, h⟩
    exact (oids?_of_wording h).2

end Left

/-! ### Options as they are laid out -/

/-- The options of a table in one of their orders. -/
inductive Layout where
  | none
  | parents (p : ParentList)
  | oids (oids : Bool)
  | parentsOids (p : ParentList) (gap : Blanks) (oids : Bool)
  | oidsParents (oids : Bool) (gap : Blanks) (p : ParentList)

namespace Layout

def text : Layout → List Char
  | none => []
  | parents p => p.text
  | oids o => oidsWords o
  | parentsOids p gap o => p.text ++ gap.1 ++ oidsWords o
  | oidsParents o gap p => oidsWords o ++ gap.1 ++ p.text

@[simp] theorem text_none : none.text = [] := rfl

@[simp] theorem text_parents (p : ParentList) : (parents p).text = p.text := rfl

@[simp] theorem text_oids (o : Bool) : (oids o).text = oidsWords o := rfl

@[simp] theorem text_parentsOids (p : ParentList) (gap : Blanks) (o : Bool) :
    (parentsOids p gap o).text = p.text ++ gap.1 ++ oidsWords o := rfl

@[simp] theorem text_oidsParents (o : Bool) (gap : Blanks) (p : ParentList) :
    (oidsParents o gap p).text = oidsWords o ++ gap.1 ++ p.text := rfl

/-- The options with a semicolon, perhaps, behind the list of parents. -/
def textWith (semicolon : Option Blanks) : Layout → List Char
  | none => []
  | parents p => p.textWith semicolon
  | oids o => oidsWords o
  | parentsOids p gap o => p.textWith semicolon ++ gap.1 ++ oidsWords o
  | oidsParents o gap p => oidsWords o ++ gap.1 ++ p.textWith semicolon

@[simp] theorem textWith_none (o : Layout) : o.textWith Option.none = o.text := by
  cases o <;> simp [textWith]

/-- The parents in some options. -/
def parents? : Layout → Option (List Char)
  | parents p | parentsOids p _ _ | oidsParents _ _ p => some (trim p.inside)
  | none | oids _ => Option.none

/-- What some options say about object identifiers. -/
def oids? : Layout → Option Bool
  | oids o | parentsOids _ _ o | oidsParents o _ _ => some o
  | none | parents _ => Option.none

end Layout

/-- What a text says, with its parents at one end of it. -/
structure Tells (text : List Char) (parents : Option (List Char)) (oids : Option Bool) : Prop where
  parents_eq : parents? text = parents
  trim_afterInherits : trim (afterInherits text) = wording oids
  atEnd : ∀ {before p semicolon after}, ParentsAt text before p semicolon after → AllBlank before ∨ AllBlank after

section Tells

variable {text before after : List Char} {semicolon : Option Blanks} {p : ParentList} {oids : Option Bool}

theorem Tells.of_avoids (h : Avoids "INHERITS".toList text) (hoids : trim text = wording oids) :
    Tells text none oids := by
  have hnone := takeInherits?_eq_none h
  refine ⟨?_, ?_, fun hat => ?_⟩
  · rw [parents?, hnone]
    rfl
  · rwa [afterInherits, hnone]
  · rw [takeInherits?_eq_some_iff.2 ⟨_, _, _, _, hat, rfl, rfl⟩] at hnone
    cases hnone

theorem Tells.of_parentsAt (h : ParentsAt text before p semicolon after) (hoids : trim (before ++ after) = wording oids)
    (hend : AllBlank before ∨ AllBlank after) : Tells text (some (trim p.inside)) oids := by
  have hsome := takeInherits?_eq_some_iff.2 ⟨before, p, semicolon, after, h, rfl, rfl⟩
  refine ⟨?_, ?_, fun hat => ?_⟩
  · rw [parents?, hsome]
    rfl
  · rwa [afterInherits, hsome]
  · obtain ⟨rfl, rfl⟩ := hat.unique h
    exact hend

/-- Options say the same in any order. -/
theorem Layout.tells (o : Layout) (semicolon : Option Blanks) (ha : AllBlank a) (hb : AllBlank b) :
    Tells (a ++ o.textWith semicolon ++ b) o.parents? o.oids? := by
  have havoid {t : List Char} (h : AllBlank t) : Avoids "INHERITS".toList t :=
    avoids_of_allBlank (by decide) (by decide) h
  cases o with
  | none =>
    have hno : AllBlank (a ++ Layout.none.textWith semicolon ++ b) := by simp [Layout.textWith, ha, hb]
    exact .of_avoids (havoid hno) (trim_eq_nil hno)
  | oids o =>
    have hno := ((havoid ha).append (avoids_oidsWords o)).append (havoid hb)
    exact .of_avoids hno (trim_wording ha hb (some o))
  | parents p =>
    have hat := ParentsAt.of_avoids (havoid ha) p semicolon fun _ => noSemicolon_of_allBlank hb
    exact .of_parentsAt hat (trim_eq_nil (allBlank_append.2 ⟨ha, hb⟩)) (.inl ha)
  | parentsOids p gap o =>
    have hat := ParentsAt.of_avoids (havoid ha) p semicolon fun _ => noSemicolon_oidsWords (b := b) gap.2 o
    have htext : a ++ (Layout.parentsOids p gap o).textWith semicolon ++ b =
        a ++ p.textWith semicolon ++ (gap.1 ++ oidsWords o ++ b) := by
      simp [Layout.textWith]
    have hleft : a ++ (gap.1 ++ oidsWords o ++ b) = (a ++ gap.1) ++ oidsWords o ++ b := by simp
    refine .of_parentsAt (htext ▸ hat) ?_ (.inl ha)
    rw [hleft]
    exact trim_wording (allBlank_append.2 ⟨ha, gap.2⟩) hb (some o)
  | oidsParents o gap p =>
    have hno := ((havoid ha).append (avoids_oidsWords o)).append (havoid gap.2)
    have hat := ParentsAt.of_avoids hno p semicolon fun _ => noSemicolon_of_allBlank hb
    have htext : a ++ (Layout.oidsParents o gap p).textWith semicolon ++ b =
        (a ++ oidsWords o ++ gap.1) ++ p.textWith semicolon ++ b := by
      simp [Layout.textWith]
    refine .of_parentsAt (htext ▸ hat) ?_ (.inr hb)
    rw [List.append_assoc]
    exact trim_wording ha (allBlank_append.2 ⟨gap.2, hb⟩) (some o)

end Tells

/-- **Options are read whatever their order**, with nothing but blanks left of their text. -/
theorem read_textWith (o : Layout) (semicolon : Option Blanks) (ha : AllBlank a) (hb : AllBlank b) :
    Options.parents? (a ++ o.textWith semicolon ++ b) = o.parents? ∧
      Options.oids? (a ++ o.textWith semicolon ++ b) = o.oids? ∧
      AllBlank (residual (a ++ o.textWith semicolon ++ b)) := by
  obtain ⟨hparents, hleft, -⟩ := o.tells semicolon ha hb
  obtain ⟨hoids, hresidual⟩ := oids?_of_wording hleft
  exact ⟨hparents, hoids, trim_eq_nil_iff.1 hresidual⟩

/-- Options without a semicolon are read as well. -/
theorem read_layout (o : Layout) (ha : AllBlank a) (hb : AllBlank b) :
    Options.parents? (a ++ o.text ++ b) = o.parents? ∧ Options.oids? (a ++ o.text ++ b) = o.oids? ∧
      AllBlank (residual (a ++ o.text ++ b)) := by
  rw [← o.textWith_none]
  exact read_textWith o .none ha hb

end Options

end DdlCatalog
