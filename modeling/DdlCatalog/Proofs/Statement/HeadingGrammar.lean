import DdlCatalog.Proofs.Statement.Effect
import DdlCatalog.Proofs.Statement.Heading

/-!
# The grammar of headings

* `Reading` — a statement taken apart at a heading that stands in it; `Reading.text` puts it together again;
* `Reading.eq_of_before` : at one place a statement has one reading;
* `Reading.IsFirst` — none starts farther left; `place?_eq_some_iff` : the heading that is found is that one;
* `ofCommand_eq_first` : what is found of a statement with a heading, and that nothing is done without one.
-/

namespace DdlCatalog.Heading

open Text

/-- A statement taken apart at a heading, with the blanks in it. -/
structure Reading extends Place where
  afterKeyword : Gap
  isTableName : IsTableName name
  afterName : Blanks

namespace Reading

/-- What stands behind `CREATE TABLE`. -/
def behind (r : Reading) : List Char :=
  r.afterKeyword.1 ++ r.name ++ r.afterName.1 ++ '(' :: r.list

/-- The statement that is taken apart. -/
def text (r : Reading) : List Char :=
  r.before ++ "CREATE TABLE".toList ++ r.behind

/-- The heading, taken out of the statement. -/
def heading (r : Reading) : Heading where
  table := String.ofList r.name
  rest := String.ofList (r.before ++ r.list)

/-- A reading of the text at its leftmost heading. -/
def IsFirst (r : Reading) (text : List Char) : Prop :=
  r.text = text ∧ ∀ q : Reading, q.text = text → r.before.length ≤ q.before.length

variable {r q : Reading} {text : List Char}

theorem nameAndList?_behind (r : Reading) : nameAndList? r.behind = some (r.name, r.list) :=
  nameAndList?_eq_some_iff.2
    ⟨r.isTableName, r.afterKeyword.1, r.afterName.1, r.afterKeyword.2.1, r.afterKeyword.2.2, r.afterName.2, rfl⟩

theorem exists_behind (before : List Char) {after name list : List Char}
    (h : nameAndList? after = some (name, list)) :
    ∃ r : Reading, r.toPlace = ⟨before, name, list⟩ ∧ r.behind = after := by
  obtain ⟨hname, gap, gap', hgap, hne, hgap', rfl⟩ := nameAndList?_eq_some_iff.1 h
  exact ⟨⟨⟨before, name, list⟩, ⟨gap, hgap, hne⟩, hname, ⟨gap', hgap'⟩⟩, rfl, rfl⟩

theorem isSome_nameAndList?_iff (before : List Char) {after : List Char} :
    (nameAndList? after).isSome ↔ ∃ r : Reading, r.before = before ∧ r.behind = after := by
  constructor
  · intro h
    obtain ⟨⟨name, list⟩, hfound⟩ := Option.isSome_iff_exists.1 h
    obtain ⟨r, hplace, hbehind⟩ := exists_behind before hfound
    exact ⟨r, by rw [hplace], hbehind⟩
  · rintro ⟨r, -, rfl⟩
    rw [r.nameAndList?_behind, Option.isSome_some]

/-- Behind `CREATE TABLE` there is one way to read a heading. -/
theorem eq_of_behind (hbefore : r.before = q.before) (h : r.behind = q.behind) : r = q := by
  obtain ⟨⟨before, name, list⟩, ⟨gap, hgap, hne⟩, hname, ⟨gap', hgap'⟩⟩ := r
  obtain ⟨⟨_, name₁, list₁⟩, ⟨gap₁, hgap₁, hne₁⟩, hname₁, ⟨gap₁', hgap₁'⟩⟩ := q
  obtain rfl : before = _ := hbefore
  have hname : IsTableName name := hname
  have hname₁ : IsTableName name₁ := hname₁
  have hbehind : gap ++ (name ++ (gap' ++ '(' :: list)) = gap₁ ++ (name₁ ++ (gap₁' ++ '(' :: list₁)) := by
    simpa [behind] using h
  -- Each piece ends where the next can start: blanks before a name, a name before blanks or a parenthesis.
  have hstart {n t : List Char} (hn : IsTableName n) : startsBlank (n ++ t) = false := by
    rw [startsBlank_append hn.1, startsBlank_of_solid (solid_of_isTableName hn)]
  obtain ⟨rfl, hfromName⟩ := blank_append_inj hgap hgap₁ (hstart hname) (hstart hname₁) hbehind
  have hspan : (name ++ (gap' ++ '(' :: list)).takeWhile isNameChar = name := (span_name hname hgap').1
  obtain rfl : name₁ = name := by
    rw [← hspan, hfromName, (span_name hname₁ hgap₁').1]
  have hparen {t : List Char} : startsBlank ('(' :: t) = false := by
    rw [startsBlank_cons]
    decide
  obtain ⟨rfl, hlist⟩ := blank_append_inj hgap' hgap₁' hparen hparen (List.append_cancel_left hfromName)
  obtain rfl : list = list₁ := (List.cons.inj hlist).2
  rfl

/-- At one place there is one way to read a heading. -/
theorem eq_of_before (h : r.text = q.text) (hbefore : r.before.length = q.before.length) : r = q := by
  unfold Reading.text at h
  rw [List.append_assoc, List.append_assoc] at h
  obtain ⟨hb, hrest⟩ := List.append_inj h hbefore
  exact eq_of_behind hb (List.append_cancel_left hrest)

theorem IsFirst.unique (hr : r.IsFirst text) (hq : q.IsFirst text) : r = q :=
  eq_of_before (hr.1.trans hq.1.symm) (Nat.le_antisymm (hr.2 q hq.1) (hq.2 r hr.1))

end Reading

variable {command : String} {text : List Char} {p : Place} {r : Reading}

/-! ### The heading that is found -/

/-- The heading that is found is the leftmost one. -/
theorem place?_eq_some_iff : place? text = some p ↔ ∃ r : Reading, r.IsFirst text ∧ r.toPlace = p := by
  unfold place?
  rw [searchLeft_eq_some_iff_le (by decide)]
  simp only [Option.isSome_map]
  constructor
  · rintro ⟨before, after, rfl, hsome, hfirst⟩
    obtain ⟨⟨name, list⟩, hfound, rfl⟩ := Option.map_eq_some_iff.1 hsome
    obtain ⟨r, hplace, rfl⟩ := Reading.exists_behind before hfound
    obtain rfl : r.before = before := by rw [hplace]
    refine ⟨r, ⟨rfl, fun q hq => ?_⟩, hplace⟩
    exact hfirst q.before q.behind hq.symm ((Reading.isSome_nameAndList?_iff q.before).2 ⟨q, rfl, rfl⟩)
  · rintro ⟨r, ⟨rfl, hfirst⟩, rfl⟩
    refine ⟨r.before, r.behind, rfl, by rw [r.nameAndList?_behind]; rfl, fun b a e hsome => ?_⟩
    obtain ⟨q, rfl, rfl⟩ := (Reading.isSome_nameAndList?_iff b).1 hsome
    exact hfirst q e.symm

theorem isSome_place?_iff : (place? text).isSome ↔ ∃ r : Reading, r.text = text := by
  unfold place?
  rw [isSome_searchLeft_iff (by decide)]
  simp only [Option.isSome_map]
  constructor
  · rintro ⟨before, after, rfl, hsome⟩
    obtain ⟨r, rfl, rfl⟩ := (Reading.isSome_nameAndList?_iff before).1 hsome
    exact ⟨r, rfl⟩
  · rintro ⟨r, rfl⟩
    exact ⟨r.before, r.behind, rfl, (Reading.isSome_nameAndList?_iff r.before).2 ⟨r, rfl, rfl⟩⟩

/-- A statement with a heading has a leftmost one. -/
theorem exists_isFirst (h : ∃ r : Reading, r.text = text) : ∃ r : Reading, r.IsFirst text := by
  obtain ⟨p, hp⟩ := Option.isSome_iff_exists.1 (isSome_place?_iff.2 h)
  obtain ⟨r, hr, -⟩ := place?_eq_some_iff.1 hp
  exact ⟨r, hr⟩

theorem ofCommand_of_isFirst (h : r.IsFirst command.toList) : ofCommand command = .ok r.heading :=
  ofCommand_of_place? (place?_eq_some_iff.2 ⟨r, h, rfl⟩)

theorem ofCommand_of_no_reading (h : ∀ r : Reading, r.text ≠ command.toList) :
    ofCommand command = .error (.unreadable command) := by
  refine ofCommand_of_place?_eq_none (Option.not_isSome_iff_eq_none.1 fun hsome => ?_)
  obtain ⟨r, hr⟩ := isSome_place?_iff.1 hsome
  exact h r hr

theorem ofCommand_eq_ok_iff {h : Heading} :
    ofCommand command = .ok h ↔ ∃ r : Reading, r.IsFirst command.toList ∧ h = r.heading := by
  constructor
  · intro hok
    have hreading : ∃ r : Reading, r.text = command.toList := by
      by_contra hnone
      rw [ofCommand_of_no_reading fun r hr => hnone ⟨r, hr⟩] at hok
      cases hok
    obtain ⟨r, hr⟩ := exists_isFirst hreading
    exact ⟨r, hr, Except.ok.inj (hok.symm.trans (ofCommand_of_isFirst hr))⟩
  · rintro ⟨r, hr, rfl⟩
    exact ofCommand_of_isFirst hr

/-- **The heading of a statement is the leftmost one that can be read**, and there is one way to read it; the text
before it and the text behind it stay.  Without a heading a statement is refused, and a schema stays as it is. -/
theorem ofCommand_eq_first (command : String) :
    (∀ h, ofCommand command = .ok h ↔ ∃ r : Reading, r.IsFirst command.toList ∧ h = r.heading) ∧
    ((∃ r : Reading, r.text = command.toList) → ∃! r : Reading, r.IsFirst command.toList) ∧
    ((∀ r : Reading, r.text ≠ command.toList) →
      ∃ e, ofCommand command = .error e ∧ e.causes = [] ∧ e.message = "Cannot parse command: " ++ command ∧
        ∀ s : Schema, s.create command = (s, .error e)) := by
  refine ⟨fun h => ofCommand_eq_ok_iff, fun hreading => ?_, fun hnone => ?_⟩
  · obtain ⟨r, hr⟩ := exists_isFirst hreading
    exact ⟨r, hr, fun q hq => hq.unique hr⟩
  · have herror := ofCommand_of_no_reading hnone
    exact ⟨.unreadable command, herror, rfl, rfl, fun s => Schema.create_of_no_heading s herror⟩

-- Behind the first `CREATE TABLE` stands no blank, and behind the second a word without a parenthesis.
example : ofCommand "CREATE TABLE( CREATE TABLE CREATE TABLE\u3000t(a int" =
    .ok { table := "t", rest := "CREATE TABLE( CREATE TABLE a int" } := by
  decide +kernel

end DdlCatalog.Heading
