import DdlCatalog.Text.Blank

/-!
# Trimmed texts

* `AllBlank t` — `t` is made of blanks only; `Solid t` — it has none;
* `Trimmed t` — neither end of `t` is a blank;
* `exists_eq_trim` : a text is its trimmed part with blanks around it, and `trim_pad` : whatever blanks are
  put around a trimmed text, trimming gives it back.  Together they say all that later proofs use of `trim`.
-/

namespace DdlCatalog.Text

/-- Nothing but blanks. -/
def AllBlank (text : List Char) : Prop := ∀ c ∈ text, isBlank c = true

/-- No blank at all. -/
def Solid (text : List Char) : Prop := ∀ c ∈ text, isBlank c = false

/-- No blank at either end. -/
def Trimmed (text : List Char) : Prop := startsBlank text = false ∧ endsBlank text = false

-- The list is walked: a search for an instance may come back with one that tries every character there is.
instance (text : List Char) : Decidable (AllBlank text) := List.decidableBAll _ text
instance (text : List Char) : Decidable (Solid text) := List.decidableBAll _ text
instance (text : List Char) : Decidable (Trimmed text) := inferInstanceAs (Decidable (_ ∧ _))

/-- Blanks, perhaps none. -/
abbrev Blanks := { text : List Char // AllBlank text }

/-- Blanks, at least one. -/
abbrev Gap := { text : List Char // AllBlank text ∧ text ≠ [] }

variable {a b text : List Char} {c : Char}

/-! ### Blank and solid texts -/

theorem ne_of_isBlank {d : Char} (hc : isBlank c = true) (hd : isBlank d = false) : c ≠ d := by
  rintro rfl
  rw [hc] at hd
  cases hd

@[simp] theorem allBlank_nil : AllBlank [] := by simp [AllBlank]

@[simp] theorem solid_nil : Solid [] := by simp [Solid]

@[simp] theorem allBlank_cons : AllBlank (c :: text) ↔ isBlank c = true ∧ AllBlank text := by
  simp [AllBlank]

@[simp] theorem solid_cons : Solid (c :: text) ↔ isBlank c = false ∧ Solid text := by
  simp [Solid]

@[simp] theorem allBlank_append : AllBlank (a ++ b) ↔ AllBlank a ∧ AllBlank b := by
  simp [AllBlank, or_imp, forall_and]

@[simp] theorem solid_append : Solid (a ++ b) ↔ Solid a ∧ Solid b := by
  simp [Solid, or_imp, forall_and]

@[simp] theorem allBlank_reverse : AllBlank text.reverse ↔ AllBlank text := by
  simp [AllBlank]

theorem solid_reverse : Solid text.reverse ↔ Solid text := by
  simp [Solid]

/-- The one blank that is written between two words. -/
theorem allBlank_space : AllBlank [' '] := by decide

def Blanks.none : Blanks := ⟨[], allBlank_nil⟩

def Blanks.space : Blanks := ⟨[' '], allBlank_space⟩

def Gap.space : Gap := ⟨[' '], allBlank_space, by simp⟩

@[simp] theorem Blanks.coe_none : Blanks.none.1 = [] := rfl

@[simp] theorem Blanks.coe_space : Blanks.space.1 = [' '] := rfl

@[simp] theorem Gap.coe_space : Gap.space.1 = [' '] := rfl

/-! ### The two ends -/

@[simp] theorem startsBlank_nil : startsBlank [] = false := rfl

@[simp] theorem endsBlank_nil : endsBlank [] = false := rfl

@[simp] theorem startsBlank_cons : startsBlank (c :: text) = isBlank c := rfl

@[simp] theorem endsBlank_concat : endsBlank (text ++ [c]) = isBlank c := by
  simp [endsBlank]

theorem startsBlank_append (h : a ≠ []) : startsBlank (a ++ b) = startsBlank a := by
  cases a with
  | nil => exact absurd rfl h
  | cons c a => rfl

theorem endsBlank_append (h : b ≠ []) : endsBlank (a ++ b) = endsBlank b := by
  rw [endsBlank_eq_startsBlank_reverse, endsBlank_eq_startsBlank_reverse, List.reverse_append]
  exact startsBlank_append (by simpa using h)

theorem startsBlank_of_allBlank (h : AllBlank text) (hne : text ≠ []) : startsBlank text = true := by
  cases text with
  | nil => exact absurd rfl hne
  | cons c text => exact (allBlank_cons.1 h).1

theorem endsBlank_of_allBlank (h : AllBlank text) (hne : text ≠ []) : endsBlank text = true := by
  rw [endsBlank_eq_startsBlank_reverse]
  exact startsBlank_of_allBlank (allBlank_reverse.2 h) (by simpa using hne)

/-- A gap of blanks between two texts. -/
theorem startsBlank_gap_append (ha : AllBlank a) (hne : a ≠ []) : startsBlank (a ++ b) = true := by
  rw [startsBlank_append hne, startsBlank_of_allBlank ha hne]

theorem endsBlank_append_gap (hb : AllBlank b) (hne : b ≠ []) : endsBlank (a ++ b) = true := by
  rw [endsBlank_append hne, endsBlank_of_allBlank hb hne]

theorem startsBlank_of_solid (h : Solid text) : startsBlank text = false := by
  cases text with
  | nil => rfl
  | cons c text => exact (solid_cons.1 h).1

theorem endsBlank_of_solid (h : Solid text) : endsBlank text = false := by
  rw [endsBlank_eq_startsBlank_reverse]
  exact startsBlank_of_solid (solid_reverse.2 h)

theorem trimmed_of_solid (h : Solid text) : Trimmed text :=
  ⟨startsBlank_of_solid h, endsBlank_of_solid h⟩

theorem ne_nil_of_startsBlank (h : startsBlank a = true) : a ≠ [] := by
  rintro rfl
  cases h

theorem ne_nil_of_endsBlank (h : endsBlank a = true) : a ≠ [] := by
  rintro rfl
  cases h

/-- A blank that the second text does not start with is in the first one. -/
theorem left_ne_nil (h : startsBlank (a ++ b) = true) (hb : startsBlank b = false) : a ≠ [] := by
  rintro rfl
  rw [List.nil_append, hb] at h
  cases h

theorem right_ne_nil (h : endsBlank (a ++ b) = true) (ha : endsBlank a = false) : b ≠ [] := by
  rintro rfl
  rw [List.append_nil, ha] at h
  cases h

theorem exists_of_startsBlank (h : startsBlank text = true) :
    ∃ c rest, isBlank c = true ∧ text = c :: rest := by
  cases text with
  | nil => simp at h
  | cons c rest => exact ⟨c, rest, h, rfl⟩

/-- Blanks that a text does not start with are none. -/
theorem eq_nil_of_startsBlank (ha : AllBlank a) (h : startsBlank (a ++ b) = false) : a = [] := by
  cases a with
  | nil => rfl
  | cons c a =>
    rw [List.cons_append, startsBlank_cons, (allBlank_cons.1 ha).1] at h
    cases h

theorem eq_nil_of_endsBlank (hb : AllBlank b) (h : endsBlank (a ++ b) = false) : b = [] := by
  rw [endsBlank_eq_startsBlank_reverse, List.reverse_append] at h
  exact List.reverse_eq_nil_iff.1 (eq_nil_of_startsBlank (allBlank_reverse.2 hb) h)

/-! ### What trimming takes away -/

theorem exists_eq_trimStart (text : List Char) : ∃ a, AllBlank a ∧ text = a ++ trimStart text := by
  refine ⟨text.takeWhile isBlank, fun c hc => ?_, by simp [trimStart]⟩
  exact List.all_eq_true.1 List.all_takeWhile c hc

theorem exists_eq_trimEnd (text : List Char) : ∃ b, AllBlank b ∧ text = trimEnd text ++ b := by
  obtain ⟨a, ha, h⟩ := exists_eq_trimStart text.reverse
  refine ⟨a.reverse, allBlank_reverse.2 ha, ?_⟩
  rw [trimEnd, ← List.reverse_append, ← h, List.reverse_reverse]

/-- A text is its trimmed part with blanks around it. -/
theorem exists_eq_trim (text : List Char) :
    ∃ a b, AllBlank a ∧ AllBlank b ∧ text = a ++ trim text ++ b := by
  obtain ⟨b, hb, h⟩ := exists_eq_trimEnd text
  obtain ⟨a, ha, h'⟩ := exists_eq_trimStart (trimEnd text)
  exact ⟨a, b, ha, hb, by rw [trim, ← h', ← h]⟩

theorem trimmed_trim (text : List Char) : Trimmed (trim text) := by
  refine ⟨startsBlank_trimStart _, ?_⟩
  obtain ⟨a, -, h⟩ := exists_eq_trimStart (trimEnd text)
  by_cases hne : trim text = []
  · rw [hne]; rfl
  · rw [← endsBlank_append (a := a) hne, trim, ← h]
    exact endsBlank_trimEnd text

theorem exists_gap_trimStart (h : startsBlank text = true) :
    ∃ gap, AllBlank gap ∧ gap ≠ [] ∧ text = gap ++ trimStart text := by
  obtain ⟨gap, hgap, e⟩ := exists_eq_trimStart text
  rw [e] at h
  exact ⟨gap, hgap, left_ne_nil h (startsBlank_trimStart text), e⟩

theorem exists_trimEnd_gap (h : endsBlank text = true) :
    ∃ gap, AllBlank gap ∧ gap ≠ [] ∧ text = trimEnd text ++ gap := by
  obtain ⟨gap, hgap, e⟩ := exists_eq_trimEnd text
  rw [e] at h
  exact ⟨gap, hgap, right_ne_nil h (endsBlank_trimEnd text), e⟩

/-- Blanks before a text and none behind it. -/
theorem exists_gap_trim (hs : startsBlank text = true) (he : endsBlank text = false) :
    ∃ gap, AllBlank gap ∧ gap ≠ [] ∧ text = gap ++ trim text := by
  obtain ⟨a, b, ha, hb, e⟩ := exists_eq_trim text
  obtain rfl : b = [] := eq_nil_of_endsBlank hb (by rwa [← e])
  rw [List.append_nil] at e
  rw [e] at hs
  exact ⟨a, ha, left_ne_nil hs (trimmed_trim text).1, e⟩

theorem exists_trim_gap (hs : startsBlank text = false) (he : endsBlank text = true) :
    ∃ gap, AllBlank gap ∧ gap ≠ [] ∧ text = trim text ++ gap := by
  obtain ⟨a, b, ha, hb, e⟩ := exists_eq_trim text
  obtain rfl : a = [] := eq_nil_of_startsBlank ha (by rwa [← List.append_assoc, ← e])
  rw [List.nil_append] at e
  rw [e] at he
  exact ⟨b, hb, right_ne_nil he (trimmed_trim text).2, e⟩

/-! ### Trimming what is trimmed but for blanks -/

theorem trimStart_eq_nil (h : AllBlank text) : trimStart text = [] := by
  rw [← List.append_nil text, trimStart_append_of_blank h]
  rfl

theorem trimEnd_append_of_blank (h : AllBlank b) : trimEnd (text ++ b) = trimEnd text := by
  rw [trimEnd, List.reverse_append, trimStart_append_of_blank (allBlank_reverse.2 h), trimEnd]

theorem trimEnd_eq_self (h : endsBlank text = false) : trimEnd text = text := by
  rw [trimEnd, trimStart_eq_self (by rwa [← endsBlank_eq_startsBlank_reverse]), List.reverse_reverse]

theorem trim_eq_self (h : Trimmed text) : trim text = text := by
  rw [trim, trimEnd_eq_self h.2, trimStart_eq_self h.1]

theorem trim_eq_nil (h : AllBlank text) : trim text = [] := by
  rw [trim, trimEnd, trimStart_eq_nil (allBlank_reverse.2 h)]
  rfl

/-- Blanks around a text do not matter. -/
theorem trim_append (ha : AllBlank a) (hb : AllBlank b) : trim (a ++ text ++ b) = trim text := by
  by_cases h : AllBlank text
  · rw [trim_eq_nil h, trim_eq_nil (by simp [ha, hb, h])]
  · obtain ⟨d, hd, e⟩ := exists_eq_trimEnd text
    have hne : trimEnd text ≠ [] := fun h0 => h (by rw [e, h0]; simpa using hd)
    have he : trimEnd (a ++ text) = a ++ trimEnd text :=
      calc trimEnd (a ++ text) = trimEnd (a ++ trimEnd text ++ d) := by rw [List.append_assoc, ← e]
        _ = trimEnd (a ++ trimEnd text) := trimEnd_append_of_blank hd
        _ = a ++ trimEnd text := trimEnd_eq_self (by rw [endsBlank_append hne, endsBlank_trimEnd])
    rw [trim, trimEnd_append_of_blank hb, he, trimStart_append_of_blank ha, trim]

/-- A trimmed text comes back from among blanks. -/
theorem trim_pad (ha : AllBlank a) (hb : AllBlank b) (h : Trimmed text) : trim (a ++ text ++ b) = text := by
  rw [trim_append ha hb, trim_eq_self h]

theorem trim_eq_nil_iff : trim text = [] ↔ AllBlank text := by
  refine ⟨fun h => ?_, trim_eq_nil⟩
  obtain ⟨a, b, ha, hb, e⟩ := exists_eq_trim text
  rw [e, h]
  simp [ha, hb]

/-! ### The first word -/

/-- The first word of a text that goes on with a blank or not at all. -/
theorem takeWhile_word (ha : Solid a) (hb : b = [] ∨ startsBlank b = true) :
    (a ++ b).takeWhile (fun c => !isBlank c) = a := by
  rw [List.takeWhile_append_of_pos (by simpa [Solid] using ha)]
  rcases hb with rfl | hb
  · simp
  · obtain ⟨c, rest, hc, rfl⟩ := exists_of_startsBlank hb
    simp [hc]

theorem dropWhile_word (ha : Solid a) (hb : b = [] ∨ startsBlank b = true) :
    (a ++ b).dropWhile (fun c => !isBlank c) = b := by
  rw [List.dropWhile_append_of_pos (by simpa [Solid] using ha)]
  rcases hb with rfl | hb
  · simp
  · obtain ⟨c, rest, hc, rfl⟩ := exists_of_startsBlank hb
    simp [hc]

/-! ### Two texts -/

/-- A character of two texts is in the one or in the other. -/
theorem append_eq_append_cons {x y : List Char} (h : a ++ b = x ++ c :: y) :
    (∃ x', x = a ++ x' ∧ b = x' ++ c :: y) ∨ ∃ chars, a = x ++ c :: chars ∧ y = chars ++ b := by
  rcases List.append_eq_append_iff.1 h with ⟨x', hx, hb⟩ | ⟨chars, ha, hrest⟩
  · exact .inl ⟨x', hx, hb⟩
  · cases chars with
    | nil => exact .inl ⟨[], by simpa using ha.symm, hrest.symm⟩
    | cons c' chars =>
      obtain ⟨rfl, rfl⟩ := List.cons.inj hrest
      exact .inr ⟨chars, ha, rfl⟩

/-- A word in two texts is in the second one, in the first one, or the end of the one and the start of the other. -/
theorem append_word_append {w x y : List Char} (h : a ++ w ++ b = x ++ y) :
    (∃ m, a = x ++ m ∧ y = m ++ w ++ b) ∨ (∃ m, x = a ++ w ++ m ∧ b = m ++ y) ∨
      ∃ u v, u ≠ [] ∧ v ≠ [] ∧ u ++ v = w ∧ x = a ++ u ∧ y = v ++ b := by
  rcases List.append_eq_append_iff.1 h with ⟨m, hx, hb⟩ | ⟨v, haw, hy⟩
  · exact .inr (.inl ⟨m, hx, hb⟩)
  · rcases List.append_eq_append_iff.1 haw with ⟨u, hx, hw⟩ | ⟨m, ha, hv⟩
    · by_cases hu : u = []
      · refine .inl ⟨[], by simp [hx, hu], by simp [hy, hw, hu]⟩
      · by_cases hv : v = []
        · exact .inr (.inl ⟨[], by simp [hx, hw, hv], by simp [hy, hv]⟩)
        · exact .inr (.inr ⟨u, v, hu, hv, hw.symm, hx, hy⟩)
    · exact .inl ⟨m, ha, by rw [hy, hv]⟩

/-- Blanks before two texts that do not start with any are told apart from them. -/
theorem blank_append_inj {x y : List Char} (ha : AllBlank a) (hb : AllBlank b) (hx : startsBlank x = false)
    (hy : startsBlank y = false) (h : a ++ x = b ++ y) : a = b ∧ x = y := by
  have hxy : x = y := by
    rw [← trimStart_eq_self hx, ← trimStart_append_of_blank ha, h, trimStart_append_of_blank hb, trimStart_eq_self hy]
  exact ⟨List.append_cancel_right (hxy ▸ h), hxy⟩

end DdlCatalog.Text
