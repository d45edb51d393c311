import DdlCatalog.Proofs.Sql.Split
import DdlCatalog.Proofs.Text.Octets
import DdlCatalog.Proofs.Text.Words
import DdlCatalog.Sql.Group
import Mathlib.Data.List.Induction

/-!
# Texts that can stand between two stops

* `skeleton t` — the marks, parentheses and commas of `t`.  A scanner sees nothing else, so that blanks and words can
  be put in and taken out (`passFrom_skeleton`);
* `passFrom_top_iff` : a scanner passes over a text and is at the top again if the text is enclosed and has no stop at
  the top;
* `enclosed_iff` : of the two, a search for a closing parenthesis needs only the first, so that `group?_eq_some_iff` :
  what stands in parentheses is enclosed;
* `skeleton_octets` : nothing of it is lost or added byte by byte.
-/

namespace DdlCatalog.Sql

open Text

variable {stops : Char → Bool} {n : Nesting} {a b text : List Char} {c : Char}

/-! ### Passing over enclosed texts -/

theorem level_concat_close (h : AtTop a) : level (a ++ [')']) = -1 := by
  rw [level_concat, h.1, h.2]
  decide

theorem Enclosed.noStop_close (h : Enclosed text) : NoStop (· == ')') [] text := by
  intro a c b e htop
  by_contra hc
  obtain rfl : c = ')' := by simpa using hc
  have hstarts : a ++ [')'] <+: text := ⟨b, by simp [e]⟩
  have := h.level_nonneg _ hstarts
  rw [level_concat_close (by simpa using htop)] at this
  omega

theorem passFrom_top_iff (hclose : stops ')' = true) (hmark : ∀ c, stops c = true → isMark c = false) :
    passFrom stops .top text = some .top ↔ Enclosed text ∧ NoStop stops [] text := by
  have hstart : Tracks .top [] := tracks_top atTop_nil
  rw [passFrom_eq_some_iff hclose hmark hstart]
  constructor
  · rintro ⟨hno, htracks⟩
    have htop := htracks.atTop_iff.2 rfl
    refine ⟨⟨htop.1, htop.2, fun before hb => ?_⟩, hno⟩
    -- the state at a place inside counts its level, and a count is not negative
    obtain ⟨rest, rfl⟩ := hb
    have hpass := (passFrom_eq_some_iff hclose hmark hstart).2 ⟨hno, htracks⟩
    rw [passFrom_append, Option.bind_eq_some_iff] at hpass
    obtain ⟨m, hm, -⟩ := hpass
    have := ((passFrom_eq_some_iff hclose hmark hstart).1 hm).2.2
    rw [List.nil_append] at this
    omega
  · rintro ⟨h, hno⟩
    exact ⟨hno, tracks_top h.atTop⟩

theorem enclosed_iff : Enclosed text ↔ passFrom (· == ')') .top text = some .top := by
  rw [passFrom_top_iff rfl (by simp [isMark])]
  exact ⟨fun h => ⟨h, h.noStop_close⟩, fun h => h.1⟩

instance (text : List Char) : Decidable (Enclosed text) := decidable_of_iff' _ enclosed_iff

/-- A group is a text in parentheses that encloses what is in it. -/
theorem group?_eq_some_iff {inside rest : List Char} :
    group? text = some (inside, rest) ↔ Enclosed inside ∧ text = '(' :: (inside ++ ')' :: rest) := by
  constructor
  · intro h
    unfold group? at h
    split at h
    · obtain ⟨⟨before, c, behind⟩, hcut, e⟩ := Option.map_eq_some_iff.1 h
      obtain ⟨rfl, hpass, -, hc⟩ := splitTop_eq_some_iff.1 hcut
      obtain rfl : c = ')' := by simpa using hc
      cases e
      exact ⟨enclosed_iff.2 hpass, rfl⟩
    · cases h
  · rintro ⟨h, rfl⟩
    have hsplit : splitTop (· == ')') (inside ++ ')' :: rest) = some ⟨inside, ')', rest⟩ :=
      splitTop_eq_some_iff.2 ⟨rfl, enclosed_iff.1 h, rfl, rfl⟩
    rw [group?, hsplit]
    rfl

/-! ### What a scanner sees -/

/-- Whether a character can change where a place stands or end a clause. -/
def isStructural (c : Char) : Bool :=
  isMark c || c == '(' || c == ')' || c == ','

/-- A text without everything that a scanner passes over. -/
def skeleton (text : List Char) : List Char :=
  text.filter isStructural

@[simp] theorem skeleton_nil : skeleton [] = [] := rfl

@[simp] theorem skeleton_append : skeleton (a ++ b) = skeleton a ++ skeleton b :=
  List.filter_append _ _

theorem isStructural_of_isBlank (h : isBlank c = true) : isStructural c = false := by
  by_contra hc
  simp only [isStructural, isMark, Bool.not_eq_false, Bool.or_eq_true, beq_iff_eq] at hc
  rcases hc with (((rfl | rfl) | rfl) | rfl) | rfl <;> exact absurd h (by decide)

theorem skeleton_of_allBlank (h : AllBlank text) : skeleton text = [] := by
  rw [skeleton, List.filter_eq_nil_iff]
  intro c hc
  simp [isStructural_of_isBlank (h c hc)]

/-- Words are all there is to see. -/
theorem skeleton_eq_flatMap_words (text : List Char) : skeleton text = (words text).flatMap skeleton := by
  by_cases hb : AllBlank text
  · rw [skeleton_of_allBlank hb, words_eq_nil hb]
    rfl
  · obtain ⟨gap, w, rest, hgap, hw, hrest, e⟩ := exists_first_word hb
    rw [e, words_first hgap hw hrest, skeleton_append, skeleton_append, skeleton_of_allBlank hgap,
      List.flatMap_cons, List.nil_append, skeleton_eq_flatMap_words rest]
termination_by text.length
decreasing_by
  have := List.length_pos_iff.2 hw.1
  simp [e]
  omega

theorem skeleton_trim (text : List Char) : skeleton (trim text) = skeleton text := by
  rw [skeleton_eq_flatMap_words, words_trim, ← skeleton_eq_flatMap_words]

/-- The open mark of a state is a mark. -/
def MarkOk (n : Nesting) : Prop := ∀ m, n.mark = some m → isMark m = true

theorem markOk_top : MarkOk .top := by simp [MarkOk, Nesting.top]

theorem MarkOk.after (h : MarkOk n) (c : Char) : MarkOk (n.after c) := by
  unfold MarkOk
  rw [mark_after]
  exact isMark_of_markAfter h

theorem pass?_of_not_structural (hn : MarkOk n) (hstops : ∀ c, stops c = true → isStructural c = true)
    (h : isStructural c = false) : pass? stops n c = some n := by
  have hs : stops c = false := by
    by_contra hs
    rw [hstops c (by simpa using hs)] at h
    cases h
  simp only [isStructural, Bool.or_eq_false_iff, beq_eq_false_iff_ne] at h
  obtain ⟨mark, depth⟩ := n
  cases mark with
  | some m =>
    have hm : isMark m = true := hn m rfl
    have hcm : c ≠ m := by
      rintro rfl
      rw [h.1.1.1] at hm
      cases hm
    simp [pass?, Nesting.after, hs, hcm]
  | none => simp [pass?, Nesting.after, hs, h]

/-- **A scanner sees nothing but the skeleton.** -/
theorem passFrom_skeleton (hn : MarkOk n) (hstops : ∀ c, stops c = true → isStructural c = true) :
    passFrom stops n (skeleton text) = passFrom stops n text := by
  induction text generalizing n with
  | nil => rfl
  | cons c text ih =>
    rw [passFrom_cons]
    by_cases hc : isStructural c = true
    · rw [skeleton, List.filter_cons_of_pos hc, passFrom_cons]
      cases hp : pass? stops n c with
      | none => rfl
      | some m =>
        rw [Option.bind_some, Option.bind_some, pass?_of_some hp]
        exact ih (hn.after c)
    · rw [skeleton, List.filter_cons_of_neg hc, pass?_of_not_structural hn hstops (by simpa using hc), Option.bind_some]
      exact ih hn

/-- A scanner goes over two texts with the same skeleton in the same way. -/
theorem passFrom_congr (hstops : ∀ c, stops c = true → isStructural c = true) (h : skeleton a = skeleton b) :
    passFrom stops .top a = passFrom stops .top b := by
  rw [← passFrom_skeleton markOk_top hstops, h, passFrom_skeleton markOk_top hstops]

theorem enclosed_congr (h : skeleton a = skeleton b) : Enclosed a ↔ Enclosed b := by
  rw [enclosed_iff, enclosed_iff, passFrom_congr (by simp [isStructural]) h]

/-- The skeleton leaves the same quotes and the same parentheses open. -/
theorem openMark_skeleton (text : List Char) : openMark (skeleton text) = openMark text := by
  induction text using List.reverseRecOn with
  | nil => rfl
  | append_singleton text c ih =>
    rw [skeleton_append]
    by_cases hc : isStructural c = true
    · have hkept : skeleton [c] = [c] := List.filter_cons_of_pos hc
      rw [hkept, openMark_concat, openMark_concat, ih]
    · have hdropped : skeleton [c] = [] := List.filter_cons_of_neg hc
      have hunmarked : Unmarked [c] := by
        simp only [isStructural, Bool.or_eq_true, not_or] at hc
        simpa [Unmarked] using hc.1.1.1
      rw [hdropped, List.append_nil, ih, openMark_append_of_unmarked hunmarked]

theorem level_skeleton (text : List Char) : level (skeleton text) = level text := by
  induction text using List.reverseRecOn with
  | nil => rfl
  | append_singleton text c ih =>
    rw [skeleton_append]
    by_cases hc : isStructural c = true
    · have hkept : skeleton [c] = [c] := List.filter_cons_of_pos hc
      rw [hkept, level_concat, level_concat, ih, openMark_skeleton]
    · have hdropped : skeleton [c] = [] := List.filter_cons_of_neg hc
      simp only [isStructural, Bool.or_eq_true, beq_iff_eq, not_or] at hc
      rw [hdropped, List.append_nil, ih, level_concat]
      simp [hc]

theorem openMark_trim (text : List Char) : openMark (trim text) = openMark text := by
  rw [← openMark_skeleton, skeleton_trim, openMark_skeleton]

theorem openMark_of_allBlank (h : AllBlank text) : openMark text = none := by
  rw [← openMark_skeleton, skeleton_of_allBlank h, openMark_nil]

theorem atTop_congr (h : skeleton a = skeleton b) : AtTop a ↔ AtTop b := by
  unfold AtTop
  rw [← openMark_skeleton, ← level_skeleton, h, openMark_skeleton, level_skeleton]

/-! ### Byte by byte -/

theorem isStructural_of_not_isAscii (h : ¬ IsAscii c) : isStructural c = false := by
  by_contra hc
  simp only [isStructural, isMark, Bool.not_eq_false, Bool.or_eq_true, beq_iff_eq] at hc
  rcases hc with (((rfl | rfl) | rfl) | rfl) | rfl <;> exact h (by decide)

/-- Text and bytes have the same skeleton. -/
theorem skeleton_octets (text : List Char) : skeleton (octets text) = skeleton text := by
  induction text with
  | nil => rfl
  | cons c text ih =>
    have hfirst : skeleton (octets [c]) = skeleton [c] := by
      by_cases hc : IsAscii c
      · rw [octets_ascii hc]
      · have hbytes : skeleton (octets [c]) = [] := by
          rw [skeleton, List.filter_eq_nil_iff]
          intro d hd
          simp [isStructural_of_not_isAscii (not_isAscii_of_mem_octets hc hd)]
        rw [hbytes, skeleton, List.filter_cons_of_neg (by simp [isStructural_of_not_isAscii hc])]
        rfl
    rw [octets_cons, skeleton_append, hfirst, ih, ← skeleton_append]
    rfl

@[simp] theorem openMark_octets (text : List Char) : openMark (octets text) = openMark text := by
  rw [← openMark_skeleton, skeleton_octets, openMark_skeleton]

theorem atTop_octets : AtTop (octets text) ↔ AtTop text :=
  atTop_congr (skeleton_octets text)

theorem enclosed_octets : Enclosed (octets text) ↔ Enclosed text :=
  enclosed_congr (skeleton_octets text)

end DdlCatalog.Sql
