import DdlCatalog.Sql.Nesting
import Mathlib.Data.List.Basic
import Mathlib.Tactic.Common

/-!
# Bare characters and the level of a place

What a place in a text is, told from the whole text before it and without a scanner's state.

* `openMark t` — the mark whose quotes are open at the end of `t`;
* `bare t` — the characters of `t` outside quotes; `level t` — the parentheses among them, opening less closing;
* `AtTop t` — the end of `t` is outside quotes and parentheses;
* `Enclosed t` — `t` leaves no quotes open and its parentheses match.
-/

namespace DdlCatalog.Sql

/-- The open mark after one more character. -/
def markAfter (mark : Option Char) (c : Char) : Option Char :=
  match mark with
  | some m => if c = m then none else some m
  | none => if isMark c then some c else none

/-- The mark whose quotes a text leaves open. -/
def openMark (text : List Char) : Option Char :=
  text.foldl markAfter none

/-- The characters outside quotes, the marks themselves left out, of a text that starts between marks or not. -/
def bareFrom : Option Char → List Char → List Char
  | _, [] => []
  | mark, c :: text =>
    if mark.isNone && !isMark c then c :: bareFrom none text else bareFrom (markAfter mark c) text

/-- The characters of a text outside quotes. -/
def bare (text : List Char) : List Char :=
  bareFrom none text

/-- The bare parentheses of a text, those that open less those that close. -/
def level (text : List Char) : Int :=
  (bare text).count '(' - (bare text).count ')'

/-- The end of a text is outside quotes and parentheses. -/
def AtTop (text : List Char) : Prop := openMark text = none ∧ level text = 0

/-- No quotes are left open, and parentheses match. -/
structure Enclosed (text : List Char) : Prop where
  closed : openMark text = none
  balanced : level text = 0
  level_nonneg : ∀ before, before <+: text → 0 ≤ level before

/-- A text without marks. -/
def Unmarked (text : List Char) : Prop := ∀ c ∈ text, isMark c = false

instance (text : List Char) : Decidable (Unmarked text) := List.decidableBAll _ text

instance (text : List Char) : Decidable (AtTop text) := by unfold AtTop; infer_instance

variable {a b text : List Char} {c : Char} {mark : Option Char}

/-! ### The open mark -/

/-- A scanner keeps the open mark. -/
theorem mark_after (n : Nesting) (c : Char) : (n.after c).mark = markAfter n.mark c := by
  obtain ⟨mark, depth⟩ := n
  unfold Nesting.after markAfter
  cases mark with
  | some m => by_cases hc : c = m <;> simp [hc]
  | none =>
    by_cases hc : isMark c = true
    · simp [hc]
    · simp only [hc, Bool.false_eq_true, if_false]
      split
      · rfl
      · split <;> rfl

theorem isMark_of_markAfter (hmark : ∀ m ∈ mark, isMark m = true) : ∀ m ∈ markAfter mark c, isMark m = true := by
  cases mark with
  | some m =>
    unfold markAfter
    dsimp only
    split
    · simp
    · exact hmark
  | none =>
    unfold markAfter
    dsimp only
    split
    next hc => simpa using hc
    · simp

/-- Only a mark can be open. -/
theorem isMark_of_foldl (hmark : ∀ m ∈ mark, isMark m = true) :
    ∀ m ∈ text.foldl markAfter mark, isMark m = true := by
  induction text generalizing mark with
  | nil => exact hmark
  | cons c text ih => exact ih (isMark_of_markAfter hmark)

/-- A text without marks neither opens nor closes quotes. -/
theorem foldl_markAfter_of_unmarked (hmark : ∀ m ∈ mark, isMark m = true) (h : Unmarked text) :
    text.foldl markAfter mark = mark := by
  induction text with
  | nil => rfl
  | cons c text ih =>
    have hc : isMark c = false := h c (by simp)
    have hstep : markAfter mark c = mark := by
      cases mark with
      | none => simp [markAfter, hc]
      | some m =>
        have hne : c ≠ m := by
          rintro rfl
          rw [hmark c rfl] at hc
          cases hc
        simp [markAfter, hne]
    rw [List.foldl_cons, hstep, ih fun d hd => h d (by simp [hd])]

/-! ### Texts put together -/

theorem openMark_append : openMark (a ++ b) = b.foldl markAfter (openMark a) := by
  simp [openMark]

theorem openMark_concat : openMark (a ++ [c]) = markAfter (openMark a) c := by
  simp [openMark]

theorem bareFrom_append :
    bareFrom mark (a ++ b) = bareFrom mark a ++ bareFrom (a.foldl markAfter mark) b := by
  induction a generalizing mark with
  | nil => rfl
  | cons c a ih =>
    simp only [List.cons_append, bareFrom, List.foldl_cons]
    split
    next h =>
      have hm : markAfter mark c = none := by
        cases mark <;> simp_all [markAfter]
      simp [ih, hm]
    next h => rw [ih]

theorem bare_append : bare (a ++ b) = bare a ++ bareFrom (openMark a) b :=
  bareFrom_append

theorem bare_append_of_closed (h : openMark a = none) : bare (a ++ b) = bare a ++ bare b := by
  rw [bare_append, h]
  rfl

theorem openMark_append_of_closed (h : openMark a = none) : openMark (a ++ b) = openMark b := by
  rw [openMark_append, h, openMark]

theorem openMark_append_of_unmarked (h : Unmarked b) : openMark (a ++ b) = openMark a := by
  rw [openMark_append]
  exact foldl_markAfter_of_unmarked (isMark_of_foldl (by simp)) h

theorem level_append_of_closed (h : openMark a = none) : level (a ++ b) = level a + level b := by
  simp only [level, bare_append_of_closed h, List.count_append]
  omega

theorem bare_concat :
    bare (a ++ [c]) = bare a ++ if (openMark a).isNone && !isMark c then [c] else [] := by
  rw [bare_append]
  simp [bareFrom]

theorem level_concat :
    level (a ++ [c]) = level a +
      if openMark a = none then (if c = '(' then 1 else if c = ')' then -1 else 0) else 0 := by
  unfold level
  rw [bare_concat]
  cases hm : openMark a with
  | some m => simp
  | none =>
    by_cases ho : c = '('
    · subst ho
      simp [isMark]
      omega
    · by_cases hc : c = ')'
      · subst hc
        simp [isMark]
        omega
      · by_cases hk : isMark c = true <;> simp [hk, ho, hc]

@[simp] theorem openMark_nil : openMark [] = none := rfl

@[simp] theorem level_nil : level [] = 0 := rfl

theorem atTop_nil : AtTop [] := ⟨rfl, rfl⟩

theorem AtTop.append_iff (h : AtTop a) : AtTop (a ++ b) ↔ AtTop b := by
  unfold AtTop
  rw [openMark_append_of_closed h.1, level_append_of_closed h.1, h.2, Int.zero_add]

/-! ### Enclosed texts -/

theorem Enclosed.atTop (h : Enclosed text) : AtTop text := ⟨h.closed, h.balanced⟩

end DdlCatalog.Sql
