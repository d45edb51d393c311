import DdlCatalog.Proofs.Text.Octets
import DdlCatalog.Proofs.Text.Search
import Mathlib.Data.List.TakeWhile

/-!
# Pieces of a text by byte offsets

A reader that keeps numbers instead of texts can make missteps that a reader of lists cannot: a number may be no place
of the text it is used for, or fall below zero.

* `Misstep`, `Checked` — what is computed with such numbers;
* `sliceFrom`, `sliceTo`, `slice`, `cutOut`, `difference`, `element` — the steps that can go wrong;
* `isOk_slice_iff` : a piece is there if and only if it lies in order between two boundaries;
* `places w t` — where the word `w` stands in `t`, and `firstAnswer` — the places tried one after the other;
* `firstAnswer_places`, `firstAnswer_places_reverse` : this is a search from the left, or from the right.
-/

namespace DdlCatalog

/-- What can go wrong where places and counts are numbers. -/
inductive Misstep where
  /-- A place is inside a character or past the end of its text, or a piece ends before it starts. -/
  | slice
  /-- A number falls below zero. -/
  | underflow
  /-- A list has no element of the number that is looked up. -/
  | index
  /-- A loop is not done after the rounds it may take. -/
  | rounds
  deriving DecidableEq, Repr

/-- What is computed with numbers, unless something goes wrong. -/
abbrev Checked := Except Misstep

@[simp] theorem Checked.ok_bind {α β : Type} (a : α) (f : α → Checked β) : (Except.ok a >>= f) = f a := rfl

/-- An element of a list by its number. -/
def element {α : Type} (i : Nat) (xs : List α) : Checked α :=
  match xs[i]? with
  | some x => .ok x
  | none => .error .index

namespace Text

/-- The text behind some bytes. -/
def sliceFrom (start : Nat) (text : List Char) : Checked (List Char) :=
  match dropBytes? start text with
  | some rest => .ok rest
  | none => .error .slice

/-- The first bytes of a text. -/
def sliceTo (stop : Nat) (text : List Char) : Checked (List Char) := do
  let rest ← sliceFrom stop text
  return text.take (text.length - rest.length)

/-- The bytes of a text between two places. -/
def slice (start stop : Nat) (text : List Char) : Checked (List Char) :=
  if start ≤ stop then do
    let rest ← sliceFrom start text
    sliceTo (stop - start) rest
  else .error .slice

/-- The text without the bytes between two places. -/
def cutOut (start stop : Nat) (text : List Char) : Checked (List Char) := do
  let _ ← slice start stop text
  let before ← sliceTo start text
  let after ← sliceFrom stop text
  return before ++ after

/-- What is left of a number when another one is taken away. -/
def difference (m n : Nat) : Checked Nat :=
  if n ≤ m then .ok (m - n) else .error .underflow

/-- The number of bytes before the first character that `p` accepts. -/
def offset? (p : Char → Bool) (text : List Char) : Option Nat :=
  if text.any p then some (byteLength (text.takeWhile fun c => !p c)) else none

/-- The places where `word` stands, in a text that `place` bytes are behind. -/
def placesFrom (word : List Char) (place : Nat) : List Char → List Nat
  | [] => []
  | c :: text =>
    let later := placesFrom word (place + c.utf8Size) text
    if word.isPrefixOf (c :: text) then place :: later else later

/-- The places of a text where `word` stands, as the numbers of bytes before it. -/
def places (word text : List Char) : List Nat :=
  placesFrom word 0 text

/-- The answer at the first of some places that has one. -/
def firstAnswer {α : Type} (answer : Nat → Checked (Option α)) : List Nat → Checked (Option α)
  | [] => .ok none
  | place :: later => do
    match ← answer place with
    | some found => return some found
    | none => firstAnswer answer later

variable {a b c text word mid : List Char} {start stop : Nat}

/-! ### Pieces -/

theorem sliceFrom_append (a b : List Char) : sliceFrom (byteLength a) (a ++ b) = .ok b := by
  have hdrop : dropBytes? (byteLength a) (a ++ b) = some b := dropBytes?_eq_some.2 ⟨a, rfl, rfl⟩
  rw [sliceFrom, hdrop]

theorem sliceTo_append (a b : List Char) : sliceTo (byteLength a) (a ++ b) = .ok a := by
  rw [sliceTo, sliceFrom_append, Checked.ok_bind]
  simp [pure, Except.pure]

theorem slice_append (a b c : List Char) :
    slice (byteLength a) (byteLength a + byteLength b) (a ++ (b ++ c)) = .ok b := by
  rw [slice, if_pos (Nat.le_add_right _ _), sliceFrom_append, Checked.ok_bind, Nat.add_sub_cancel_left, sliceTo_append]

theorem cutOut_append (a b c : List Char) :
    cutOut (byteLength a) (byteLength a + byteLength b) (a ++ (b ++ c)) = .ok (a ++ c) := by
  have hbehind : sliceFrom (byteLength a + byteLength b) (a ++ (b ++ c)) = .ok c := by
    rw [← byteLength_append, ← List.append_assoc, sliceFrom_append]
  rw [cutOut, slice_append, Checked.ok_bind, sliceTo_append, Checked.ok_bind, hbehind, Checked.ok_bind]
  rfl

theorem sliceFrom_eq_ok_iff : sliceFrom start text = .ok b ↔ ∃ a, text = a ++ b ∧ byteLength a = start := by
  rw [← dropBytes?_eq_some]
  unfold sliceFrom
  cases dropBytes? start text <;> simp

theorem sliceTo_eq_ok_iff : sliceTo stop text = .ok a ↔ ∃ b, text = a ++ b ∧ byteLength a = stop := by
  constructor
  · intro h
    cases hrest : sliceFrom stop text with
    | error e =>
      rw [sliceTo, hrest] at h
      cases h
    | ok b =>
      obtain ⟨a', rfl, rfl⟩ := sliceFrom_eq_ok_iff.1 hrest
      rw [sliceTo_append] at h
      cases h
      exact ⟨b, rfl, rfl⟩
  · rintro ⟨b, rfl, rfl⟩
    exact sliceTo_append a b

theorem slice_eq_ok_iff :
    slice start stop text = .ok mid ↔
      ∃ a b, text = a ++ (mid ++ b) ∧ byteLength a = start ∧ byteLength a + byteLength mid = stop := by
  constructor
  · intro h
    unfold slice at h
    split at h
    next hle =>
      cases hrest : sliceFrom start text with
      | error e =>
        rw [hrest] at h
        cases h
      | ok rest =>
        obtain ⟨a, rfl, rfl⟩ := sliceFrom_eq_ok_iff.1 hrest
        rw [hrest, Checked.ok_bind] at h
        obtain ⟨b, rfl, hmid⟩ := sliceTo_eq_ok_iff.1 h
        exact ⟨a, b, rfl, rfl, by omega⟩
    · cases h
  · rintro ⟨a, b, rfl, rfl, rfl⟩
    exact slice_append a mid b

/-- **A piece is cut out if and only if its two ends are boundaries in order.** -/
theorem isOk_slice_iff {text : String} :
    (∃ mid, slice start stop text.toList = .ok mid) ↔
      start ≤ stop ∧ IsBoundary text start ∧ IsBoundary text stop := by
  constructor
  · rintro ⟨mid, h⟩
    obtain ⟨a, b, htext, rfl, rfl⟩ := slice_eq_ok_iff.1 h
    refine ⟨Nat.le_add_right _ _, isBoundary_iff.2 ⟨a, mid ++ b, htext, rfl⟩, ?_⟩
    exact isBoundary_iff.2 ⟨a ++ mid, b, by simp [htext], byteLength_append a mid⟩
  · rintro ⟨hle, hstart, hstop⟩
    obtain ⟨a, rest, htext, rfl⟩ := isBoundary_iff.1 hstart
    obtain ⟨a', b, htext', rfl⟩ := isBoundary_iff.1 hstop
    rcases List.append_eq_append_iff.1 (htext.symm.trans htext') with ⟨mid, rfl, rfl⟩ | ⟨mid, rfl, rfl⟩
    · exact ⟨mid, slice_eq_ok_iff.2 ⟨a, b, htext, rfl, (byteLength_append a mid).symm⟩⟩
    · rw [byteLength_append] at hle
      refine ⟨[], slice_eq_ok_iff.2 ⟨a' ++ mid, rest, htext, rfl, ?_⟩⟩
      rw [byteLength_append, byteLength_nil]
      omega

example : slice 1 2 "é".toList = .error .slice := by decide

/-! ### Lengths of pieces -/

theorem difference_append (a b : List Char) :
    difference (byteLength (a ++ b)) (byteLength b) = .ok (byteLength a) := by
  rw [difference, byteLength_append, if_pos (Nat.le_add_left _ _), Nat.add_sub_cancel]

/-- Blanks are taken off the start of a text by counting bytes. -/
theorem exists_blanks_before (text : List Char) :
    ∃ gap, AllBlank gap ∧ text = gap ++ trimStart text ∧
      difference (byteLength text) (byteLength (trimStart text)) = .ok (byteLength gap) := by
  obtain ⟨gap, hgap, e⟩ := exists_eq_trimStart text
  refine ⟨gap, hgap, e, ?_⟩
  conv_lhs => rw [e]
  rw [trimStart_append_of_blank hgap, trimStart_eq_self (startsBlank_trimStart text), difference_append]

theorem byteLength_eq_zero_iff : byteLength text = 0 ↔ text = [] := by
  cases text with
  | nil => simp
  | cons c text =>
    have := Char.utf8Size_pos c
    simp only [byteLength_cons, reduceCtorEq, iff_false]
    omega

/-- The first character that `p` accepts stands behind those that it does not. -/
theorem offset?_eq (p : Char → Bool) (text : List Char) :
    offset? p text =
      if (text.dropWhile fun c => !p c) = [] then none else some (byteLength (text.takeWhile fun c => !p c)) := by
  have hany : text.any p = true ↔ (text.dropWhile fun c => !p c) ≠ [] := by
    rw [ne_eq, List.dropWhile_eq_nil_iff]
    simp
  rw [offset?, ← ite_not]
  exact if_congr (by rw [hany, not_not]) rfl rfl

/-! ### Places -/

section Places

variable {α : Type} {answer : Nat → Checked (Option α)} {f : List Char → List Char → Option α} {g : Nat → Option α}
  {found : α} {place i : Nat} {before : List Char}

theorem mem_placesFrom_iff (hw : word ≠ []) :
    i ∈ placesFrom word place text ↔ ∃ b a, text = b ++ word ++ a ∧ place + byteLength b = i := by
  induction text generalizing place with
  | nil => simp [placesFrom, hw]
  | cons c text ih =>
    have hmem : i ∈ placesFrom word place (c :: text) ↔
        (i = place ∧ word <+: c :: text) ∨ i ∈ placesFrom word (place + c.utf8Size) text := by
      rw [placesFrom, ← List.isPrefixOf_iff_prefix]
      cases word.isPrefixOf (c :: text) <;> simp
    rw [hmem, ih]
    constructor
    · rintro (⟨rfl, a, e⟩ | ⟨b, a, rfl, rfl⟩)
      · exact ⟨[], a, e.symm, rfl⟩
      · exact ⟨c :: b, a, rfl, by rw [byteLength_cons, Nat.add_assoc]⟩
    · rintro ⟨b, a, e, rfl⟩
      cases b with
      | nil => exact .inl ⟨rfl, a, e.symm⟩
      | cons d b =>
        obtain ⟨rfl, htext⟩ := List.cons.inj e
        exact .inr ⟨b, a, htext, by rw [byteLength_cons, Nat.add_assoc]⟩

theorem mem_places_iff (hw : word ≠ []) :
    i ∈ places word text ↔ ∃ b a, text = b ++ word ++ a ∧ byteLength b = i := by
  rw [places, mem_placesFrom_iff hw]
  simp only [Nat.zero_add]

theorem pairwise_placesFrom (hw : word ≠ []) : (placesFrom word place text).Pairwise (· < ·) := by
  induction text generalizing place with
  | nil => exact .nil
  | cons c text ih =>
    rw [placesFrom]
    split
    · refine List.pairwise_cons.2 ⟨fun i hi => ?_, ih⟩
      obtain ⟨b, a, -, rfl⟩ := (mem_placesFrom_iff hw).1 hi
      have := Char.utf8Size_pos c
      omega
    · exact ih

theorem pairwise_places (hw : word ≠ []) : (places word text).Pairwise (· < ·) :=
  pairwise_placesFrom hw

/-- Of two places of a text the one with fewer bytes before it has fewer characters before it. -/
theorem byteLength_lt_iff (h : a <+: text) (h' : b <+: text) : byteLength a < byteLength b ↔ a.length < b.length := by
  have hlt {x y : List Char} (hxy : x <+: y) : byteLength x < byteLength y ↔ x.length < y.length := by
    obtain ⟨m, rfl⟩ := hxy
    have hm : byteLength m = 0 ↔ m.length = 0 := byteLength_eq_zero_iff.trans List.length_eq_zero_iff.symm
    rw [byteLength_append, List.length_append]
    omega
  have hle {x y : List Char} (hxy : x <+: y) : byteLength x ≤ byteLength y ∧ x.length ≤ y.length := by
    obtain ⟨m, rfl⟩ := hxy
    rw [byteLength_append, List.length_append]
    omega
  rcases List.prefix_or_prefix_of_prefix h h' with hab | hba
  · exact hlt hab
  · have := hle hba
    omega

/-- In an ordered list, what is found first is found at a member before which nothing is. -/
theorem findSome?_eq_some_iff_of_pairwise {R : Nat → Nat → Prop} {is : List Nat} (hR : ∀ i j, R i j → ¬ R j i)
    (h : is.Pairwise R) :
    is.findSome? g = some found ↔ ∃ i ∈ is, g i = some found ∧ ∀ j ∈ is, R j i → g j = none := by
  induction is with
  | nil => simp
  | cons k is ih =>
    obtain ⟨hk, his⟩ := List.pairwise_cons.1 h
    rw [List.findSome?_cons]
    cases hg : g k with
    | some a =>
      constructor
      · rintro ⟨⟩
        refine ⟨k, by simp, hg, fun j hj hjk => ?_⟩
        rcases List.mem_cons.1 hj with rfl | hj
        · exact absurd hjk (hR _ _ hjk)
        · exact absurd hjk (hR _ _ (hk j hj))
      · rintro ⟨i, hi, hfound, hfirst⟩
        rcases List.mem_cons.1 hi with rfl | hi
        · rw [← hg, hfound]
        · rw [hfirst k (by simp) (hk i hi)] at hg
          cases hg
    | none =>
      dsimp only
      rw [ih his]
      simp only [List.exists_mem_cons_iff, List.forall_mem_cons, hg, reduceCtorEq, false_and, false_or, implies_true,
        true_and]

/-- The answer at the first of the places in some order, told by the texts around it. -/
theorem findSome?_of_places {R : Nat → Nat → Prop} {is : List Nat} (hw : word ≠ []) (hR : ∀ i j, R i j → ¬ R j i)
    (his : is.Pairwise R) (hmem : ∀ i, i ∈ is ↔ i ∈ places word text)
    (hg : ∀ b a, text = b ++ word ++ a → g (byteLength b) = f b a) :
    is.findSome? g = some found ↔
      ∃ b a, text = b ++ word ++ a ∧ f b a = some found ∧
        ∀ b' a', text = b' ++ word ++ a' → R (byteLength b') (byteLength b) → f b' a' = none := by
  rw [findSome?_eq_some_iff_of_pairwise hR his]
  simp only [hmem, mem_places_iff hw]
  constructor
  · rintro ⟨-, ⟨b, a, e, rfl⟩, hfound, hfirst⟩
    refine ⟨b, a, e, by rw [← hg b a e, hfound], fun b' a' e' hbefore => ?_⟩
    rw [← hg b' a' e']
    exact hfirst _ ⟨b', a', e', rfl⟩ hbefore
  · rintro ⟨b, a, e, hfound, hfirst⟩
    refine ⟨_, ⟨b, a, e, rfl⟩, by rw [hg b a e, hfound], ?_⟩
    rintro - ⟨b', a', e', rfl⟩ hbefore
    rw [hg b' a' e']
    exact hfirst b' a' e' hbefore

theorem prefix_of_word (e : text = b ++ word ++ a) : b <+: text :=
  ⟨word ++ a, by rw [e, List.append_assoc]⟩

theorem findSome?_places (hw : word ≠ []) (hg : ∀ b a, text = b ++ word ++ a → g (byteLength b) = f b a) :
    (places word text).findSome? g = searchLeft word f text := by
  refine Option.ext fun found => ?_
  rw [findSome?_of_places hw (fun _ _ => Nat.lt_asymm) (pairwise_places hw) (fun _ => Iff.rfl) hg,
    searchLeft_eq_some_iff hw]
  refine exists₂_congr fun b a => and_congr_right fun e => and_congr_right fun _ => ?_
  refine forall₂_congr fun b' a' => forall_congr' fun e' => ?_
  rw [byteLength_lt_iff (prefix_of_word e') (prefix_of_word e)]

theorem findSome?_reverse_places (hw : word ≠ []) (hg : ∀ b a, text = b ++ word ++ a → g (byteLength b) = f b a) :
    (places word text).reverse.findSome? g = searchRight word f text := by
  refine Option.ext fun found => ?_
  rw [findSome?_of_places (R := fun i j => j < i) hw (fun _ _ => Nat.lt_asymm)
    (List.pairwise_reverse.2 (pairwise_places hw)) (fun _ => List.mem_reverse) hg, searchRight_eq_some_iff hw]
  refine exists₂_congr fun b a => and_congr_right fun e => and_congr_right fun _ => ?_
  refine forall₂_congr fun b' a' => forall_congr' fun e' => ?_
  have hlength : b.length + a.length = b'.length + a'.length := by
    have := congrArg List.length (e.symm.trans e')
    simp only [List.length_append] at this
    omega
  have hbehind : b.length < b'.length ↔ a'.length < a.length := by omega
  rw [byteLength_lt_iff (prefix_of_word e) (prefix_of_word e'), hbehind]

/-- Places that each have an answer, or none, are tried to the end. -/
theorem firstAnswer_eq {is : List Nat} (h : ∀ i ∈ is, answer i = .ok (g i)) :
    firstAnswer answer is = .ok (is.findSome? g) := by
  induction is with
  | nil => rfl
  | cons i is ih =>
    obtain ⟨hi, his⟩ := List.forall_mem_cons.1 h
    rw [firstAnswer, hi, Checked.ok_bind, List.findSome?_cons]
    cases g i with
    | some found => rfl
    | none => exact ih his

/-- What is answered at the places of a text, if nothing goes wrong at any of them. -/
theorem exists_answer (hw : word ≠ [])
    (h : ∀ b a, text = b ++ word ++ a → answer (byteLength b) = .ok (f b a)) :
    ∃ g : Nat → Option α, (∀ i ∈ places word text, answer i = .ok (g i)) ∧
      ∀ b a, text = b ++ word ++ a → g (byteLength b) = f b a := by
  refine ⟨fun i => (answer i).toOption.join, fun i hi => ?_, fun b a e => ?_⟩
  · obtain ⟨b, a, e, rfl⟩ := (mem_places_iff hw).1 hi
    dsimp only
    rw [h b a e]
    rfl
  · dsimp only
    rw [h b a e]
    rfl

/-- **Places tried one after the other are a search from the left.** -/
theorem firstAnswer_places (hw : word ≠ [])
    (h : ∀ b a, text = b ++ word ++ a → answer (byteLength b) = .ok (f b a)) :
    firstAnswer answer (places word text) = .ok (searchLeft word f text) := by
  obtain ⟨g, hanswer, hg⟩ := exists_answer hw h
  rw [firstAnswer_eq hanswer, findSome?_places hw hg]

/-- **Tried in the opposite order they are a search from the right.** -/
theorem firstAnswer_places_reverse (hw : word ≠ [])
    (h : ∀ b a, text = b ++ word ++ a → answer (byteLength b) = .ok (f b a)) :
    firstAnswer answer (places word text).reverse = .ok (searchRight word f text) := by
  obtain ⟨g, hanswer, hg⟩ := exists_answer hw h
  rw [firstAnswer_eq fun i hi => hanswer i (List.mem_reverse.1 hi), findSome?_reverse_places hw hg]

end Places

end Text

end DdlCatalog
