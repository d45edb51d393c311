import DdlCatalog.Proofs.Sql.Bare

/-!
# The first stop outside quotes and parentheses

`splitFrom` carries a state from character to character and starts afresh after every cut.  Here its state is tied
to the place it stands for.

* `Tracks n t` — the state `n` is what the whole text `t` behind it says;
* `passFrom stops n t` — the state after `t`, if no character of `t` is a stop at the top;
* `splitFrom_eq_some_iff` : a cut is made at the first character at the top that is a stop;
* `passFrom_eq_some_iff` : what is passed has no stop at a place that is at the top.
-/

namespace DdlCatalog.Sql

/-- The state tells the open mark and the level of the text behind it. -/
def Tracks (n : Nesting) (text : List Char) : Prop :=
  n.mark = openMark text ∧ (n.depth : Int) = level text

/-- No stop stands at the top in `text`, where `before` is behind. -/
def NoStop (stops : Char → Bool) (before text : List Char) : Prop :=
  ∀ a c b, text = a ++ c :: b → AtTop (before ++ a) → stops c = false

/-- The state after a character that is no stop at the top. -/
def pass? (stops : Char → Bool) (n : Nesting) (c : Char) : Option Nesting :=
  if n.depth = 0 && n.isBare c && stops c then none else some (n.after c)

/-- The state after a text without a stop at the top. -/
def passFrom (stops : Char → Bool) (n : Nesting) (text : List Char) : Option Nesting :=
  text.foldlM (pass? stops) n

variable {stops : Char → Bool} {n n' : Nesting} {a b before text passed : List Char} {c : Char}

/-! ### States and places -/

theorem tracks_top (h : AtTop text) : Tracks .top text := ⟨h.1.symm, h.2.symm⟩

theorem Tracks.atTop_iff (h : Tracks n text) : AtTop text ↔ n = .top := by
  obtain ⟨mark, depth⟩ := n
  obtain ⟨hm, hd⟩ := h
  simp only at hm hd
  simp only [AtTop, Nesting.top, Nesting.mk.injEq, ← hm, ← hd, Int.natCast_eq_zero]

/-- One step, unless it closes a parenthesis that the text has not opened. -/
theorem Tracks.after (h : Tracks n text) (hc : ¬ (n = .top ∧ c = ')')) : Tracks (n.after c) (text ++ [c]) := by
  obtain ⟨mark, depth⟩ := n
  obtain ⟨hm, hd⟩ := h
  simp only at hm hd
  unfold Tracks
  rw [openMark_concat, level_concat, ← hm, ← hd]
  cases mark with
  | some m => by_cases hcm : c = m <;> simp [Nesting.after, markAfter, hcm]
  | none =>
    by_cases hk : isMark c = true
    · have h1 : c ≠ '(' := by rintro rfl; simp [isMark] at hk
      have h2 : c ≠ ')' := by rintro rfl; simp [isMark] at hk
      simp [Nesting.after, markAfter, hk, h1, h2]
    · by_cases ho : c = '('
      · simp [Nesting.after, markAfter, ho, isMark]
      · by_cases hp : c = ')'
        · have : depth ≠ 0 := by
            rintro rfl
            exact hc ⟨rfl, hp⟩
          simp [Nesting.after, markAfter, hp, isMark]
          omega
        · simp [Nesting.after, markAfter, hk, ho, hp]

/-! ### Passing over a text -/

theorem pass?_eq_none_iff : pass? stops n c = none ↔ n = .top ∧ isMark c = false ∧ stops c = true := by
  obtain ⟨mark, depth⟩ := n
  cases mark <;> simp [pass?, Nesting.isBare, Nesting.top, and_assoc]

theorem pass?_of_some (h : pass? stops n c = some n') : n' = n.after c := by
  unfold pass? at h
  split at h
  · cases h
  · exact (Option.some.inj h).symm

@[simp] theorem passFrom_nil : passFrom stops n [] = some n := rfl

theorem passFrom_cons : passFrom stops n (c :: text) = (pass? stops n c).bind (passFrom stops · text) := by
  simp [passFrom]

theorem passFrom_append : passFrom stops n (a ++ b) = (passFrom stops n a).bind (passFrom stops · b) := by
  simp [passFrom]

/-- A cut is made at the top, and what comes before it is passed. -/
theorem splitFrom_eq_some_iff {cut : Cut} :
    splitFrom stops n passed text = some cut ↔
      ∃ mid, cut.before = passed.reverse ++ mid ∧ text = mid ++ cut.char :: cut.rest ∧
        passFrom stops n mid = some .top ∧ isMark cut.char = false ∧ stops cut.char = true := by
  induction text generalizing n passed with
  | nil => simp [splitFrom]
  | cons c text ih =>
    have hstep : splitFrom stops n passed (c :: text) =
        if pass? stops n c = none then some ⟨passed.reverse, c, text⟩
        else splitFrom stops (n.after c) (c :: passed) text := by
      unfold pass?
      rw [splitFrom]
      split <;> simp
    rw [hstep]
    split
    next h =>
      have hstop := pass?_eq_none_iff.1 h
      constructor
      · intro e
        cases e
        exact ⟨[], by simp, rfl, by simp [hstop.1], hstop.2⟩
      · rintro ⟨mid, hb, e, hp, -⟩
        cases mid with
        | nil =>
          obtain ⟨rfl, rfl⟩ := List.cons.inj e
          simp at hb
          simp [← hb]
        | cons d mid =>
          obtain ⟨rfl, -⟩ := List.cons.inj e
          simp [passFrom_cons, h] at hp
    next h =>
      obtain ⟨m, hm⟩ := Option.ne_none_iff_exists'.1 h
      rw [ih, ← pass?_of_some hm]
      constructor
      · rintro ⟨mid, hb, rfl, hp, hc⟩
        exact ⟨c :: mid, by simp [hb], rfl, by simp [passFrom_cons, hm, hp], hc⟩
      · rintro ⟨mid, hb, e, hp, hc⟩
        cases mid with
        | nil =>
          obtain ⟨rfl, rfl⟩ := List.cons.inj e
          rw [passFrom_nil, Option.some.injEq] at hp
          exact absurd (pass?_eq_none_iff.2 ⟨hp, hc⟩) h
        | cons d mid =>
          obtain ⟨rfl, ht⟩ := List.cons.inj e
          exact ⟨mid, by simp [hb], ht, by simpa [passFrom_cons, hm] using hp, hc⟩

theorem splitTop_eq_some_iff {cut : Cut} :
    splitTop stops text = some cut ↔
      text = cut.before ++ cut.char :: cut.rest ∧ passFrom stops .top cut.before = some .top ∧
        isMark cut.char = false ∧ stops cut.char = true := by
  rw [splitTop, splitFrom_eq_some_iff]
  constructor
  · rintro ⟨mid, hb, h⟩
    obtain rfl : cut.before = mid := by simpa using hb
    exact h
  · exact fun h => ⟨cut.before, by simp, h⟩

theorem splitFrom_eq_none_iff : splitFrom stops n passed text = none ↔ (passFrom stops n text).isSome := by
  induction text generalizing n passed with
  | nil => simp [splitFrom]
  | cons c text ih =>
    rw [splitFrom, passFrom_cons, pass?]
    split
    · simp
    · simpa using ih

theorem splitTop_eq_none_iff : splitTop stops text = none ↔ (passFrom stops .top text).isSome :=
  splitFrom_eq_none_iff

/-! ### What is passed -/

theorem noStop_nil : NoStop stops before [] := by simp [NoStop]

theorem noStop_cons :
    NoStop stops before (c :: text) ↔ (AtTop before → stops c = false) ∧ NoStop stops (before ++ [c]) text := by
  unfold NoStop
  constructor
  · intro h
    refine ⟨fun ht => h [] c text rfl (by simpa using ht), fun a d b e ht => ?_⟩
    exact h (c :: a) d b (by simp [e]) (by simpa using ht)
  · rintro ⟨h0, h1⟩ a d b e ht
    cases a with
    | nil =>
      obtain ⟨rfl, -⟩ := List.cons.inj e
      exact h0 (by simpa using ht)
    | cons x a =>
      obtain ⟨rfl, rfl⟩ := List.cons.inj e
      exact h1 a d b rfl (by simpa using ht)

/-- **What is passed has no stop at the top**, and the state after it is that of its place. -/
theorem passFrom_eq_some_iff (hclose : stops ')' = true) (hmark : ∀ c, stops c = true → isMark c = false)
    (h : Tracks n before) :
    passFrom stops n text = some n' ↔ NoStop stops before text ∧ Tracks n' (before ++ text) := by
  induction text generalizing n before with
  | nil =>
    simp only [passFrom_nil, Option.some.injEq, noStop_nil, true_and, List.append_nil]
    refine ⟨fun e => e ▸ h, fun h' => ?_⟩
    obtain ⟨mark, depth⟩ := n
    obtain ⟨mark', depth'⟩ := n'
    have hm := h.1.trans h'.1.symm
    have hd := h.2.trans h'.2.symm
    simp only [Int.natCast_inj] at hm hd
    rw [hm, hd]
  | cons c text ih =>
    rw [passFrom_cons, noStop_cons, h.atTop_iff]
    cases hp : pass? stops n c with
    | none =>
      obtain ⟨ht, -, hc⟩ := pass?_eq_none_iff.1 hp
      simp [ht, hc]
    | some m =>
      have hstop : n = .top → stops c = false := by
        intro ht
        by_contra hc
        have hc : stops c = true := by simpa using hc
        simp [pass?_eq_none_iff.2 ⟨ht, hmark c hc, hc⟩] at hp
      have hm : Tracks m (before ++ [c]) := by
        rw [pass?_of_some hp]
        refine h.after fun ⟨ht, hc⟩ => ?_
        have := hstop ht
        simp [hc, hclose] at this
      rw [Option.bind_some, ih hm, and_assoc, List.append_assoc, List.singleton_append]
      exact ⟨fun h' => ⟨hstop, h'⟩, fun h' => h'.2⟩

end DdlCatalog.Sql
