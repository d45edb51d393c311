import DdlCatalog.Proofs.Sql.Skeleton

/-!
# What a scanner finds outside quotes

* `unquoted t` — the characters of `t` that a scanner takes for bare, each with its place;
* `firstStop` — what a scanner looks for among such characters, and `map_splitTop` : that is all it looks at;
* `mem_unquoted_iff` : they are those with no quotes open before them, the marks left out;
* `mem_unquoted_octets_iff` : a byte is outside quotes if and only if its character is.
-/

namespace DdlCatalog.Sql

open Text

/-- The characters of a text outside quotes and their places, for a scanner that stands at `n` and has come to
`place`. -/
def unquotedFrom (n : Nesting) (place : Nat) : List Char → List (Nat × Char)
  | [] => []
  | c :: text =>
    if n.isBare c then (place, c) :: unquotedFrom (n.after c) (place + 1) text
    else unquotedFrom (n.after c) (place + 1) text

/-- The characters of a text outside quotes, each with its place. -/
def unquoted (text : List Char) : List (Nat × Char) :=
  unquotedFrom .top 0 text

/-- The first of some characters outside quotes that `stops` accepts and that is outside parentheses, in a text that
starts inside `depth` of them. -/
def firstStop (stops : Char → Bool) (depth : Nat) : List (Nat × Char) → Option (Nat × Char)
  | [] => none
  | (place, c) :: later =>
    if depth = 0 && stops c then some (place, c)
    else firstStop stops (if c = '(' then depth + 1 else if c = ')' then depth - 1 else depth) later

variable {n n' : Nesting} {place i : Nat} {a b text : List Char} {c d : Char}

theorem isBare_iff : n.isBare c = true ↔ n.mark = none ∧ isMark c = false := by
  simp [Nesting.isBare]

theorem depth_after_of_isBare (h : n.isBare c = true) :
    (n.after c).depth = if c = '(' then n.depth + 1 else if c = ')' then n.depth - 1 else n.depth := by
  obtain ⟨hopen, hmark⟩ := isBare_iff.1 h
  unfold Nesting.after
  rw [hopen]
  dsimp only
  rw [if_neg (by simp [hmark])]
  split
  · rfl
  · split <;> rfl

theorem depth_after_of_not_isBare (h : ¬ n.isBare c = true) : (n.after c).depth = n.depth := by
  rw [isBare_iff, not_and, Bool.not_eq_false] at h
  unfold Nesting.after
  cases hopen : n.mark with
  | none =>
    dsimp only
    rw [if_pos (h hopen)]
  | some mark =>
    dsimp only
    split <;> rfl

/-- A scanner looks for its stops among the characters outside quotes. -/
theorem map_splitFrom (stops : Char → Bool) (n : Nesting) (passed text : List Char) :
    (splitFrom stops n passed text).map (fun cut => (cut.before.length, cut.char)) =
      firstStop stops n.depth (unquotedFrom n passed.length text) := by
  induction text generalizing n passed with
  | nil => rfl
  | cons c text ih =>
    rw [splitFrom, unquotedFrom]
    by_cases hbare : n.isBare c = true
    · rw [if_pos hbare, firstStop, hbare, Bool.and_true, ← depth_after_of_isBare hbare]
      split
      · simp
      · exact ih (n.after c) (c :: passed)
    · rw [if_neg hbare, if_neg (by simp [hbare]), ih, depth_after_of_not_isBare hbare]
      rfl

theorem map_splitTop (stops : Char → Bool) (text : List Char) :
    (splitTop stops text).map (fun cut => (cut.before.length, cut.char)) = firstStop stops 0 (unquoted text) :=
  map_splitFrom stops .top [] text

/-- Parentheses do not matter. -/
theorem unquotedFrom_congr (h : n.mark = n'.mark) : unquotedFrom n place text = unquotedFrom n' place text := by
  induction text generalizing n n' place with
  | nil => rfl
  | cons c text ih =>
    have hafter : (n.after c).mark = (n'.after c).mark := by rw [mark_after, mark_after, h]
    rw [unquotedFrom, unquotedFrom, ih hafter, Nesting.isBare, Nesting.isBare, h]

/-- The open mark of a scanner behind a text. -/
theorem mark_foldl_after (n : Nesting) (text : List Char) :
    (text.foldl Nesting.after n).mark = text.foldl markAfter n.mark := by
  induction text generalizing n with
  | nil => rfl
  | cons c text ih => rw [List.foldl_cons, ih, mark_after, List.foldl_cons]

theorem mem_unquotedFrom_iff :
    (i, c) ∈ unquotedFrom n place text ↔
      ∃ a b, text = a ++ c :: b ∧ place + a.length = i ∧ a.foldl markAfter n.mark = none ∧ isMark c = false := by
  induction text generalizing n place with
  | nil => simp [unquotedFrom]
  | cons d text ih =>
    have hlater : (i, c) ∈ unquotedFrom (n.after d) (place + 1) text ↔
        ∃ a b, d :: text = (d :: a) ++ c :: b ∧ place + (d :: a).length = i ∧
          (d :: a).foldl markAfter n.mark = none ∧ isMark c = false := by
      simp only [ih, mark_after, List.cons_append, List.cons.injEq, true_and, List.length_cons, List.foldl_cons,
        Nat.add_assoc, Nat.add_comm 1]
    have hhere : (i, c) ∈ unquotedFrom n place (d :: text) ↔
        (i = place ∧ c = d ∧ n.isBare d = true) ∨ (i, c) ∈ unquotedFrom (n.after d) (place + 1) text := by
      rw [unquotedFrom]
      split
      next hbare => simp [hbare]
      next hbare => simp [hbare]
    rw [hhere, hlater]
    constructor
    · rintro (⟨rfl, rfl, hbare⟩ | ⟨a, b, h⟩)
      · exact ⟨[], text, rfl, rfl, (isBare_iff.1 hbare).1, (isBare_iff.1 hbare).2⟩
      · exact ⟨d :: a, b, h⟩
    · rintro ⟨a, b, htext, hplace, hopen, hmark⟩
      cases a with
      | nil =>
        obtain ⟨rfl, -⟩ := List.cons.inj htext
        exact .inl ⟨by simpa using hplace.symm, rfl, isBare_iff.2 ⟨hopen, hmark⟩⟩
      | cons e a =>
        obtain ⟨rfl, -⟩ := List.cons.inj htext
        exact .inr ⟨a, b, htext, hplace, hopen, hmark⟩

theorem mem_unquoted_iff :
    (i, c) ∈ unquoted text ↔ ∃ a b, text = a ++ c :: b ∧ a.length = i ∧ openMark a = none ∧ isMark c = false := by
  rw [unquoted, mem_unquotedFrom_iff]
  simp [Nesting.top, openMark]

/-- The same for a place that is given by the text before it. -/
theorem mem_unquoted_append_iff :
    (a.length, c) ∈ unquoted (a ++ c :: b) ↔ openMark a = none ∧ isMark c = false := by
  rw [mem_unquoted_iff]
  constructor
  · rintro ⟨a', b', h, hlength, hopen⟩
    obtain ⟨rfl, -⟩ := List.append_inj h hlength.symm
    exact hopen
  · exact fun h => ⟨a, b, rfl, rfl, h⟩

/-! ### Byte by byte -/

theorem isMark_of_not_isAscii (h : ¬ IsAscii c) : isMark c = false := by
  have := isStructural_of_not_isAscii h
  simp only [isStructural, Bool.or_eq_false_iff] at this
  exact this.1.1.1

/-- **A byte is outside quotes if and only if its character is.** -/
theorem mem_unquoted_octets_iff (h : (octets [c])[i]? = some d) :
    (byteLength a + i, d) ∈ unquoted (octets (a ++ c :: b)) ↔ (a.length, c) ∈ unquoted (a ++ c :: b) := by
  obtain ⟨u, v, hbytes, rfl⟩ : ∃ u v, octets [c] = u ++ d :: v ∧ u.length = i := by
    obtain ⟨hlt, hget⟩ := List.getElem?_eq_some_iff.1 h
    refine ⟨(octets [c]).take i, (octets [c]).drop (i + 1), ?_, List.length_take_of_le (by omega)⟩
    rw [← hget, List.getElem_cons_drop, List.take_append_drop]
  have htext : octets (a ++ c :: b) = (octets a ++ u) ++ d :: (v ++ octets b) := by
    rw [octets_append, octets_cons, hbytes]
    simp
  have hplace : byteLength a + u.length = (octets a ++ u).length := by
    rw [List.length_append, length_octets]
  rw [htext, hplace, mem_unquoted_append_iff, mem_unquoted_append_iff]
  by_cases hc : IsAscii c
  · rw [octets_ascii hc, List.singleton_eq_append_iff] at hbytes
    obtain ⟨rfl, hd⟩ | ⟨-, hd⟩ := hbytes
    · obtain ⟨rfl, -⟩ := List.cons.inj hd
      rw [List.append_nil, openMark_octets]
    · cases hd
  · -- the bytes of such a character are no marks
    have hnone (e : Char) (he : e ∈ octets [c]) : isMark e = false :=
      isMark_of_not_isAscii (not_isAscii_of_mem_octets hc he)
    have hu : Unmarked u := fun e he => hnone e (by simp [hbytes, he])
    rw [openMark_append_of_unmarked hu, openMark_octets, hnone d (by simp [hbytes]), isMark_of_not_isAscii hc]

/-- The same for a character that is one byte. -/
theorem mem_unquoted_octets_ascii_iff (hc : IsAscii c) :
    (i, c) ∈ unquoted (octets text) ↔
      ∃ a b, text = a ++ c :: b ∧ byteLength a = i ∧ openMark a = none ∧ isMark c = false := by
  rw [mem_unquoted_iff]
  constructor
  · rintro ⟨u, v, htext, rfl, hopen, hmark⟩
    obtain ⟨a, b, rfl, rfl, rfl⟩ := (octets_eq_append_cons_iff hc).1 htext
    exact ⟨a, b, rfl, (length_octets a).symm, by rwa [openMark_octets] at hopen, hmark⟩
  · rintro ⟨a, b, rfl, rfl, hopen, hmark⟩
    have htext := (octets_eq_append_cons_iff hc).2 ⟨a, b, rfl, rfl, rfl⟩
    exact ⟨octets a, octets b, htext, length_octets a, by rwa [openMark_octets], hmark⟩

end DdlCatalog.Sql
