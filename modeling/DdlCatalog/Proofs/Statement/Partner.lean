import DdlCatalog.Proofs.Statement.ClauseEnd
import DdlCatalog.Sql.Group

/-!
# Two ways to the end of a list

A search for the partner of a parenthesis runs over commas, and a walk from clause to clause stops at each and starts
afresh.

* `Walk text start answer` — clause by clause from `start` on, up to the parenthesis that closes the list or an error;
* `splitTop_of_cut_eq_ok`, `splitTop_of_cut_eq_error` : what the end of one clause tells the search;
* `walk_of_splitTop` : the walk ends, and where the search does;
* `partnerOffset?_eq_walk` : both find the same partner or none.
-/

namespace DdlCatalog.Clause

open Sql Text

/-- A walk over the clauses of a text from a byte offset on.  Its answer is the offset of the parenthesis that ends the
last clause, or what is wrong with the clause it does not get past. -/
inductive Walk (text : String) : Nat → Except ParseError Nat → Prop
  | close {start offset : Nat} (h : endFrom text start = .ok ⟨offset, .close⟩) : Walk text start (.ok offset)
  | comma {start offset : Nat} {answer : Except ParseError Nat} (h : endFrom text start = .ok ⟨offset, .comma⟩)
    (later : Walk text (offset + 1) answer) : Walk text start answer
  | fault {start : Nat} {e : ParseError} (h : endFrom text start = .error e) : Walk text start (.error e)

variable {text : String} {pre tail : List Char} {start : Nat} {c : Cut}

/-- There is one answer. -/
theorem Walk.unique {a b : Except ParseError Nat} (ha : Walk text start a) (hb : Walk text start b) : a = b := by
  induction ha generalizing b with
  | close h => cases hb <;> simp_all
  | fault h => cases hb <;> simp_all
  | comma h later ih =>
    cases hb with
    | close h' => simp [h] at h'
    | fault h' => simp [h] at h'
    | comma h' later' =>
      rw [h] at h'
      obtain ⟨rfl, -⟩ := End.mk.inj (Except.ok.inj h')
      exact ih later'

/-! ### The search and one clause -/

/-- What is passed in search of a comma or a parenthesis is passed in search of a parenthesis. -/
theorem passFrom_close_of_isStop {n m : Nesting} (h : passFrom isStop n tail = some m) :
    passFrom (· == ')') n tail = some m := by
  induction tail generalizing n with
  | nil => exact h
  | cons c tail ih =>
    rw [passFrom_cons, Option.bind_eq_some_iff] at h
    obtain ⟨n', hstep, hrest⟩ := h
    have hnext : pass? (· == ')') n c = some n' := by
      obtain rfl := pass?_of_some hstep
      cases hp : pass? (· == ')') n c with
      | some n'' => rw [pass?_of_some hp]
      | none =>
        obtain ⟨htop, hmark, hclose⟩ := pass?_eq_none_iff.1 hp
        have hstop : isStop c = true := by simp [isStop, beq_iff_eq.1 hclose]
        rw [pass?_eq_none_iff.2 ⟨htop, hmark, hstop⟩] at hstep
        cases hstep
    rw [passFrom_cons, hnext, Option.bind_some]
    exact ih hrest

/-- Behind a comma the search goes on as if the text started there. -/
theorem splitTop_of_comma {before rest : List Char} (h : passFrom isStop .top before = some .top) :
    splitTop (· == ')') (before ++ ',' :: rest) =
      (splitTop (· == ')') rest).map fun c => { c with before := before ++ ',' :: c.before } := by
  have hpass (a : List Char) : passFrom (· == ')') .top (before ++ ',' :: a) = passFrom (· == ')') .top a := by
    rw [passFrom_append, passFrom_close_of_isStop h]
    rfl
  cases hrest : splitTop (· == ')') rest with
  | none =>
    rw [Option.map_none, splitTop_eq_none_iff, hpass, ← splitTop_eq_none_iff, hrest]
  | some c =>
    obtain ⟨rfl, hbefore, hmark, hstop⟩ := splitTop_eq_some_iff.1 hrest
    rw [Option.map_some, splitTop_eq_some_iff]
    exact ⟨by simp, by rw [hpass, hbefore], hmark, hstop⟩

theorem splitTop_of_cut_eq_ok (h : Clause.cut tail = .ok c) :
    splitTop (· == ')') tail =
      match Stop.ofChar c.char with
      | .close => some c
      | .comma => (splitTop (· == ')') c.rest).map fun d => { d with before := c.before ++ ',' :: d.before } := by
  obtain ⟨e, hpass, hc⟩ := ColumnList.of_cut h
  rcases hc with hc | hc
  · have hstop : Stop.ofChar c.char = .comma := by rw [hc]; rfl
    rw [hstop, e, hc, splitTop_of_comma hpass]
  · have hstop : Stop.ofChar c.char = .close := by rw [hc]; rfl
    rw [hstop, splitTop_eq_some_iff]
    exact ⟨e, passFrom_close_of_isStop hpass, by rw [hc]; rfl, by rw [hc]; rfl⟩

theorem splitTop_of_cut_eq_error {e : ParseError} (h : Clause.cut tail = .error e) :
    splitTop (· == ')') tail = none := by
  obtain ⟨-, n, hn⟩ := ColumnList.of_cut_error h
  rw [splitTop_eq_none_iff, passFrom_close_of_isStop hn]
  rfl

/-! ### The search and the walk -/

/-- A walk ends where the search does, and in an unterminated clause if the search finds nothing. -/
theorem walk_of_splitTop {pre tail : List Char} (h : text.toList = pre ++ tail) :
    match splitTop (· == ')') tail with
    | some c => Walk text (byteLength pre) (.ok (byteLength pre + byteLength c.before))
    | none => ∃ clause, Walk text (byteLength pre) (.error (.unterminated clause)) := by
  have hend := endFrom_of_boundary h
  cases hcut : Clause.cut tail with
  | error e =>
    obtain ⟨rfl, -⟩ := of_cut_eq_error hcut
    rw [hcut] at hend
    rw [splitTop_of_cut_eq_error hcut]
    exact ⟨_, .fault hend⟩
  | ok c =>
    rw [hcut] at hend
    dsimp only at hend
    rw [splitTop_of_cut_eq_ok hcut]
    obtain ⟨htail, -, hc⟩ := ColumnList.of_cut hcut
    rcases hc with hc | hc
    · -- the rest of the walk starts behind the comma
      have hstop : Stop.ofChar c.char = .comma := by rw [hc]; rfl
      have hrest : text.toList = (pre ++ c.before ++ [',']) ++ c.rest := by
        rw [h, htail, hc]
        simp
      have hlength : byteLength (pre ++ c.before ++ [',']) = byteLength pre + byteLength c.before + 1 := by
        rw [byteLength_append, byteLength_append]
        rfl
      have ih := walk_of_splitTop hrest
      rw [hstop] at hend ⊢
      rw [hlength] at ih
      dsimp only
      cases hsplit : splitTop (· == ')') c.rest with
      | none =>
        rw [hsplit] at ih
        obtain ⟨clause, hwalk⟩ := ih
        exact ⟨clause, .comma hend hwalk⟩
      | some d =>
        rw [hsplit] at ih
        have hplace : byteLength pre + byteLength (c.before ++ ',' :: d.before) =
            byteLength pre + byteLength c.before + 1 + byteLength d.before := by
          rw [byteLength_append, byteLength_cons, Nat.add_assoc, Nat.add_assoc]
          rfl
        dsimp only [Option.map_some]
        rw [hplace]
        exact .comma hend ih
    · have hstop : Stop.ofChar c.char = .close := by rw [hc]; rfl
      rw [hstop] at hend ⊢
      exact .close hend
termination_by tail.length
decreasing_by exact length_rest_lt_of_cut hcut

/-- A list that is carried out ends at the parenthesis that the search finds. -/
theorem splitTop_of_applyClauses {t t' : Table} {body : List Char} (h : t.applyClauses body = (t', .ok tail)) :
    ∃ inside, splitTop (· == ')') body = some ⟨inside, ')', tail⟩ := by
  fun_induction Table.applyClauses t body with
  | case1 | case2 | case3 => simp at h
  | case4 t body cut hcut clause hclause t' hrun hstop =>
    obtain rfl := Except.ok.inj (Prod.mk.inj h).2
    obtain ⟨-, -, hc⟩ := ColumnList.of_cut hcut
    have hclose : cut.char = ')' := hc.resolve_left fun hcomma => by simp [hcomma, Stop.ofChar] at hstop
    refine ⟨cut.before, ?_⟩
    rw [splitTop_of_cut_eq_ok hcut, hstop, ← hclose]
  | case5 t body cut hcut clause hclause t' hrun hstop ih =>
    obtain ⟨inside, hsplit⟩ := ih h
    refine ⟨cut.before ++ ',' :: inside, ?_⟩
    rw [splitTop_of_cut_eq_ok hcut, hstop, hsplit]
    rfl

/-- The partner of a parenthesis is the end of the list behind it. -/
theorem partnerOffset?_of_open (h : text.toList = pre ++ '(' :: tail) :
    partnerOffset? text (byteLength pre) =
      (splitTop (· == ')') tail).map fun c => byteLength pre + 1 + byteLength c.before := by
  have hdrop : dropBytes? (byteLength pre) text.toList = some ('(' :: tail) := dropBytes?_eq_some.2 ⟨pre, h, rfl⟩
  have hgroup : group? ('(' :: tail) = (splitTop (· == ')') tail).map fun c => (c.before, c.rest) := rfl
  unfold partnerOffset?
  rw [hdrop]
  dsimp only
  rw [hgroup, Option.map_map]
  rfl

theorem partnerOffset?_of_not_open (h : (octets text.toList)[start]? ≠ some '(') :
    partnerOffset? text start = none := by
  unfold partnerOffset?
  cases hdrop : dropBytes? start text.toList with
  | none => rfl
  | some tail =>
    obtain ⟨pre, htext, hlength⟩ := dropBytes?_eq_some.1 hdrop
    dsimp only
    rw [Option.map_eq_none_iff]
    unfold group?
    split
    next rest => exact absurd ((getElem?_octets_iff (by decide)).2 ⟨pre, rest, htext, hlength⟩) h
    · rfl

/-- A walk from behind an opening parenthesis ends at its partner, and in an unterminated clause if there is none. -/
theorem walk_of_partnerOffset? (h : (octets text.toList)[start]? = some '(') :
    match partnerOffset? text start with
    | some c => Walk text (start + 1) (.ok c)
    | none => ∃ clause, Walk text (start + 1) (.error (.unterminated clause)) := by
  obtain ⟨pre, tail, htext, rfl⟩ := (getElem?_octets_iff (by decide)).1 h
  have hbehind : text.toList = (pre ++ ['(']) ++ tail := by simp [htext]
  have hlength : byteLength (pre ++ ['(']) = byteLength pre + 1 := byteLength_append pre ['(']
  have hwalk := walk_of_splitTop hbehind
  rw [hlength] at hwalk
  rw [partnerOffset?_of_open htext]
  cases hsplit : splitTop (· == ')') tail <;> simpa [hsplit] using hwalk

theorem partnerOffset?_eq_some_iff {offset : Nat} :
    partnerOffset? text start = some offset ↔
      (octets text.toList)[start]? = some '(' ∧ Walk text (start + 1) (.ok offset) := by
  by_cases hopen : (octets text.toList)[start]? = some '('
  · have hwalk := walk_of_partnerOffset? hopen
    rw [and_iff_right hopen]
    cases hpartner : partnerOffset? text start with
    | some found =>
      rw [hpartner] at hwalk
      refine ⟨fun h => Option.some.inj h ▸ hwalk, fun h => ?_⟩
      rw [Except.ok.inj (hwalk.unique h)]
    | none =>
      rw [hpartner] at hwalk
      obtain ⟨clause, hwalk⟩ := hwalk
      refine ⟨fun h => (Option.some_ne_none _ h.symm).elim, fun h => ?_⟩
      cases hwalk.unique h
  · rw [partnerOffset?_of_not_open hopen]
    simp [hopen]

theorem partnerOffset?_eq_none_iff :
    partnerOffset? text start = none ↔
      (octets text.toList)[start]? ≠ some '(' ∨ ∃ clause, Walk text (start + 1) (.error (.unterminated clause)) := by
  constructor
  · intro hnone
    by_cases hopen : (octets text.toList)[start]? = some '('
    · have hwalk := walk_of_partnerOffset? hopen
      rw [hnone] at hwalk
      exact .inr hwalk
    · exact .inl hopen
  · rintro (hopen | ⟨clause, hwalk⟩)
    · exact partnerOffset?_of_not_open hopen
    · by_contra hsome
      obtain ⟨offset, hoffset⟩ := Option.ne_none_iff_exists'.1 hsome
      cases hwalk.unique (partnerOffset?_eq_some_iff.1 hoffset).2

/-- What is behind a list that is carried out starts behind the partner of the parenthesis before the list. -/
theorem exists_partner_of_applyClauses {t t' : Table} {body : List Char} (h : t.applyClauses body = (t', .ok tail)) :
    ∃ offset, partnerOffset? (String.ofList ('(' :: body)) 0 = some offset ∧
      dropBytes? (offset + 1) ('(' :: body) = some tail := by
  obtain ⟨inside, hsplit⟩ := splitTop_of_applyClauses h
  have hbody : body = inside ++ ')' :: tail := (splitTop_eq_some_iff.1 hsplit).1
  have hlist : (String.ofList ('(' :: body)).toList = [] ++ '(' :: body := String.toList_ofList
  have hpartner := partnerOffset?_of_open hlist
  rw [hsplit] at hpartner
  refine ⟨_, hpartner, dropBytes?_eq_some.2 ⟨'(' :: (inside ++ [')']), by simp [hbody], ?_⟩⟩
  rw [byteLength_cons, byteLength_append, byteLength_nil, Nat.zero_add, Nat.add_assoc]
  rfl

/-- **The partner of a parenthesis is where a walk over clauses ends.**  The search over all of the list finds the
parenthesis at which the last clause ends, and it finds none if and only if there is no parenthesis to start from or
the walk ends in an unterminated clause.  What is behind a list that is carried out starts behind the partner. -/
theorem partnerOffset?_eq_walk (text : String) (start : Nat) :
    (∀ offset, partnerOffset? text start = some offset ↔
      (octets text.toList)[start]? = some '(' ∧ Walk text (start + 1) (.ok offset)) ∧
    (partnerOffset? text start = none ↔
      (octets text.toList)[start]? ≠ some '(' ∨ ∃ clause, Walk text (start + 1) (.error (.unterminated clause))) ∧
    ∀ (t t' : Table) (body tail : List Char), t.applyClauses body = (t', .ok tail) →
      ∃ offset, partnerOffset? (String.ofList ('(' :: body)) 0 = some offset ∧
        dropBytes? (offset + 1) ('(' :: body) = some tail :=
  ⟨fun _ => partnerOffset?_eq_some_iff, partnerOffset?_eq_none_iff, fun _ _ _ _ => exists_partner_of_applyClauses⟩

/-- Over two commas and a parenthesis in quotes. -/
example : partnerOffset? "é (a, (b, 'c)') d), e)" 3 = some 18 := by decide +kernel

end DdlCatalog.Clause
