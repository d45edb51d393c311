import DdlCatalog.Proofs.Statement.ClauseEnd
import DdlCatalog.Proofs.Statement.Offsets
import DdlCatalog.Statement.Create

/-!
# A statement by byte offsets

The clauses of a statement are gone through with a cursor, the byte offset at which the next clause starts.

* `Table.round` — one round, which carries out the clause at the cursor; `round_cases` : all that it can do;
* `exists_round` : a round that leads to another one moves the cursor on, to a boundary of the text;
* `delimiters` — the commas and parentheses that can end a clause, and `rounds_eq` : one round for each of them and one
  more are enough;
* `Schema.createByOffsets` — a whole statement read with byte offsets, and `create_without_misstep` : it is read to its
  end, as it is without them.
-/

namespace DdlCatalog

open Sql Text

/-- What a round of the loop over the clauses leads to. -/
inductive Round where
  /-- Another round; the table so far and the cursor. -/
  | next (t : Table) (cursor : Nat)
  /-- The end of the loop; the table, and the text after the list or an error. -/
  | done (t : Table) (answer : Except ParseError (List Char))

/-- The number of commas and closing parentheses outside quotes and parentheses in a text that `before` is behind. -/
def delimitersFrom (before : List Char) : List Char → Nat
  | [] => 0
  | c :: text =>
    if AtTop before ∧ Clause.isStop c = true then delimitersFrom (before ++ [c]) text + 1
    else delimitersFrom (before ++ [c]) text

/-- The number of commas and closing parentheses outside quotes and parentheses. -/
def delimiters (text : List Char) : Nat :=
  delimitersFrom [] text

namespace Table

/-- One round: the clause at the cursor is found, read and carried out. -/
def round (body : String) (t : Table) (cursor : Nat) : Checked Round := do
  match ← Clause.endOffset body cursor with
  | .error e => return .done t (.error e)
  | .ok found =>
    let text ← slice cursor found.offset body.toList
    match ← Clause.ofTextByOffsets text with
    | .error e => return .done t (.error e)
    | .ok clause =>
      match ← t.applyClauseByNumbers clause with
      | (t, .error e) => return .done t (.error e)
      | (t, .ok ()) =>
        match found.stop with
        | .close => do
          let tail ← sliceFrom (found.offset + 1) body.toList
          return .done t (.ok tail)
        | .comma => return .next t (found.offset + 1)

/-- At most `n` rounds, one after the other. -/
def rounds (body : String) : Nat → Table → Nat → Checked (Table × Except ParseError (List Char))
  | 0, _, _ => .error .rounds
  | n + 1, t, cursor => do
    match ← round body t cursor with
    | .done t answer => return (t, answer)
    | .next t cursor => rounds body n t cursor

end Table

/-- Carries out a `CREATE TABLE` statement with byte offsets for the places in it. -/
def Schema.createByOffsets (s : Schema) (command : String) : Checked (Schema × Except ParseError String) := do
  match ← Heading.byOffsets? command.toList with
  | none => return (s, .error (.unreadable command))
  | some (name, rest) =>
    let table := String.ofList name
    let body := String.ofList (dropTerminator rest)
    match ← Table.rounds body (delimiters body.toList + 1) (s.table table) 0 with
    | (t, .error e) => return (s.put t, .error (.columnList table body e))
    | (t, .ok tail) =>
      let (t, residual) ← t.applyOptionsByOffsets tail
      let residual := trim residual
      if residual.isEmpty then return (s.put t, .ok table)
      else return (s.put t, .error (.leftover table (String.ofList residual)))

/-! ### Delimiters -/

variable {before mid text : List Char}

/-- A text without a stop at the top has no delimiter. -/
theorem delimitersFrom_append (h : NoStop Clause.isStop before mid) :
    delimitersFrom before (mid ++ text) = delimitersFrom (before ++ mid) text := by
  induction mid generalizing before with
  | nil => simp
  | cons c mid ih =>
    obtain ⟨hc, hmid⟩ := noStop_cons.1 h
    have hno : ¬ (AtTop before ∧ Clause.isStop c = true) := by
      rintro ⟨htop, hstop⟩
      rw [hc htop] at hstop
      cases hstop
    rw [List.cons_append, delimitersFrom, if_neg hno, ih hmid, List.append_assoc, List.singleton_append]

theorem delimitersFrom_of_comma (htop : AtTop before) (h : passFrom Clause.isStop .top mid = some .top) :
    delimitersFrom before (mid ++ ',' :: text) = delimitersFrom (before ++ mid ++ [',']) text + 1 := by
  obtain ⟨hno, htop'⟩ := ColumnList.noStop_of_passFrom htop h
  rw [delimitersFrom_append hno, delimitersFrom, if_pos ⟨htop', rfl⟩]

/-! ### A round -/

namespace Table

variable {body : String} {pre tail : List Char} {cut : Cut}

/-- A round that finds the end of its clause reads that clause. -/
theorem round_of_cut (t : Table) (h : body.toList = pre ++ tail) (hcut : Clause.cut tail = .ok cut) :
    round body t (byteLength pre) =
      match Clause.ofText cut.before with
      | .error e => .ok (.done t (.error e))
      | .ok clause =>
        match t.applyClause clause with
        | (t, .error e) => .ok (.done t (.error e))
        | (t, .ok ()) =>
          match Clause.Stop.ofChar cut.char with
          | .close => .ok (.done t (.ok cut.rest))
          | .comma => .ok (.next t (byteLength pre + byteLength cut.before + 1)) := by
  obtain ⟨htail, -, hstop⟩ := ColumnList.of_cut hcut
  have hone : byteLength [cut.char] = 1 := by
    rcases hstop with hstop | hstop <;> (rw [hstop]; rfl)
  have hclause : slice (byteLength pre) (byteLength pre + byteLength cut.before) body.toList = .ok cut.before :=
    slice_eq_ok_iff.2 ⟨pre, cut.char :: cut.rest, by rw [h, htail], rfl, rfl⟩
  have hrest : sliceFrom (byteLength pre + byteLength cut.before + 1) body.toList = .ok cut.rest := by
    refine sliceFrom_eq_ok_iff.2 ⟨pre ++ cut.before ++ [cut.char], ?_, ?_⟩
    · rw [h, htail]
      simp
    · rw [byteLength_append, byteLength_append, hone]
  rw [round, Clause.endOffset_eq, Checked.ok_bind, Clause.endFrom_of_boundary h, hcut]
  dsimp only
  rw [hclause, Checked.ok_bind, Clause.ofTextByOffsets_eq, Checked.ok_bind]
  cases Clause.ofText cut.before with
  | error e => rfl
  | ok clause =>
    dsimp only
    rw [applyClauseByNumbers_eq, Checked.ok_bind]
    cases t.applyClause clause with
    | mk t' answer =>
      cases answer with
      | error e => rfl
      | ok _ =>
        cases Clause.Stop.ofChar cut.char with
        | close =>
          dsimp only
          rw [hrest]
          rfl
        | comma => rfl

/-- **All that a round can do**: it ends the loop as the clauses of the text end, or it goes on behind a comma. -/
theorem round_cases (t : Table) (h : body.toList = pre ++ tail) :
    (∃ t' answer, round body t (byteLength pre) = .ok (.done t' answer) ∧ t.applyClauses tail = (t', answer)) ∨
      ∃ t' mid rest, tail = mid ++ ',' :: rest ∧ passFrom Clause.isStop .top mid = some .top ∧
        round body t (byteLength pre) = .ok (.next t' (byteLength (pre ++ mid ++ [',']))) ∧
        t.applyClauses tail = t'.applyClauses rest := by
  fun_cases Table.applyClauses t tail with
  | case1 e hcut =>
    refine .inl ⟨t, .error e, ?_, rfl⟩
    rw [round, Clause.endOffset_eq, Checked.ok_bind, Clause.endFrom_of_boundary h, hcut]
    rfl
  | case2 cut hcut e hclause =>
    refine .inl ⟨t, .error e, ?_, rfl⟩
    rw [round_of_cut t h hcut, hclause]
  | case3 cut hcut clause hclause t' e hrun =>
    refine .inl ⟨t', .error e, ?_, rfl⟩
    rw [round_of_cut t h hcut, hclause]
    dsimp only
    rw [hrun]
  | case4 cut hcut clause hclause t' hrun hstop =>
    refine .inl ⟨t', .ok cut.rest, ?_, rfl⟩
    rw [round_of_cut t h hcut, hclause]
    dsimp only
    rw [hrun, hstop]
  | case5 cut hcut clause hclause t' hrun hstop =>
    obtain ⟨htail, hpass, hchar⟩ := ColumnList.of_cut hcut
    have hcomma : cut.char = ',' := by
      refine hchar.resolve_right fun hclose => ?_
      rw [hclose] at hstop
      cases hstop
    refine .inr ⟨t', cut.before, cut.rest, by rw [← hcomma]; exact htail, hpass, ?_, rfl⟩
    rw [round_of_cut t h hcut, hclause]
    dsimp only
    rw [hrun, hstop, byteLength_append, byteLength_append]
    rfl

/-- **A round comes to its end**, and moves the cursor on to another boundary if it leads to another round. -/
theorem exists_round (body : String) (t : Table) (cursor : Nat) :
    ∃ r, round body t cursor = .ok r ∧
      ∀ t' cursor', r = .next t' cursor' →
        cursor < cursor' ∧ cursor' ≤ body.utf8ByteSize ∧ IsBoundary body cursor' := by
  by_cases hcursor : IsBoundary body cursor
  · obtain ⟨pre, tail, h, rfl⟩ := isBoundary_iff.1 hcursor
    rcases round_cases t h with ⟨t', answer, hround, -⟩ | ⟨t', mid, rest, htail, -, hround, -⟩
    · exact ⟨_, hround, fun _ _ hnext => nomatch hnext⟩
    · refine ⟨_, hround, ?_⟩
      rintro t' cursor' ⟨⟩
      have hbody : body.toList = pre ++ mid ++ [','] ++ rest := by
        rw [h, htail]
        simp
      have hcomma : byteLength [','] = 1 := rfl
      refine ⟨?_, ?_, isBoundary_iff.2 ⟨_, _, hbody, rfl⟩⟩
      · rw [byteLength_append, byteLength_append, hcomma]
        omega
      · rw [← byteLength_toList, hbody, byteLength_append _ rest]
        omega
  · refine ⟨.done t (.error (.unreadable body)), ?_, fun _ _ hnext => nomatch hnext⟩
    rw [round, Clause.endOffset_eq, Clause.endFrom_of_not_boundary hcursor]
    rfl

/-! ### The loop -/

/-- **One round for each delimiter and one more are enough**, from any comma on. -/
theorem rounds_of_atTop (t : Table) (htop : AtTop pre) (h : body.toList = pre ++ tail) :
    rounds body (delimitersFrom pre tail + 1) t (byteLength pre) = .ok (t.applyClauses tail) := by
  -- on what is left of the list; the cursor stands at the top, and it does so again behind the next comma
  induction hn : tail.length using Nat.strong_induction_on generalizing t pre tail with
  | _ n ih =>
    rw [rounds]
    rcases round_cases t h with ⟨t', answer, hround, hanswer⟩ | ⟨t', mid, rest, rfl, hpass, hround, hanswer⟩
    · rw [hround, Checked.ok_bind, hanswer]
      rfl
    · have hbody : body.toList = pre ++ mid ++ [','] ++ rest := by
        rw [h]
        simp
      have hshorter : rest.length < n := by
        rw [← hn, List.length_append, List.length_cons]
        omega
      rw [hround, Checked.ok_bind, hanswer, delimitersFrom_of_comma htop hpass]
      exact ih rest.length hshorter t' (ColumnList.atTop_comma htop hpass) hbody rfl

theorem rounds_eq (body : String) (t : Table) :
    rounds body (delimiters body.toList + 1) t 0 = .ok (t.applyClauses body.toList) :=
  rounds_of_atTop t atTop_nil rfl

end Table

/-! ### The statement -/

/-- **No statement leads to a misstep.**  Read with byte offsets, every statement does to the schema what it does
without them: each piece that is cut out of it lies in order between two boundaries, no number falls below zero, and
there is one round at most for each delimiter of the list and one more.  A round moves the cursor on, to a boundary of
the list. -/
theorem Schema.create_without_misstep (s : Schema) (command : String) :
    s.createByOffsets command = .ok (s.create command) ∧
      (∀ (text : String) (start stop : Nat), (∃ mid, slice start stop text.toList = .ok mid) ↔
        start ≤ stop ∧ IsBoundary text start ∧ IsBoundary text stop) ∧
      (∀ (body : String) (t : Table),
        Table.rounds body (delimiters body.toList + 1) t 0 = .ok (t.applyClauses body.toList)) ∧
      ∀ (body : String) (t : Table) (cursor : Nat), ∃ r, Table.round body t cursor = .ok r ∧
        ∀ t' cursor', r = .next t' cursor' →
          cursor < cursor' ∧ cursor' ≤ body.utf8ByteSize ∧ IsBoundary body cursor' := by
  refine ⟨?_, fun _ _ _ => isOk_slice_iff, Table.rounds_eq, Table.exists_round⟩
  rw [createByOffsets, Heading.byOffsets?_eq, Checked.ok_bind]
  unfold create Heading.ofCommand
  cases Heading.find? command.toList with
  | none => rfl
  | some found =>
    obtain ⟨name, rest⟩ := found
    dsimp only
    rw [Table.rounds_eq, Checked.ok_bind, String.toList_ofList, String.toList_ofList]
    rcases (s.table (String.ofList name)).applyClauses (dropTerminator rest) with ⟨t, e | tail⟩
    · rfl
    · dsimp only
      rw [Table.applyOptionsByOffsets_eq, Checked.ok_bind]
      split <;> rfl

-- The blanks have three bytes each here and the names have two.
example : (Schema.default.createByOffsets "CREATE TABLE\u3000é\u3000(ü\u3000int) INHERITS\u3000(ß)").map Prod.snd =
    .ok (.ok "é") := by
  decide +kernel

end DdlCatalog
