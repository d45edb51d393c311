import DdlCatalog.Proofs.Catalog.Define
import DdlCatalog.Proofs.Sql.Skeleton
import DdlCatalog.Statement.Clause

/-!
# The column list as a whole

`Table.applyClauses` finds a clause, carries it out and only then looks for the next one, with a scanner that starts
afresh.  Here the list is cut first, and the clauses are carried out afterwards.

* `ColumnList.ofBody` — the body cut at its commas outside quotes and parentheses, up to the first closing
  parenthesis there.  A place is judged by all the text before it;
* `Clause.fault?` — why a clause cannot be carried out.  The table plays no part in it;
* `applyClauses_eq` : the loop leaves the table and gives the answer that `ColumnList.carryOut` does.
-/

namespace DdlCatalog

open Sql Text

/-- How a column list ends. -/
inductive Ending where
  /-- A parenthesis closes the list; the text after it. -/
  | tail (text : List Char)
  /-- No parenthesis closes the list; the text after its last comma. -/
  | broken (clause : List Char)
  deriving DecidableEq, Repr

/-- The clauses of a column list that something ends, and what comes after them. -/
structure ColumnList where
  clauses : List (List Char)
  ending : Ending
  deriving DecidableEq, Repr

namespace ColumnList

/-- The column list in a text that `before` is behind; `clause` is the last part of `before`. -/
def cutFrom (before clause : List Char) : List Char → ColumnList
  | [] => { clauses := [], ending := .broken clause }
  | c :: text =>
    if AtTop before ∧ c = ')' then { clauses := [clause], ending := .tail text }
    else if AtTop before ∧ c = ',' then
      let later := cutFrom (before ++ [c]) [] text
      { later with clauses := clause :: later.clauses }
    else cutFrom (before ++ [c]) (clause ++ [c]) text

/-- The column list in a text that starts behind its opening parenthesis. -/
def ofBody (body : List Char) : ColumnList :=
  cutFrom [] [] body

end ColumnList

namespace Clause

/-- Why a clause cannot be carried out. -/
def fault? (text : List Char) : Option ParseError :=
  match ofText text with
  | .error e => some e
  | .ok (.column name definition) =>
    if (Definition.ofText? definition.toList).isSome then none
    else some (.definition (.invalidDefinition name definition))
  | .ok _ => none

theorem isStructural_of_isStop (c : Char) (h : isStop c = true) : isStructural c = true := by
  simp only [isStop, Bool.or_eq_true, beq_iff_eq] at h
  rcases h with rfl | rfl <;> rfl

end Clause

/-- The table with what the clause in a text declares. -/
def Table.declare (t : Table) (text : List Char) : Table :=
  match Clause.ofText text with
  | .error _ => t
  | .ok clause => (t.applyClause clause).1

/-- The table with the column that the clause in a text names, if it names one. -/
def Table.mention (t : Table) (text : List Char) : Table :=
  match Clause.ofText text with
  | .ok (.column name _) => t.ensureColumn name
  | _ => t

namespace ColumnList

/-- Carries out clauses up to the first that has a fault, with that fault. -/
def carryClauses (t : Table) : List (List Char) → Table × Option ParseError
  | [] => (t, none)
  | text :: texts =>
    match Clause.fault? text with
    | some e => (t.declare text, some e)
    | none => carryClauses (t.declare text) texts

/-- Carries out a column list and gives the text after it. -/
def carryOut (t : Table) (list : ColumnList) : Table × Except ParseError (List Char) :=
  match carryClauses t list.clauses, list.ending with
  | (t, some e), _ => (t, .error e)
  | (t, none), .tail text => (t, .ok text)
  | (t, none), .broken clause => (t, .error (.unterminated (String.ofList (trim clause))))

variable {t : Table} {before clause text mid : List Char} {c : Char}

/-! ### Cutting the list -/

theorem isMark_of_isStop (h : Clause.isStop c = true) : isMark c = false := by
  simp only [Clause.isStop, Bool.or_eq_true, beq_iff_eq] at h
  rcases h with rfl | rfl <;> decide

theorem cutFrom_append (h : NoStop Clause.isStop before mid) :
    cutFrom before clause (mid ++ text) = cutFrom (before ++ mid) (clause ++ mid) text := by
  induction mid generalizing before clause with
  | nil => simp
  | cons c mid ih =>
    obtain ⟨h0, h1⟩ := noStop_cons.1 h
    have hc : ¬ (AtTop before ∧ c = ')') ∧ ¬ (AtTop before ∧ c = ',') := by
      constructor <;> rintro ⟨ht, rfl⟩ <;> exact absurd (h0 ht) (by decide)
    rw [List.cons_append, cutFrom, if_neg hc.1, if_neg hc.2, ih h1]
    simp

theorem passFrom_isStop_iff (ht : AtTop before) {n : Nesting} :
    passFrom Clause.isStop .top text = some n ↔ NoStop Clause.isStop before text ∧ Tracks n (before ++ text) :=
  passFrom_eq_some_iff (by decide) (fun _ => isMark_of_isStop) (tracks_top ht)

/-- What is passed at the top is a clause without a stop. -/
theorem noStop_of_passFrom (ht : AtTop before) (h : passFrom Clause.isStop .top mid = some .top) :
    NoStop Clause.isStop before mid ∧ AtTop (before ++ mid) := by
  have := (passFrom_isStop_iff ht).1 h
  exact ⟨this.1, this.2.atTop_iff.2 rfl⟩

theorem cutFrom_of_close (ht : AtTop before) (h : passFrom Clause.isStop .top mid = some .top) :
    cutFrom before [] (mid ++ ')' :: text) = { clauses := [mid], ending := .tail text } := by
  obtain ⟨hn, ht'⟩ := noStop_of_passFrom ht h
  rw [cutFrom_append hn, cutFrom, if_pos ⟨ht', rfl⟩]
  rfl

theorem cutFrom_of_comma (ht : AtTop before) (h : passFrom Clause.isStop .top mid = some .top) :
    cutFrom before [] (mid ++ ',' :: text) =
      { cutFrom (before ++ mid ++ [',']) [] text with
        clauses := mid :: (cutFrom (before ++ mid ++ [',']) [] text).clauses } := by
  obtain ⟨hn, ht'⟩ := noStop_of_passFrom ht h
  rw [cutFrom_append hn, cutFrom, if_neg (by simp), if_pos ⟨ht', rfl⟩]
  rfl

theorem cutFrom_of_noStop (h : NoStop Clause.isStop before text) :
    cutFrom before [] text = { clauses := [], ending := .broken text } := by
  calc cutFrom before [] text = cutFrom before [] (text ++ []) := by rw [List.append_nil]
    _ = { clauses := [], ending := .broken text } := by rw [cutFrom_append h]; simp [cutFrom]

theorem atTop_comma (ht : AtTop before) (h : passFrom Clause.isStop .top mid = some .top) :
    AtTop (before ++ mid ++ [',']) := by
  obtain ⟨-, ht'⟩ := noStop_of_passFrom ht h
  exact ht'.append_iff.2 ⟨rfl, rfl⟩

/-- A clause that something ends is passed from the top to the top. -/
theorem passFrom_of_mem_cutFrom {n : Nesting} (hpass : passFrom Clause.isStop .top clause = some n)
    (htracks : Tracks n before) {found : List Char} (h : found ∈ (cutFrom before clause text).clauses) :
    passFrom Clause.isStop .top found = some .top := by
  induction text generalizing before clause n with
  | nil => simp [cutFrom] at h
  | cons c text ih =>
    rw [cutFrom] at h
    by_cases hclose : AtTop before ∧ c = ')'
    · obtain rfl := htracks.atTop_iff.1 hclose.1
      rw [if_pos hclose] at h
      obtain rfl : found = clause := by simpa using h
      exact hpass
    · rw [if_neg hclose] at h
      by_cases hcomma : AtTop before ∧ c = ','
      · obtain rfl := htracks.atTop_iff.1 hcomma.1
        rw [if_pos hcomma] at h
        rcases List.mem_cons.1 h with rfl | h
        · exact hpass
        · rw [hcomma.2] at h
          exact ih rfl (tracks_top (hcomma.1.append_iff.2 ⟨rfl, rfl⟩)) h
      · rw [if_neg hcomma] at h
        -- no stop at the top, so that the scanner goes on from the state behind the character
        have hstep : pass? Clause.isStop n c = some (n.after c) := by
          cases hp : pass? Clause.isStop n c with
          | some m => rw [pass?_of_some hp]
          | none =>
            obtain ⟨hn, -, hstop⟩ := pass?_eq_none_iff.1 hp
            have htop := htracks.atTop_iff.2 hn
            simp only [Clause.isStop, Bool.or_eq_true, beq_iff_eq] at hstop
            exact (hstop.elim (fun e => hcomma ⟨htop, e⟩) fun e => hclose ⟨htop, e⟩).elim
        refine ih (n := n.after c) ?_ (htracks.after ?_) h
        · rw [passFrom_append, hpass, Option.bind_some, passFrom_cons, hstep]
          rfl
        · rintro ⟨rfl, rfl⟩
          exact hclose ⟨htracks.atTop_iff.2 rfl, rfl⟩

theorem passFrom_of_mem_ofBody {body found : List Char} (h : found ∈ (ofBody body).clauses) :
    passFrom Clause.isStop .top found = some .top :=
  passFrom_of_mem_cutFrom rfl (tracks_top atTop_nil) h

/-- Clauses with commas between them and a parenthesis behind them are found again. -/
theorem cutFrom_intercalate {clauses : List (List Char)} (ht : AtTop before) (hne : clauses ≠ [])
    (h : ∀ c ∈ clauses, passFrom Clause.isStop .top c = some .top) :
    cutFrom before [] ([','].intercalate clauses ++ ')' :: text) = { clauses, ending := .tail text } := by
  induction clauses generalizing before with
  | nil => exact absurd rfl hne
  | cons c clauses ih =>
    have hc : passFrom Clause.isStop .top c = some .top := h c (by simp)
    cases clauses with
    | nil => rw [List.intercalate_singleton, cutFrom_of_close ht hc]
    | cons d clauses =>
      have hrest : [','].intercalate (c :: d :: clauses) ++ ')' :: text =
          c ++ ',' :: ([','].intercalate (d :: clauses) ++ ')' :: text) := by
        simp [List.intercalate_cons_cons]
      rw [hrest, cutFrom_of_comma ht hc, ih (atTop_comma ht hc) (by simp) fun e he => h e (by simp [he])]

/-- A list that is closed is its clauses with commas between them. -/
theorem eq_intercalate_of_cutFrom {clauses : List (List Char)} {tail : List Char}
    (h : cutFrom before clause text = { clauses, ending := .tail tail }) :
    clauses ≠ [] ∧ clause ++ text = [','].intercalate clauses ++ ')' :: tail := by
  induction text generalizing before clause clauses with
  | nil => simp [cutFrom] at h
  | cons c text ih =>
    rw [cutFrom] at h
    split at h
    next hclose =>
      obtain ⟨rfl, hending⟩ := ColumnList.mk.inj h
      obtain rfl := Ending.tail.inj hending
      simp [hclose.2]
    next =>
      split at h
      next hcomma =>
        obtain ⟨rfl, hending⟩ := ColumnList.mk.inj h
        have hlist : cutFrom (before ++ [c]) [] text =
            { clauses := (cutFrom (before ++ [c]) [] text).clauses, ending := .tail tail } := by
          rw [← hending]
        obtain ⟨hne, e⟩ := ih hlist
        obtain ⟨d, rest, hrest⟩ := List.exists_cons_of_ne_nil hne
        rw [hrest] at e ⊢
        refine ⟨by simp, ?_⟩
        rw [List.nil_append] at e
        rw [hcomma.2, e, List.intercalate_cons_cons]
        simp
      next =>
        obtain ⟨hne, e⟩ := ih h
        exact ⟨hne, by simpa using e⟩

/-! ### Carrying it out -/

theorem declare_of_error {e : ParseError} (h : Clause.ofText text = .error e) : t.declare text = t := by
  simp [Table.declare, h]

theorem declare_of_ok {clause : Clause} (h : Clause.ofText text = .ok clause) :
    t.declare text = (t.applyClause clause).1 := by
  simp [Table.declare, h]

section Column

variable {name definition : String}

theorem applyClause_of_some {d : Definition} (hd : Definition.ofText? definition.toList = some d) :
    t.applyClause (.column name definition) = (t.putColumn (d.column name), .ok ()) := by
  unfold Table.applyClause
  dsimp only
  rw [Table.defineColumn_of_some hd]

theorem applyClause_of_none (hd : Definition.ofText? definition.toList = none) :
    t.applyClause (.column name definition) =
      (t.ensureColumn name, .error (.definition (.invalidDefinition name definition))) := by
  unfold Table.applyClause
  dsimp only
  rw [Table.defineColumn_of_none hd]

theorem fault?_of_some {d : Definition} (h : Clause.ofText text = .ok (.column name definition))
    (hd : Definition.ofText? definition.toList = some d) : Clause.fault? text = none := by
  unfold Clause.fault?
  rw [h]
  dsimp only
  rw [hd]
  rfl

theorem fault?_of_none (h : Clause.ofText text = .ok (.column name definition))
    (hd : Definition.ofText? definition.toList = none) :
    Clause.fault? text = some (.definition (.invalidDefinition name definition)) := by
  unfold Clause.fault?
  rw [h]
  dsimp only
  rw [hd]
  rfl

end Column

theorem applyClause_eq {clause : Clause} (h : Clause.ofText text = .ok clause) :
    t.applyClause clause = (t.declare text, (Clause.fault? text).elim (.ok ()) .error) := by
  rw [declare_of_ok h]
  cases clause with
  | constraint name definition =>
    have hf : Clause.fault? text = none := by simp [Clause.fault?, h]
    rw [hf]
    rfl
  | empty =>
    have hf : Clause.fault? text = none := by simp [Clause.fault?, h]
    rw [hf]
    rfl
  | column name definition =>
    cases hd : Definition.ofText? definition.toList with
    | none => rw [applyClause_of_none hd, fault?_of_none h hd]; rfl
    | some d => rw [applyClause_of_some hd, fault?_of_some h hd]; rfl

/-- A clause changes the columns and the constraints only. -/
theorem declare_frame (t : Table) (text : List Char) :
    t.declare text =
      { t with columns := (t.declare text).columns, constraints := (t.declare text).constraints } := by
  cases h : Clause.ofText text with
  | error e => rw [declare_of_error h]
  | ok clause =>
    rw [declare_of_ok h]
    cases clause with
    | constraint name definition => rfl
    | empty => rfl
    | column name definition =>
      cases hd : Definition.ofText? definition.toList with
      | none => rw [applyClause_of_none hd]; rfl
      | some d => rw [applyClause_of_some hd]; rfl

theorem foldl_declare_frame (t : Table) (texts : List (List Char)) :
    texts.foldl Table.declare t =
      { t with
          columns := (texts.foldl Table.declare t).columns
          constraints := (texts.foldl Table.declare t).constraints } := by
  induction texts generalizing t with
  | nil => rfl
  | cons text texts ih =>
    rw [List.foldl_cons, ih, declare_frame t text]

/-- A clause with a fault leaves at most the column that it names. -/
theorem declare_of_fault {e : ParseError} (h : Clause.fault? text = some e) :
    t.declare text = t.mention text := by
  unfold Table.mention
  cases htext : Clause.ofText text with
  | error e => rw [declare_of_error htext]
  | ok clause =>
    cases clause with
    | constraint name definition => simp [Clause.fault?, htext] at h
    | empty => simp [Clause.fault?, htext] at h
    | column name definition =>
      cases hd : Definition.ofText? definition.toList with
      | none => rw [declare_of_ok htext, applyClause_of_none hd]
      | some d => simp [fault?_of_some htext hd] at h

theorem fault_of_applyClause {clause : Clause} {t' : Table} {e : ParseError} (h : Clause.ofText text = .ok clause)
    (hrun : t.applyClause clause = (t', .error e)) : t' = t.declare text ∧ Clause.fault? text = some e := by
  rw [applyClause_eq h, Prod.mk.injEq] at hrun
  refine ⟨hrun.1.symm, ?_⟩
  cases hf : Clause.fault? text <;> simp [hf] at hrun
  rw [hrun.2]

theorem no_fault_of_applyClause {clause : Clause} {t' : Table} (h : Clause.ofText text = .ok clause)
    (hrun : t.applyClause clause = (t', .ok ())) : t' = t.declare text ∧ Clause.fault? text = none := by
  rw [applyClause_eq h, Prod.mk.injEq] at hrun
  refine ⟨hrun.1.symm, ?_⟩
  cases hf : Clause.fault? text <;> simp [hf] at hrun
  rfl

theorem of_cut {cut : Cut} (h : Clause.cut text = .ok cut) :
    text = cut.before ++ cut.char :: cut.rest ∧ passFrom Clause.isStop .top cut.before = some .top ∧
      (cut.char = ',' ∨ cut.char = ')') := by
  unfold Clause.cut at h
  split at h
  next found =>
    cases h
    obtain ⟨e, hp, -, hc⟩ := splitTop_eq_some_iff.1 found
    exact ⟨e, hp, by simpa [Clause.isStop] using hc⟩
  · cases h

/-- A clause is not cut if there is nothing in the text to end it. -/
theorem of_cut_error {e : ParseError} (h : Clause.cut text = .error e) :
    e = .unterminated (String.ofList (trim text)) ∧ ∃ n, passFrom Clause.isStop .top text = some n := by
  unfold Clause.cut at h
  split at h
  · cases h
  next hnone => exact ⟨(Except.error.inj h).symm, Option.isSome_iff_exists.1 (splitTop_eq_none_iff.1 hnone)⟩

/-- The list that starts with a cut clause. -/
theorem cutFrom_of_cut {cut : Cut} (ht : AtTop before) (h : Clause.cut text = .ok cut) :
    ∃ rest : ColumnList, cutFrom before [] text = { rest with clauses := cut.before :: rest.clauses } ∧
      (cut.char = ')' → rest = { clauses := [], ending := .tail cut.rest }) ∧
      (cut.char = ',' → rest = cutFrom (before ++ cut.before ++ [',']) [] cut.rest) := by
  obtain ⟨e, hp, hc⟩ := of_cut h
  rcases hc with hc | hc
  · refine ⟨_, ?_, by simp [hc], fun _ => rfl⟩
    rw [e, hc, cutFrom_of_comma ht hp]
  · refine ⟨_, ?_, fun _ => rfl, by simp [hc]⟩
    rw [e, hc, cutFrom_of_close ht hp]

theorem carryOut_cons {rest : ColumnList} (h : Clause.fault? text = none) :
    carryOut t { rest with clauses := text :: rest.clauses } = carryOut (t.declare text) rest := by
  simp [carryOut, carryClauses, h]

theorem carryOut_cons_of_fault {rest : ColumnList} {e : ParseError} (h : Clause.fault? text = some e) :
    carryOut t { rest with clauses := text :: rest.clauses } = (t.declare text, .error e) := by
  simp [carryOut, carryClauses, h]

/-- **The loop carries out the list that is cut beforehand.** -/
theorem applyClauses_eq_of_atTop (ht : AtTop before) : t.applyClauses text = carryOut t (cutFrom before [] text) := by
  fun_induction Table.applyClauses t text generalizing before with
  | case1 t text e h =>
    obtain ⟨rfl, n, hn⟩ := of_cut_error h
    rw [cutFrom_of_noStop ((passFrom_isStop_iff ht).1 hn).1]
    rfl
  | case2 t text cut h e hclause =>
    obtain ⟨rest, hlist, -⟩ := cutFrom_of_cut ht h
    have hf : Clause.fault? cut.before = some e := by simp [Clause.fault?, hclause]
    rw [hlist, carryOut_cons_of_fault hf, declare_of_error hclause]
  | case3 t text cut h clause hclause t' e hrun =>
    obtain ⟨rest, hlist, -⟩ := cutFrom_of_cut ht h
    obtain ⟨ht', hf⟩ := fault_of_applyClause hclause hrun
    rw [hlist, carryOut_cons_of_fault hf, ht']
  | case4 t text cut h clause hclause t' hrun hstop =>
    obtain ⟨rest, hlist, hclose, -⟩ := cutFrom_of_cut ht h
    obtain ⟨ht', hf⟩ := no_fault_of_applyClause hclause hrun
    have hc : cut.char = ')' := by
      by_contra hc
      simp [Clause.Stop.ofChar, hc] at hstop
    rw [hlist, carryOut_cons hf, hclose hc, ht']
    rfl
  | case5 t text cut h clause hclause t' hrun hstop ih =>
    obtain ⟨rest, hlist, -, hcomma⟩ := cutFrom_of_cut ht h
    obtain ⟨ht', hf⟩ := no_fault_of_applyClause hclause hrun
    obtain ⟨-, hp, hc⟩ := of_cut h
    have hc : cut.char = ',' := by
      refine hc.resolve_right fun hc => ?_
      simp [Clause.Stop.ofChar, hc] at hstop
    rw [hlist, carryOut_cons hf, hcomma hc, ← ht', ih (atTop_comma ht hp)]

theorem applyClauses_eq (t : Table) (body : List Char) : t.applyClauses body = carryOut t (ofBody body) :=
  applyClauses_eq_of_atTop atTop_nil

/-! ### Where carrying out ends -/

theorem carryClauses_append {good texts : List (List Char)} (h : ∀ c ∈ good, Clause.fault? c = none) :
    carryClauses t (good ++ texts) = carryClauses (good.foldl Table.declare t) texts := by
  induction good generalizing t with
  | nil => rfl
  | cons c good ih =>
    rw [List.cons_append, carryClauses, h c (by simp), List.foldl_cons]
    exact ih fun d hd => h d (by simp [hd])

/-- Clauses without a fault are all carried out. -/
theorem carryClauses_of_no_fault {good : List (List Char)} (h : ∀ c ∈ good, Clause.fault? c = none) :
    carryClauses t good = (good.foldl Table.declare t, none) := by
  calc carryClauses t good = carryClauses t (good ++ []) := by rw [List.append_nil]
    _ = (good.foldl Table.declare t, none) := carryClauses_append h

/-- The first clause with a fault is the last one carried out. -/
theorem carryClauses_of_fault {good rest : List (List Char)} {bad : List Char} {e : ParseError}
    (h : ∀ c ∈ good, Clause.fault? c = none) (hbad : Clause.fault? bad = some e) :
    carryClauses t (good ++ bad :: rest) = ((good.foldl Table.declare t).declare bad, some e) := by
  rw [carryClauses_append h, carryClauses, hbad]

end ColumnList

end DdlCatalog
