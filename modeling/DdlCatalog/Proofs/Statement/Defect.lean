import DdlCatalog.Proofs.Statement.ClauseGrammar
import DdlCatalog.Proofs.Statement.HeadingGrammar
import DdlCatalog.Proofs.Statement.Sequence

/-!
# What is wrong with a statement

A statement is read in four stages: its heading, the shape of its clauses, the definitions of its columns and the text
behind its column list.  The second and the third take turns, clause by clause.

* `Defect` — what can be wrong, with `Defect.IsFirst` : nothing that is read before it is wrong;
* `Defect.leaves`, `Defect.IsReportedBy` — the schema and the error that a first defect leads to;
* `fault?_eq_some_iff` : a clause has one of two kinds of faults;
* `Defect.first?` — the first defect, and `Defect.unique` : there is one at most;
* `create_by_first_defect` : a statement fails if and only if it has one, and that decides the error and the schema.
-/

namespace DdlCatalog

open Text

/-- What can be wrong with a statement, with what has been read of it by then. -/
inductive Defect where
  /-- The statement has no heading. -/
  | noHeading
  /-- Nothing ends the last clause of the column list. -/
  | unended (h : Heading) (clause : List Char)
  /-- Behind the clauses `done` stands one that has too few words. -/
  | tooFew (h : Heading) (done : List (List Char)) (clause : List Char)
  /-- Behind the clauses `done` stands a column whose definition is refused. -/
  | refused (h : Heading) (done : List (List Char)) (name definition : String)
  /-- Something other than options stands behind the column list. -/
  | leftover (h : Heading) (tail : List Char)
  deriving DecidableEq, Repr

/-- The text behind a heading, in which the column list starts. -/
def Heading.body (h : Heading) : List Char :=
  dropTerminator h.rest.toList

namespace Clause

/-- All of some clauses can be carried out. -/
def Faultless (clauses : List (List Char)) : Prop := ∀ c ∈ clauses, fault? c = none

/-- A clause that declares a column, with a definition that starts with a word that no type starts with. -/
def IsRefused (clause : List Char) (name definition : String) : Prop :=
  Spells (trim clause) name.toList definition.toList ∧ name ≠ "CONSTRAINT" ∧
    Definition.startsWithKeyword definition.toList = true

end Clause

namespace Defect

/-- The statement has the defect, and nothing that is read before it is wrong. -/
def IsFirst (command : String) : Defect → Prop
  | noHeading => ∀ r : Heading.Reading, r.text ≠ command.toList
  | unended h clause =>
    Heading.ofCommand command = .ok h ∧ Clause.Faultless h.list.clauses ∧ h.list.ending = .broken clause
  | tooFew h done clause =>
    Heading.ofCommand command = .ok h ∧ Clause.Faultless done ∧ Clause.TooFew (words clause) ∧
      ∃ later, h.list.clauses = done ++ clause :: later
  | refused h done name definition =>
    Heading.ofCommand command = .ok h ∧ Clause.Faultless done ∧
      ∃ clause later, Clause.IsRefused clause name definition ∧ h.list.clauses = done ++ clause :: later
  | leftover h tail =>
    Heading.ofCommand command = .ok h ∧ Clause.Faultless h.list.clauses ∧ h.list.ending = .tail tail ∧
      trim (Options.residual tail) ≠ []

/-- The schema that a statement with this first defect leaves: what stands before the defect is carried out, and a
column whose definition is refused is in the table. -/
def leaves (s : Schema) : Defect → Schema
  | noHeading => s
  | unended h _ => s.put (h.list.clauses.foldl Table.declare (s.table h.table))
  | tooFew h done _ => s.put (done.foldl Table.declare (s.table h.table))
  | refused h done name _ => s.put ((done.foldl Table.declare (s.table h.table)).ensureColumn name)
  | leftover h tail => s.put ((h.list.clauses.foldl Table.declare (s.table h.table)).applyOptions tail).1

/-- The error shows the whole column list, and behind it lies the error of one clause. -/
def Wraps (h : Heading) (e cause : ParseError) : Prop :=
  e.message = "Cannot parse command: CREATE TABLE " ++ h.table ++ " ( " ++ String.ofList h.body ∧
    e.causes = .parse cause :: cause.causes

/-- The error that tells of the defect. -/
def IsReportedBy (command : String) (e : ParseError) : Defect → Prop
  | noHeading => e.message = "Cannot parse command: " ++ command ∧ e.causes = []
  | unended h clause => ∃ cause, Wraps h e cause ∧ cause.causes = [] ∧
      cause.message = "Unterminated clause: " ++ String.ofList (trim clause)
  | tooFew h _ clause => ∃ cause, Wraps h e cause ∧ cause.causes = [] ∧
      cause.message = "Cannot parse command: " ++ String.ofList (trim clause)
  | refused h _ name definition => ∃ cause, Wraps h e cause ∧
      cause.causes = [.catalog (.invalidDefinition name definition)] ∧
      cause.message = "Cannot parse definition of column '" ++ name ++ "': '" ++ definition ++ "'"
  | leftover h tail => e.causes = [] ∧
      e.message = "Cannot parse CREATE TABLE '" ++ h.table ++ "' - do not know how to parse '" ++
        String.ofList (trim (Options.residual tail)) ++ "'"

end Defect

/-! ### Clauses with a fault -/

namespace Clause

variable {clause : List Char} {name definition : String} {e : ParseError}

theorem fault?_of_tooFew (h : TooFew (words clause)) :
    ofText clause = .error (.unreadable (String.ofList (trim clause))) ∧
      fault? clause = some (.unreadable (String.ofList (trim clause))) := by
  have htext := ofText_eq_error_iff.2 ⟨rfl, h⟩
  refine ⟨htext, ?_⟩
  unfold fault?
  rw [htext]

theorem fault?_of_isRefused (h : IsRefused clause name definition) :
    ofText clause = .ok (.column name definition) ∧
      fault? clause = some (.definition (.invalidDefinition name definition)) := by
  obtain ⟨hspells, hname, hkeyword⟩ := h
  have htext := ofText_eq_column_iff.2 ⟨hspells, hname⟩
  have hnone : Definition.ofText? definition.toList = none := by
    rw [← Option.not_isSome_iff_eq_none, Definition.ofText?_isSome_iff, hkeyword]
    simp
  exact ⟨htext, ColumnList.fault?_of_none htext hnone⟩

/-- **A clause that cannot be carried out has too few words or declares a column that is refused.** -/
theorem fault?_eq_some_iff :
    fault? clause = some e ↔
      TooFew (words clause) ∧ e = .unreadable (String.ofList (trim clause)) ∨
        ∃ name definition, IsRefused clause name definition ∧ e = .definition (.invalidDefinition name definition) := by
  constructor
  · intro h
    cases htext : ofText clause with
    | error e' =>
      obtain ⟨rfl, hfew⟩ := ofText_eq_error_iff.1 htext
      rw [(fault?_of_tooFew hfew).2] at h
      exact .inl ⟨hfew, (Option.some.inj h).symm⟩
    | ok c =>
      cases c with
      | constraint name definition => simp [fault?, htext] at h
      | empty => simp [fault?, htext] at h
      | column name definition =>
        obtain ⟨hspells, hname⟩ := ofText_eq_column_iff.1 htext
        have hkeyword : Definition.startsWithKeyword definition.toList = true := by
          by_contra hkeyword
          have hsome : (Definition.ofText? definition.toList).isSome := by
            rw [Definition.ofText?_isSome_iff, trim_eq_self hspells.trimmed_definition]
            exact ⟨hspells.definition_ne_nil, by simpa using hkeyword⟩
          obtain ⟨d, hd⟩ := Option.isSome_iff_exists.1 hsome
          rw [ColumnList.fault?_of_some htext hd] at h
          cases h
        have hrefused : IsRefused clause name definition := ⟨hspells, hname, hkeyword⟩
        rw [(fault?_of_isRefused hrefused).2] at h
        exact .inr ⟨name, definition, hrefused, (Option.some.inj h).symm⟩
  · rintro (⟨hfew, rfl⟩ | ⟨name, definition, hrefused, rfl⟩)
    · exact (fault?_of_tooFew hfew).2
    · exact (fault?_of_isRefused hrefused).2

end Clause

namespace ColumnList

variable {clauses done : List (List Char)} {clause before text : List Char} {e : ParseError}

/-- The first clause with a fault is found behind those without one. -/
theorem faulty?_append (later : List (List Char)) (hdone : Clause.Faultless done)
    (h : Clause.fault? clause = some e) :
    sound (done ++ clause :: later) = done ∧ faulty? (done ++ clause :: later) = some (clause, e) := by
  induction done with
  | nil => exact sound_cons_of_some h later
  | cons c done ih =>
    obtain ⟨hc, hrest⟩ := List.forall_mem_cons.1 hdone
    obtain ⟨hsound, hfaulty⟩ := sound_cons_of_none hc (done ++ clause :: later)
    obtain ⟨ih₁, ih₂⟩ := ih hrest
    exact ⟨hsound.trans (by rw [ih₁]), hfaulty.trans ih₂⟩

theorem faultless_sound (clauses : List (List Char)) : Clause.Faultless (sound clauses) :=
  fun _ => fault?_of_mem_sound

theorem exists_of_faulty? (h : faulty? clauses = some (clause, e)) :
    Clause.fault? clause = some e ∧ ∃ later, clauses = sound clauses ++ clause :: later := by
  induction clauses with
  | nil => cases h
  | cons c clauses ih =>
    cases hc : Clause.fault? c with
    | some e' =>
      obtain ⟨hsound, hfaulty⟩ := sound_cons_of_some hc clauses
      rw [hfaulty] at h
      cases h
      exact ⟨hc, clauses, by rw [hsound]; rfl⟩
    | none =>
      obtain ⟨hsound, hfaulty⟩ := sound_cons_of_none hc clauses
      rw [hfaulty] at h
      obtain ⟨hfault, later, hsplit⟩ := ih h
      exact ⟨hfault, later, by rw [hsound, List.cons_append, ← hsplit]⟩

theorem faultless_of_faulty? (h : faulty? clauses = none) : Clause.Faultless clauses := by
  intro c hc
  have := List.findSome?_eq_none_iff.1 h c hc
  simpa using this

/-- A list that breaks off is its clauses, each with the comma behind it, and the clause in which it does. -/
theorem eq_flatMap_of_broken {last : List Char} (h : (cutFrom before clause text).ending = .broken last) :
    clause ++ text = ((cutFrom before clause text).clauses.flatMap fun c => c ++ [',']) ++ last := by
  induction text generalizing before clause with
  | nil =>
    obtain rfl : clause = last := Ending.broken.inj h
    simp [cutFrom]
  | cons c text ih =>
    rw [cutFrom] at h ⊢
    split at h
    · cases h
    next hclose =>
      rw [if_neg hclose]
      split at h
      next hcomma =>
        have hrest := ih h
        rw [List.nil_append] at hrest
        rw [if_pos hcomma]
        dsimp only
        rw [List.flatMap_cons, List.append_assoc, ← hrest, hcomma.2]
        simp
      next hcomma =>
        rw [if_neg hcomma, ← ih h]
        simp

end ColumnList

/-! ### The first defect -/

namespace Defect

/-- The first defect of a statement, looked for stage by stage. -/
def first? (command : String) : Option Defect :=
  match Heading.ofCommand command with
  | .error _ => some noHeading
  | .ok h =>
    match ColumnList.faulty? h.list.clauses, h.list.ending with
    | some (clause, _), _ =>
      match Clause.ofText clause with
      | .ok (.column name definition) => some (refused h (ColumnList.sound h.list.clauses) name definition)
      | _ => some (tooFew h (ColumnList.sound h.list.clauses) clause)
    | none, .broken clause => some (unended h clause)
    | none, .tail tail => if trim (Options.residual tail) = [] then none else some (leftover h tail)

variable {command : String} {d : Defect} {h : Heading}

theorem first?_of_isFirst (hd : d.IsFirst command) : first? command = some d := by
  unfold first?
  cases d with
  | noHeading =>
    rw [Heading.ofCommand_of_no_reading hd]
  | unended h clause =>
    obtain ⟨hh, hgood, hend⟩ := hd
    rw [hh]
    dsimp only
    rw [(ColumnList.sound_of_no_fault hgood).2, hend]
  | tooFew h done clause =>
    obtain ⟨hh, hdone, hfew, later, hlist⟩ := hd
    obtain ⟨htext, hfault⟩ := Clause.fault?_of_tooFew hfew
    obtain ⟨hsound, hfaulty⟩ := ColumnList.faulty?_append later hdone hfault
    rw [hh]
    dsimp only
    rw [hlist, hsound, hfaulty]
    dsimp only
    rw [htext]
  | refused h done name definition =>
    obtain ⟨hh, hdone, clause, later, hrefused, hlist⟩ := hd
    obtain ⟨htext, hfault⟩ := Clause.fault?_of_isRefused hrefused
    obtain ⟨hsound, hfaulty⟩ := ColumnList.faulty?_append later hdone hfault
    rw [hh]
    dsimp only
    rw [hlist, hsound, hfaulty]
    dsimp only
    rw [htext]
  | leftover h tail =>
    obtain ⟨hh, hgood, hend, hresidual⟩ := hd
    rw [hh]
    dsimp only
    rw [(ColumnList.sound_of_no_fault hgood).2, hend]
    exact if_neg hresidual

theorem unique {d' : Defect} (hd : d.IsFirst command) (hd' : d'.IsFirst command) : d = d' :=
  Option.some.inj ((first?_of_isFirst hd).symm.trans (first?_of_isFirst hd'))

/-- A statement with a heading has a first defect unless it is carried out to its end. -/
theorem exists_isFirst_or_answer (hh : Heading.ofCommand command = .ok h) :
    (∃ d : Defect, d.IsFirst command) ∨ h.answer = .ok h.table := by
  cases hfaulty : ColumnList.faulty? h.list.clauses with
  | some bad =>
    obtain ⟨hfault, later, hlist⟩ : Clause.fault? bad.1 = some bad.2 ∧
        ∃ later, h.list.clauses = ColumnList.sound h.list.clauses ++ bad.1 :: later :=
      ColumnList.exists_of_faulty? hfaulty
    have hdone := ColumnList.faultless_sound h.list.clauses
    rcases Clause.fault?_eq_some_iff.1 hfault with ⟨hfew, -⟩ | ⟨name, definition, hrefused, -⟩
    · exact .inl ⟨tooFew h _ bad.1, hh, hdone, hfew, later, hlist⟩
    · exact .inl ⟨refused h _ name definition, hh, hdone, bad.1, later, hrefused, hlist⟩
  | none =>
    have hgood := ColumnList.faultless_of_faulty? hfaulty
    cases hend : h.list.ending with
    | broken clause => exact .inl ⟨unended h clause, hh, hgood, hend⟩
    | tail tail =>
      by_cases hresidual : trim (Options.residual tail) = []
      · right
        unfold Heading.answer
        rw [ColumnList.tail_eq_ok_iff.2 ⟨hgood, hend⟩]
        exact if_pos hresidual
      · exact .inl ⟨leftover h tail, hh, hgood, hend, hresidual⟩

end Defect

/-! ### What a first defect leads to -/

namespace Schema

variable {s : Schema} {t : Table} {command : String} {d : Defect} {h : Heading} {cause : ParseError}

theorem create_of_wrong_clause (hh : Heading.ofCommand command = .ok h)
    (hrun : h.list.carryOut (s.table h.table) = (t, .error cause)) :
    ∃ e, s.create command = (s.put t, .error e) ∧ Defect.Wraps h e cause :=
  ⟨_, create_of_error hh hrun, rfl, rfl⟩

theorem create_of_isFirst (s : Schema) (hd : d.IsFirst command) :
    ∃ e, s.create command = (d.leaves s, .error e) ∧ d.IsReportedBy command e := by
  cases d with
  | noHeading =>
    exact ⟨_, create_of_no_heading s (Heading.ofCommand_of_no_reading hd), rfl, rfl⟩
  | unended h clause =>
    obtain ⟨hh, hgood, hend⟩ := hd
    have hrun : h.list.carryOut (s.table h.table) =
        (h.list.clauses.foldl Table.declare (s.table h.table),
          .error (.unterminated (String.ofList (trim clause)))) := by
      rw [ColumnList.carryOut, ColumnList.carryClauses_of_no_fault hgood, hend]
    obtain ⟨e, hcreate, hwraps⟩ := create_of_wrong_clause hh hrun
    exact ⟨e, hcreate, _, hwraps, rfl, rfl⟩
  | tooFew h done clause =>
    obtain ⟨hh, hdone, hfew, later, hlist⟩ := hd
    obtain ⟨htext, hfault⟩ := Clause.fault?_of_tooFew hfew
    have hrun : h.list.carryOut (s.table h.table) =
        (done.foldl Table.declare (s.table h.table), .error (.unreadable (String.ofList (trim clause)))) := by
      rw [ColumnList.carryOut, hlist, ColumnList.carryClauses_of_fault hdone hfault,
        ColumnList.declare_of_error htext]
    obtain ⟨e, hcreate, hwraps⟩ := create_of_wrong_clause hh hrun
    exact ⟨e, hcreate, _, hwraps, rfl, rfl⟩
  | refused h done name definition =>
    obtain ⟨hh, hdone, clause, later, hrefused, hlist⟩ := hd
    obtain ⟨htext, hfault⟩ := Clause.fault?_of_isRefused hrefused
    have hmention (t : Table) : t.mention clause = t.ensureColumn name := by
      rw [Table.mention, htext]
    have hrun : h.list.carryOut (s.table h.table) =
        ((done.foldl Table.declare (s.table h.table)).ensureColumn name,
          .error (.definition (.invalidDefinition name definition))) := by
      rw [ColumnList.carryOut, hlist, ColumnList.carryClauses_of_fault hdone hfault,
        ColumnList.declare_of_fault hfault, hmention]
    obtain ⟨e, hcreate, hwraps⟩ := create_of_wrong_clause hh hrun
    exact ⟨e, hcreate, _, hwraps, rfl, rfl⟩
  | leftover h tail =>
    obtain ⟨hh, hgood, hend, hresidual⟩ := hd
    have hrun : h.list.carryOut (s.table h.table) =
        (h.list.clauses.foldl Table.declare (s.table h.table), .ok tail) := by
      rw [ColumnList.carryOut, ColumnList.carryClauses_of_no_fault hgood, hend]
    have hleft : ((h.list.clauses.foldl Table.declare (s.table h.table)).applyOptions tail).2 =
        Options.residual tail := by
      rw [Table.applyOptions_eq]
    have hcreate := create_of_ok hh hrun
    rw [hleft, if_neg hresidual] at hcreate
    exact ⟨_, hcreate, rfl, rfl⟩

/-- **The first defect of a statement decides its error and what it leaves.**  A statement fails if and only if it has
one, and it has one at most.  With a heading, its table is in the schema afterwards and the others are as they were;
a list that breaks off has been read up to its last comma. -/
theorem create_by_first_defect (s : Schema) (command : String) :
    ((∃ e, (s.create command).2 = .error e) ↔ ∃! d : Defect, d.IsFirst command) ∧
    (∀ d : Defect, d.IsFirst command →
      ∃ e, s.create command = (d.leaves s, .error e) ∧ d.IsReportedBy command e) ∧
    ∀ h, Heading.ofCommand command = .ok h →
      (∃ t, (s.create command).1.table? h.table = some t) ∧
      (∀ name, name ≠ h.table → (s.create command).1.table? name = s.table? name) ∧
      ∀ clause, h.list.ending = .broken clause →
        h.body = (h.list.clauses.flatMap fun c => c ++ [',']) ++ clause := by
  refine ⟨⟨?_, ?_⟩, fun d hd => create_of_isFirst s hd, fun h hh => ⟨?_, fun name hne => ?_, fun clause hend => ?_⟩⟩
  · rintro ⟨e, he⟩
    have hexists : ∃ d : Defect, d.IsFirst command := by
      cases hh : Heading.ofCommand command with
      | error e' =>
        refine ⟨.noHeading, fun r hr => ?_⟩
        obtain ⟨r', hfirst⟩ := Heading.exists_isFirst ⟨r, hr⟩
        rw [Heading.ofCommand_of_isFirst hfirst] at hh
        cases hh
      | ok h =>
        refine (Defect.exists_isFirst_or_answer hh).resolve_right fun hanswer => ?_
        rw [create_eq s hh, hanswer] at he
        cases he
    obtain ⟨d, hd⟩ := hexists
    exact ⟨d, hd, fun d' hd' => Defect.unique hd' hd⟩
  · rintro ⟨d, hd, -⟩
    obtain ⟨e, hcreate, -⟩ := create_of_isFirst s hd
    exact ⟨e, by rw [hcreate]⟩
  · rw [table?_create s hh, if_pos rfl]
    exact ⟨_, rfl⟩
  · rw [table?_create s hh, if_neg (Ne.symm hne)]
  · exact ColumnList.eq_flatMap_of_broken hend

-- The refused column comes before the clause of one word, which comes before the end that is missing.
example : Defect.first? "CREATE TABLE t (a int, b NOT NULL, z, c text" =
    some (.refused ⟨"t", "a int, b NOT NULL, z, c text"⟩ ["a int".toList] "b" "NOT NULL") := by
  decide +kernel

end Schema

end DdlCatalog
