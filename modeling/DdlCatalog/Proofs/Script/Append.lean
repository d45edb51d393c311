import DdlCatalog.Proofs.Script.Modes
import DdlCatalog.Proofs.Script.Passes
import DdlCatalog.Proofs.Text.Trim

/-!
# One script behind another

* `endFrom` — where the end of a text stands, and what has been read of the statement there;
* `Complete a` — the script `a` ends outside quotes and comments, with no statement begun;
* `statements_append` : a complete script does not meddle with the statements of what follows it;
* `loadFrom_append`, `loadFrom_behind` : a load of two lists of statements is a load of the first and then of the
  second, with numbers and counts moved up;
* `load_append` : both together.
-/

namespace DdlCatalog.Script

open Text

/-! ### The end of a script -/

/-- Where a text ends that starts in a context, and what has been read then of the statement that the end is in, last
character first; `read` is what has been read of it before the text. -/
def endFrom : Context → List Char → List Char → Context × List Char
  | .blockComment, read, '*' :: '/' :: script => endFrom .plain read script
  | .blockComment, read, _ :: script => endFrom .blockComment read script
  | .lineComment, read, '\n' :: script => endFrom .plain ('\n' :: read) script
  | .lineComment, read, _ :: script => endFrom .lineComment read script
  | .quoted mark, read, c :: script => endFrom (if c = mark then .plain else .quoted mark) (c :: read) script
  | .plain, read, '/' :: '*' :: script => endFrom .blockComment read script
  | .plain, read, '-' :: '-' :: script => endFrom .lineComment read script
  | .plain, _, ';' :: script => endFrom .plain [] script
  | .plain, read, c :: script => endFrom (if c = '\'' ∨ c = '"' then .quoted c else .plain) (c :: read) script
  | context, read, [] => (context, read)

/-- A place outside quotes and comments with nothing but blanks read of a statement. -/
def BetweenStatements (place : Context × List Char) : Prop := place.1 = .plain ∧ AllBlank place.2

instance (place : Context × List Char) : Decidable (BetweenStatements place) := by
  unfold BetweenStatements
  infer_instance

/-- The script ends outside quotes and comments, and only blanks follow the semicolon of its last statement. -/
def Complete (script : String) : Prop := BetweenStatements (endFrom .plain [] script.toList)

instance (script : String) : Decidable (Complete script) := by
  unfold Complete
  infer_instance

variable {gap read script rest : List Char} {context : Context}

-- The equations of both are found here, once for all lemmas on them.
attribute [local simp] statementsFrom endFrom

theorem endFrom_nil (context : Context) (read : List Char) : endFrom context read [] = (context, read) := by
  rw [endFrom]

theorem statement?_append_gap (h : AllBlank gap) (read : List Char) (ended : Bool) :
    Piece.statement? ⟨(read ++ gap).reverse, ended⟩ = Piece.statement? ⟨read.reverse, ended⟩ := by
  have htrim : trim (gap.reverse ++ read.reverse ++ []) = trim read.reverse :=
    trim_append (allBlank_reverse.2 h) allBlank_nil
  rw [List.append_nil] at htrim
  rw [List.reverse_append, Piece.statement?, Piece.statement?, htrim]

/-- Blanks that a statement starts with do not matter. -/
theorem statementsFrom_append_gap (h : AllBlank gap) (context : Context) (read script : List Char) :
    statementsFrom context (read ++ gap) script = statementsFrom context read script := by
  fun_induction statementsFrom context read script with
  | case1 read script ih => rw [statementsFrom, ih]
  | case2 read c script hopen ih =>
    rw [statementsFrom, ih]
    exact hopen
  | case3 read script ih => rw [statementsFrom, ← List.cons_append, ih]
  | case4 read c script hc ih =>
    rw [statementsFrom, ih]
    exact hc
  | case5 mark read c script ih => rw [statementsFrom, ← List.cons_append, ih]
  | case6 read script ih => rw [statementsFrom, ih]
  | case7 read script ih => rw [statementsFrom, ih]
  | case8 read script statement hs ih | case9 read script statement hs ih =>
    rw [statementsFrom_semicolon, statement?_append_gap h, ← statementsFrom_semicolon, statementsFrom]
    simp [statement, hs]
  | case10 read c script h1 h2 hc ih =>
    rw [statementsFrom, ← List.cons_append, ih]
    · exact h1
    · exact h2
    · exact hc
  | case11 context read statement hs | case12 context read statement hs =>
    rw [statementsFrom_end, statement?_append_gap h, ← statementsFrom_end context, statementsFrom]
    simp [statement, hs]

/-- Two characters that are no such pair are none before a longer text either, unless the text ends between them. -/
theorem not_pair_append {c x y : Char} (h : ∀ after, c = x → script = y :: after → False)
    (hend : script = [] → c ≠ x) : ∀ after, c = x → script ++ rest = y :: after → False := by
  intro after hc hs
  cases script with
  | nil => exact hend rfl hc
  | cons d script =>
    obtain ⟨rfl, -⟩ := List.cons.inj hs
    exact h script hc rfl

/-- **A script can be read up to a place between statements, and then on from there.**  That the place is one rules out
that a comment opens or closes across it. -/
theorem statementsFrom_append (h : BetweenStatements (endFrom context read script)) (rest : List Char) :
    statementsFrom context read (script ++ rest) =
      statementsFrom context read script ++ statementsFrom .plain [] rest := by
  fun_induction endFrom context read script with
  | case1 read script ih | case3 read script ih | case6 read script ih | case7 read script ih =>
    simp only [List.cons_append, statementsFrom]
    exact ih h
  | case2 read c script hopen ih =>
    have hend : script = [] → c ≠ '*' := by
      rintro rfl
      cases h.1
    rw [List.cons_append, statementsFrom, statementsFrom, ih h]
    · exact hopen
    · exact not_pair_append hopen hend
  | case4 read c script hc ih =>
    rw [List.cons_append, statementsFrom, statementsFrom, ih h]
    · exact hc
    · exact hc
  | case5 mark read c script ih => rw [List.cons_append, statementsFrom, statementsFrom, ih h]
  | case8 read script ih =>
    rw [List.cons_append, statementsFrom_semicolon, statementsFrom_semicolon, ih h, List.append_assoc]
  | case9 read c script h1 h2 hc ih =>
    -- the last character has been read, so that it is a blank and opens nothing
    have hblank : script = [] → isBlank c = true := by
      rintro rfl
      rw [endFrom_nil] at h
      exact (allBlank_cons.1 h.2).1
    have hslash : script = [] → c ≠ '/' := fun hs => ne_of_isBlank (hblank hs) rfl
    have hdash : script = [] → c ≠ '-' := fun hs => ne_of_isBlank (hblank hs) rfl
    rw [List.cons_append, statementsFrom, statementsFrom, ih h]
    · exact h1
    · exact h2
    · exact hc
    · exact not_pair_append h1 hslash
    · exact not_pair_append h2 hdash
    · exact hc
  | case10 context read =>
    obtain ⟨rfl, hgap⟩ := h
    have hread := statementsFrom_append_gap hgap .plain []
    rw [List.nil_append] at hread
    rw [hread, hread]
    rfl

theorem statements_append {a : String} (h : Complete a) (b : String) :
    statements (a ++ b) = statements a ++ statements b := by
  unfold statements
  rw [String.toList_append]
  exact statementsFrom_append h b.toList

/-! ### Loading statements behind others -/

/-- The counts of two scripts. -/
instance : Add Summary where
  add s s' :=
    { parsed := s.parsed + s'.parsed, skipped := s.skipped + s'.skipped, failed := s.failed + s'.failed }

theorem Summary.add_count (s s' : Summary) (o : Outcome) : (s + s').add o = s + s'.add o := by
  cases o <;> rfl

theorem Summary.add_zero (s : Summary) : s + .zero = s := rfl

/-- What a load leaves behind `count` other statements that `counted` counts. -/
def Load.behind (count : Nat) (counted : Summary) (load : Load) : Load where
  schema := load.schema
  attempted := load.attempted.map (count + ·)
  result := match load.result with
    | .ok summary => .ok (counted + summary)
    | .error e => .error { e with number := count + e.number }

variable {policy : Policy} {number count : Nat} {summary counted : Summary} {schema : Schema}
  {first second : List String}

/-- Where a load starts to count shows in its numbers and its counts, and in nothing else. -/
theorem loadFrom_behind (policy : Policy) (count number : Nat) (counted summary : Summary) (schema : Schema)
    (statements : List String) :
    loadFrom policy (count + number) (counted + summary) schema statements =
      (loadFrom policy number summary schema statements).behind count counted := by
  induction statements generalizing number summary schema with
  | nil => rfl
  | cons statement statements ih =>
    rw [loadFrom, loadFrom]
    dsimp only
    cases policy.fatal? (step policy schema statement).2 with
    | some cause => cases isCreateTable statement <;> rfl
    | none =>
      dsimp only
      rw [Summary.add_count, Nat.add_assoc, ih]
      cases isCreateTable statement <;> rfl

/-- A load of two lists of statements. -/
theorem loadFrom_append (h : (loadFrom policy number summary schema first).result = .ok counted)
    (second : List String) :
    loadFrom policy number summary schema (first ++ second) =
      let before := loadFrom policy number summary schema first
      let load := loadFrom policy (number + first.length) counted before.schema second
      { load with attempted := before.attempted ++ load.attempted } := by
  induction first generalizing number summary schema with
  | nil =>
    obtain rfl : summary = counted := Except.ok.inj h
    rfl
  | cons statement first ih =>
    rw [loadFrom] at h
    dsimp only at h
    rw [List.cons_append, loadFrom, loadFrom]
    dsimp only
    cases hfatal : policy.fatal? (step policy schema statement).2 with
    | some cause =>
      rw [hfatal] at h
      cases h
    | none =>
      rw [hfatal] at h
      dsimp only at h ⊢
      rw [ih h]
      simp only [List.length_cons, List.append_assoc, Nat.add_assoc, Nat.add_comm 1]

/-! ### Scripts -/

/-- A load of a script that goes on behind a complete one. -/
theorem load_eq_behind {a : String} (ha : Complete a) (h : (load policy schema a).result = .ok counted) (b : String) :
    load policy schema (a ++ b) =
      let before := load policy schema a
      let load := (load policy before.schema b).behind (statements a).length counted
      { load with attempted := before.attempted ++ load.attempted } := by
  have hsplit : load policy schema (a ++ b) = loadFrom policy 1 .zero schema (statements a ++ statements b) := by
    rw [← statements_append ha]
    rfl
  have hload := loadFrom_append h (statements b)
  dsimp only at hload
  rw [Nat.add_comm 1, ← Summary.add_zero counted, loadFrom_behind] at hload
  exact hsplit.trans hload

/-- **A load of two scripts is a load of the first and then of the second.**  If the first one is complete, the
statements of both together are those of the one and those of the other.  If the first one loads, both together leave
what the second one leaves behind the first.  The counts add up, and a failure of the second one keeps its causes and
gets the number of its statement among all of them. -/
theorem load_append {a : String} (ha : Complete a) (policy : Policy) (schema : Schema) (b : String) :
    statements (a ++ b) = statements a ++ statements b ∧
      ∀ counted, (load policy schema a).result = .ok counted →
        let second := load policy (load policy schema a).schema b
        (load policy schema (a ++ b)).schema = second.schema ∧
          (∀ summary, second.result = .ok summary →
            (load policy schema (a ++ b)).result = .ok (counted + summary)) ∧
          ∀ e, second.result = .error e →
            (load policy schema (a ++ b)).result = .error { e with number := e.number + (statements a).length } := by
  refine ⟨statements_append ha b, ?_⟩
  intro counted h second
  have hload := load_eq_behind ha h b
  refine ⟨?_, ?_, ?_⟩
  · rw [hload]
    rfl
  · intro summary hsummary
    rw [hload]
    dsimp only [Load.behind]
    rw [hsummary]
  · intro e he
    rw [hload]
    dsimp only [Load.behind]
    rw [he, Nat.add_comm]

/-- A script that ends in comments, behind which the second statement fails. -/
theorem load_append_of_failure :
    let a := "CREATE TABLE t (a int); SET x = ';'; -- it's\n/* ; */ "
    let b := "DROP TABLE u; CREATE TABLE v (b);"
    let cause := Failure.parse (.columnList "v" "b)" (.unreadable "b"))
    Complete a ∧ (load .default .default a).result = .ok { parsed := 1, skipped := 1, failed := 0 } ∧
      (load .default (load .default .default a).schema b).result = .error { number := 2, cause } ∧
      (load .default .default (a ++ b)).result = .error { number := 4, cause } ∧
      (load .default .default (a ++ b)).schema.tableNames = ["t", "v"] := by
  intro a b cause
  have ha : Complete a := by decide +kernel
  have hfirst : (load .default .default a).result = .ok { parsed := 1, skipped := 1, failed := 0 } := by
    decide +kernel
  have hsecond : (load .default (load .default .default a).schema b).result = .error { number := 2, cause } := by
    decide +kernel
  obtain ⟨-, hloads⟩ := load_append ha .default .default b
  obtain ⟨hschema, -, herror⟩ := hloads _ hfirst
  have hnumber : 2 + (statements a).length = 4 := by decide +kernel
  refine ⟨ha, hfirst, hsecond, ?_, ?_⟩
  · rw [herror _ hsecond, hnumber]
  · rw [hschema]
    decide +kernel

end DdlCatalog.Script
