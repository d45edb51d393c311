import DdlCatalog.Proofs.Statement.Sequence
import DdlCatalog.Script.Load

/-!
# The modes of a load

A load goes on after failures or stops at the first one.  How a statement fares depends neither on the mode nor on the
schema, so that the two modes go the same way up to the first failure.

* `outcome` — how a statement fares, in whatever schema;
* `accepted`, `rejected`, `others` — the statements of a script, counted by what becomes of them;
* `loadFrom_goingOn` : a load that goes on comes to every statement;
* `loadFrom_of_sound`, `loadFrom_stopping` : a load that stops does the same until a statement fails;
* `load_modes_agree` : both together.
-/

namespace DdlCatalog.Script

/-- How a statement fares, whatever the schema is. -/
def outcome (skip : Bool) (statement : String) : Outcome :=
  (step ⟨skip, true⟩ .default statement).2

/-- How many of the `CREATE TABLE` statements succeed, carried out one after the other. -/
def accepted (schema : Schema) (statements : List String) : Nat :=
  (schema.answers (statements.filter isCreateTable)).countP fun answer => answer.isOk

/-- How many of them fail. -/
def rejected (schema : Schema) (statements : List String) : Nat :=
  (schema.answers (statements.filter isCreateTable)).countP fun answer => ¬ answer.isOk

/-- How many statements are no `CREATE TABLE` statements. -/
def others (statements : List String) : Nat :=
  statements.countP fun statement => ¬ isCreateTable statement

/-- The statement of a number fails in the schema that the statements before it leave, with a cause. -/
def FailsAt (skip : Bool) (schema : Schema) (statements : List String) (number : Nat) (cause : Failure) : Prop :=
  ∃ before statement after, statements = before ++ statement :: after ∧ number = before.length + 1 ∧
    (step ⟨skip, true⟩ (loadStatements ⟨skip, true⟩ schema before).schema statement).2 = .failed cause

namespace Outcome

/-- What an answer of the catalog means for its statement. -/
def ofAnswer : Except ParseError String → Outcome
  | .ok _ => .parsed
  | .error e => .failed (.parse e)

def isFailed : Outcome → Bool
  | .failed _ => true
  | _ => false

theorem isFailed_iff {o : Outcome} : o.isFailed = true ↔ ∃ cause, o = .failed cause := by
  cases o <;> simp [isFailed]

end Outcome

variable {policy : Policy} {skip : Bool} {schema : Schema} {statement : String} {before : List String}
  {number : Nat} {summary : Summary} {cause : Failure}

/-! ### One statement -/

theorem step_of_create (h : isCreateTable statement = true) (policy : Policy) (schema : Schema) :
    step policy schema statement = ((schema.create statement).1, .ofAnswer (schema.create statement).2) := by
  unfold step
  rw [if_pos h]
  rcases schema.create statement with ⟨s, _ | _⟩ <;> rfl

theorem step_of_other (h : isCreateTable statement = false) (policy : Policy) (schema : Schema) :
    (step policy schema statement).1 = schema := by
  unfold step
  rw [if_neg (by simp [h])]
  split <;> rfl

theorem outcome_of_create (h : isCreateTable statement = true) (skip : Bool) (schema : Schema) :
    outcome skip statement = .ofAnswer (schema.create statement).2 := by
  rw [outcome, step_of_create h, Schema.answer_create .default schema]

/-- A statement that builds the catalog is carried out, another one leaves it; how it fares is not a matter of the
schema. -/
theorem step_eq (skip goOn : Bool) (schema : Schema) (statement : String) :
    step ⟨skip, goOn⟩ schema statement =
      (schema.createAll ([statement].filter isCreateTable), outcome skip statement) := by
  cases h : isCreateTable statement with
  | true =>
    rw [step_of_create h, outcome_of_create h skip schema, List.filter_cons_of_pos h]
    rfl
  | false =>
    have hsame : (step ⟨skip, goOn⟩ schema statement).2 = outcome skip statement := by
      unfold outcome step
      rw [h]
      cases skip <;> rfl
    have hkeep := step_of_other h ⟨skip, goOn⟩ schema
    rw [List.filter_cons_of_neg (by simp [h])]
    exact Prod.ext hkeep hsame

theorem outcome_of_other (h : isCreateTable statement = false) :
    outcome true statement = .skipped ∧ (outcome false statement).isFailed = true := by
  unfold outcome step
  rw [h]
  exact ⟨rfl, rfl⟩

theorem fatal?_of_goingOn (skip : Bool) (o : Outcome) : (Policy.mk skip true).fatal? o = none := by
  cases o <;> rfl

theorem fatal?_of_sound (skip : Bool) {o : Outcome} (h : ∀ cause, o ≠ .failed cause) :
    (Policy.mk skip false).fatal? o = none := by
  cases o with
  | parsed => rfl
  | skipped => rfl
  | failed cause => exact absurd rfl (h cause)

/-- The number of a statement, if the load tries to carry it out. -/
def attempt (number : Nat) (statement : String) : List Nat :=
  if isCreateTable statement then [number] else []

theorem loadFrom_cons_of_none {goOn : Bool} {statements : List String}
    (h : (Policy.mk skip goOn).fatal? (outcome skip statement) = none) :
    loadFrom ⟨skip, goOn⟩ number summary schema (statement :: statements) =
      let load := loadFrom ⟨skip, goOn⟩ (number + 1) (summary.add (outcome skip statement))
        (schema.createAll ([statement].filter isCreateTable)) statements
      { load with attempted := attempt number statement ++ load.attempted } := by
  rw [loadFrom, step_eq]
  dsimp only
  rw [h]
  rfl

theorem loadFrom_cons_of_failed {statements : List String} (h : outcome skip statement = .failed cause) :
    loadFrom ⟨skip, false⟩ number summary schema (statement :: statements) =
      { schema := schema.createAll ([statement].filter isCreateTable), attempted := attempt number statement,
        result := .error { number, cause } } := by
  rw [loadFrom, step_eq, h]
  rfl

/-! ### A load that goes on -/

theorem createAll_filter_cons (schema : Schema) (statement : String) (statements : List String) :
    (schema.createAll ([statement].filter isCreateTable)).createAll (statements.filter isCreateTable) =
      schema.createAll ((statement :: statements).filter isCreateTable) := by
  unfold Schema.createAll
  rw [← List.foldl_append, ← List.filter_append]
  rfl

/-- A load that goes on comes to every statement and counts it. -/
theorem loadFrom_goingOn (skip : Bool) (number : Nat) (summary : Summary) (schema : Schema)
    (statements : List String) :
    (loadFrom ⟨skip, true⟩ number summary schema statements).schema =
        schema.createAll (statements.filter isCreateTable) ∧
      (loadFrom ⟨skip, true⟩ number summary schema statements).result =
        .ok ((statements.map (outcome skip)).foldl Summary.add summary) := by
  induction statements generalizing number summary schema with
  | nil => exact ⟨rfl, rfl⟩
  | cons statement statements ih =>
    rw [loadFrom_cons_of_none (fatal?_of_goingOn skip _)]
    dsimp only
    obtain ⟨hschema, hresult⟩ := ih (number + 1) (summary.add (outcome skip statement))
      (schema.createAll ([statement].filter isCreateTable))
    exact ⟨hschema.trans (createAll_filter_cons schema statement statements), hresult⟩

theorem loadStatements_goingOn (skip : Bool) (schema : Schema) (statements : List String) :
    (loadStatements ⟨skip, true⟩ schema statements).schema = schema.createAll (statements.filter isCreateTable) :=
  (loadFrom_goingOn skip 1 .zero schema statements).1

theorem accepted_cons (h : isCreateTable statement = true) (schema : Schema) (statements : List String) :
    accepted schema (statement :: statements) =
      accepted (schema.create statement).1 statements + if (schema.create statement).2.isOk then 1 else 0 := by
  unfold accepted
  rw [List.filter_cons_of_pos h, Schema.answers, List.countP_cons]

theorem rejected_cons (h : isCreateTable statement = true) (schema : Schema) (statements : List String) :
    rejected schema (statement :: statements) =
      rejected (schema.create statement).1 statements + if (schema.create statement).2.isOk then 0 else 1 := by
  unfold rejected
  rw [List.filter_cons_of_pos h, Schema.answers, List.countP_cons]
  cases (schema.create statement).2.isOk <;> rfl

theorem filter_cons_of_other (h : isCreateTable statement = false) (statements : List String) :
    (statement :: statements).filter isCreateTable = statements.filter isCreateTable :=
  List.filter_cons_of_neg (by simp [h])

theorem others_cons (statement : String) (statements : List String) :
    others (statement :: statements) = others statements + if isCreateTable statement then 0 else 1 := by
  unfold others
  rw [List.countP_cons]
  cases isCreateTable statement <;> rfl

/-- What a load that goes on counts, by what becomes of the statements. -/
theorem foldl_add_outcome (skip : Bool) (summary : Summary) (schema : Schema) (statements : List String) :
    (statements.map (outcome skip)).foldl Summary.add summary =
      { parsed := summary.parsed + accepted schema statements
        skipped := summary.skipped + if skip then others statements else 0
        failed := summary.failed + (rejected schema statements + if skip then 0 else others statements) } := by
  induction statements generalizing summary schema with
  | nil => cases skip <;> rfl
  | cons statement statements ih =>
    rw [List.map_cons, List.foldl_cons, others_cons]
    cases h : isCreateTable statement with
    | true =>
      rw [ih _ (schema.create statement).1, outcome_of_create h skip schema, accepted_cons h, rejected_cons h]
      cases (schema.create statement).2 with
      | ok name =>
        simp only [Outcome.ofAnswer, Summary.add, Except.isOk, Except.toBool, if_true, Nat.add_zero, Summary.mk.injEq,
          and_true]
        omega
      | error e =>
        simp only [Outcome.ofAnswer, Summary.add, Except.isOk, Except.toBool, if_true, Bool.false_eq_true, if_false,
          Nat.add_zero, Summary.mk.injEq, true_and]
        omega
    | false =>
      have haccepted : accepted schema (statement :: statements) = accepted schema statements := by
        unfold accepted
        rw [filter_cons_of_other h]
      have hrejected : rejected schema (statement :: statements) = rejected schema statements := by
        unfold rejected
        rw [filter_cons_of_other h]
      rw [ih _ schema, haccepted, hrejected]
      obtain ⟨hskip, hfail⟩ := outcome_of_other h
      cases skip with
      | true =>
        rw [hskip]
        simp only [Summary.add, if_true, Bool.false_eq_true, if_false, Summary.mk.injEq, true_and, and_true]
        omega
      | false =>
        obtain ⟨cause, hcause⟩ := Outcome.isFailed_iff.1 hfail
        rw [hcause]
        simp only [Summary.add, Bool.false_eq_true, if_false, Summary.mk.injEq, true_and]
        omega

/-- Every statement is accepted, rejected or another one. -/
theorem accepted_add_others_add_rejected (schema : Schema) (statements : List String) :
    accepted schema statements + others statements + rejected schema statements = statements.length := by
  have hanswers : accepted schema statements + rejected schema statements =
      (statements.filter isCreateTable).length := by
    unfold accepted rejected
    rw [Schema.answers_eq_map schema schema, ← List.length_eq_countP_add_countP, List.length_map]
  have hfilter : statements.length = (statements.filter isCreateTable).length + others statements := by
    unfold others
    rw [← List.countP_eq_length_filter, ← List.length_eq_countP_add_countP]
  omega

/-! ### A load that stops -/

/-- No statement fails. -/
def Sound (skip : Bool) (statements : List String) : Prop :=
  ∀ statement ∈ statements, ∀ cause, outcome skip statement ≠ .failed cause

theorem sound_cons {statements : List String} : Sound skip (statement :: statements) ↔
    (∀ cause, outcome skip statement ≠ .failed cause) ∧ Sound skip statements :=
  List.forall_mem_cons

/-- Where no statement fails, it does not matter what is done about failures. -/
theorem loadFrom_of_sound {statements : List String} (h : Sound skip statements) (number : Nat) (summary : Summary)
    (schema : Schema) :
    loadFrom ⟨skip, false⟩ number summary schema statements =
      loadFrom ⟨skip, true⟩ number summary schema statements := by
  induction statements generalizing number summary schema with
  | nil => rfl
  | cons statement statements ih =>
    obtain ⟨hhere, hlater⟩ := sound_cons.1 h
    rw [loadFrom_cons_of_none (fatal?_of_sound skip hhere), loadFrom_cons_of_none (fatal?_of_goingOn skip _), ih hlater]

theorem le_of_mem_attempt {i : Nat} (h : i ∈ attempt number statement) : i ≤ number := by
  unfold attempt at h
  split at h
  · exact (List.mem_singleton.1 h).le
  · cases h

/-- A load that stops ends with the first statement that fails. -/
theorem loadFrom_stopping (hbefore : Sound skip before) (h : outcome skip statement = .failed cause)
    (after : List String) (number : Nat) (summary : Summary) (schema : Schema) :
    (loadFrom ⟨skip, false⟩ number summary schema (before ++ statement :: after)).schema =
        schema.createAll ((before ++ [statement]).filter isCreateTable) ∧
      (loadFrom ⟨skip, false⟩ number summary schema (before ++ statement :: after)).result =
        .error { number := number + before.length, cause } ∧
      ∀ i ∈ (loadFrom ⟨skip, false⟩ number summary schema (before ++ statement :: after)).attempted,
        i ≤ number + before.length := by
  induction before generalizing number summary schema with
  | nil =>
    rw [List.nil_append, loadFrom_cons_of_failed h]
    exact ⟨rfl, rfl, fun i hi => le_of_mem_attempt hi⟩
  | cons first before ih =>
    obtain ⟨hhere, hlater⟩ := sound_cons.1 hbefore
    rw [List.cons_append, loadFrom_cons_of_none (fatal?_of_sound skip hhere)]
    dsimp only
    obtain ⟨hschema, hresult, hattempted⟩ := ih hlater (number + 1) (summary.add (outcome skip first))
      (schema.createAll ([first].filter isCreateTable))
    have hnumber : number + 1 + before.length = number + (first :: before).length := by
      rw [List.length_cons]
      omega
    rw [hnumber] at hresult hattempted
    refine ⟨hschema.trans (createAll_filter_cons schema first _), hresult, ?_⟩
    intro i hi
    rcases List.mem_append.1 hi with hi | hi
    · exact (le_of_mem_attempt hi).trans (Nat.le_add_right _ _)
    · exact hattempted i hi

/-! ### Failures -/

theorem failsAt_iff {statements : List String} : FailsAt skip schema statements number cause ↔
    ∃ before statement after, statements = before ++ statement :: after ∧ number = before.length + 1 ∧
      outcome skip statement = .failed cause := by
  unfold FailsAt
  simp only [step_eq]

/-- Some statement is the first that fails, if any fails. -/
theorem sound_or_first_failed (skip : Bool) (statements : List String) :
    Sound skip statements ∨ ∃ before statement after cause, statements = before ++ statement :: after ∧
      Sound skip before ∧ outcome skip statement = .failed cause := by
  have hnone : Sound skip [] := fun _ h => absurd h List.not_mem_nil
  induction statements with
  | nil => exact .inl hnone
  | cons statement statements ih =>
    by_cases hhere : ∃ cause, outcome skip statement = .failed cause
    · obtain ⟨cause, hcause⟩ := hhere
      exact .inr ⟨[], statement, statements, cause, rfl, hnone, hcause⟩
    · have hhere : ∀ cause, outcome skip statement ≠ .failed cause := not_exists.1 hhere
      rcases ih with hsound | ⟨before, first, after, cause, rfl, hbefore, hcause⟩
      · exact .inl (sound_cons.2 ⟨hhere, hsound⟩)
      · exact .inr ⟨statement :: before, first, after, cause, rfl, sound_cons.2 ⟨hhere, hbefore⟩, hcause⟩

/-- No statement before the first failure fails. -/
theorem le_of_failsAt {first : String} {after : List String} {n : Nat} {c : Failure} (hbefore : Sound skip before)
    (h : FailsAt skip schema (before ++ first :: after) n c) : before.length + 1 ≤ n := by
  obtain ⟨before', statement, after', hsplit, rfl, hc⟩ := failsAt_iff.1 h
  by_contra hlt
  have hat : (before ++ first :: after)[before'.length]? = some statement := by
    rw [hsplit, List.getElem?_append_right le_rfl, Nat.sub_self, List.getElem?_cons_zero]
  rw [List.getElem?_append_left (by omega)] at hat
  exact hbefore statement (List.mem_of_getElem? hat) c hc

theorem failed_foldl_add (summary : Summary) (outcomes : List Outcome) :
    (outcomes.foldl Summary.add summary).failed = summary.failed + outcomes.countP Outcome.isFailed := by
  induction outcomes generalizing summary with
  | nil => rfl
  | cons o outcomes ih =>
    rw [List.foldl_cons, ih, List.countP_cons]
    cases o <;> simp [Summary.add, Outcome.isFailed, Nat.add_comm, Nat.add_left_comm]

/-- A load that goes on counts no failure if and only if no statement fails. -/
theorem failed_eq_zero_iff {statements : List String} :
    ((statements.map (outcome skip)).foldl Summary.add .zero).failed = 0 ↔
    Sound skip statements := by
  have hzero : Summary.zero.failed = 0 := rfl
  rw [failed_foldl_add, hzero, Nat.zero_add, List.countP_eq_zero]
  simp only [List.forall_mem_map, Outcome.isFailed_iff, not_exists]
  rfl

/-! ### Scripts -/

/-- What a load that goes on leaves. -/
theorem load_goingOn (skip : Bool) (schema : Schema) (script : String) :
    (load ⟨skip, true⟩ schema script).schema = schema.createAll ((statements script).filter isCreateTable) ∧
      (load ⟨skip, true⟩ schema script).result =
        .ok { parsed := accepted schema (statements script)
              skipped := if skip then others (statements script) else 0
              failed := rejected schema (statements script) + if skip then 0 else others (statements script) } := by
  obtain ⟨hschema, hresult⟩ := loadFrom_goingOn skip 1 .zero schema (statements script)
  refine ⟨hschema, hresult.trans ?_⟩
  rw [foldl_add_outcome skip .zero schema]
  simp only [Summary.zero, Nat.zero_add]

/-- What a load that stops leaves, by what the load counts that goes on. -/
theorem load_stopping (schema : Schema) (script : String)
    (hgo : (load ⟨skip, true⟩ schema script).result = .ok summary) :
    (summary.failed = 0 → (load ⟨skip, false⟩ schema script).result = .ok summary ∧
        (load ⟨skip, false⟩ schema script).schema = (load ⟨skip, true⟩ schema script).schema) ∧
      (summary.failed ≠ 0 → ∃ number cause, FailsAt skip schema (statements script) number cause ∧
        (∀ n c, FailsAt skip schema (statements script) n c → number ≤ n) ∧
        (load ⟨skip, false⟩ schema script).result = .error { number, cause } ∧
        (load ⟨skip, false⟩ schema script).schema =
          (loadStatements ⟨skip, true⟩ schema ((statements script).take number)).schema ∧
        ∀ i ∈ (load ⟨skip, false⟩ schema script).attempted, i ≤ number) := by
  have hsummary : (statements script |>.map (outcome skip)).foldl Summary.add .zero = summary := by
    have hresult := (loadFrom_goingOn skip 1 .zero schema (statements script)).2
    exact Except.ok.inj (hresult.symm.trans hgo)
  rcases sound_or_first_failed skip (statements script) with
    hsound | ⟨before, statement, after, cause, hsplit, hbefore, hc⟩
  · have hsame : load ⟨skip, false⟩ schema script = load ⟨skip, true⟩ schema script :=
      loadFrom_of_sound hsound 1 .zero schema
    have hzero : summary.failed = 0 := by
      rw [← hsummary]
      exact failed_eq_zero_iff.2 hsound
    rw [hsame]
    exact ⟨fun _ => ⟨hgo, rfl⟩, fun hne => absurd hzero hne⟩
  · have hfails : FailsAt skip schema (statements script) (before.length + 1) cause :=
      failsAt_iff.2 ⟨before, statement, after, hsplit, rfl, hc⟩
    have hleast : ∀ n c, FailsAt skip schema (statements script) n c → before.length + 1 ≤ n := by
      intro n c h
      rw [hsplit] at h
      exact le_of_failsAt hbefore h
    have htake : (statements script).take (before.length + 1) = before ++ [statement] := by
      rw [hsplit, List.take_append]
      simp
    obtain ⟨hschema, hresult, hattempted⟩ := loadFrom_stopping hbefore hc after 1 .zero schema
    rw [← hsplit] at hschema hresult hattempted
    rw [Nat.add_comm 1] at hresult hattempted
    have hne : summary.failed ≠ 0 := by
      intro hzero
      rw [← hsummary] at hzero
      exact failed_eq_zero_iff.1 hzero statement (by rw [hsplit]; simp) cause hc
    refine ⟨fun hzero => absurd hzero hne, fun _ => ?_⟩
    refine ⟨before.length + 1, cause, hfails, hleast, hresult, ?_, hattempted⟩
    rw [htake, loadStatements_goingOn]
    exact hschema

/-- **The modes of a load agree.**  A load that goes on after failures accounts for every statement: it carries out
those that build the catalog, in order, and nothing else, and whether others are passed over or count as failures only
moves them from one count to the other.  A load that stops at failures does the same if there is no failure.
Otherwise it ends with the first statement that fails, and leaves what the other load has after it. -/
theorem load_modes_agree (schema : Schema) (script : String) :
    (load ⟨true, true⟩ schema script).result =
        .ok { parsed := accepted schema (statements script), skipped := others (statements script),
              failed := rejected schema (statements script) } ∧
      (load ⟨false, true⟩ schema script).result =
        .ok { parsed := accepted schema (statements script), skipped := 0,
              failed := rejected schema (statements script) + others (statements script) } ∧
      accepted schema (statements script) + others (statements script) + rejected schema (statements script) =
        (statements script).length ∧
      ∀ skip, (load ⟨skip, true⟩ schema script).schema =
          schema.createAll ((statements script).filter isCreateTable) ∧
        ∀ summary, (load ⟨skip, true⟩ schema script).result = .ok summary →
          (summary.failed = 0 → (load ⟨skip, false⟩ schema script).result = .ok summary ∧
            (load ⟨skip, false⟩ schema script).schema = (load ⟨skip, true⟩ schema script).schema) ∧
          (summary.failed ≠ 0 → ∃ number cause, FailsAt skip schema (statements script) number cause ∧
            (∀ n c, FailsAt skip schema (statements script) n c → number ≤ n) ∧
            (load ⟨skip, false⟩ schema script).result = .error { number, cause } ∧
            (load ⟨skip, false⟩ schema script).schema =
              (loadStatements ⟨skip, true⟩ schema ((statements script).take number)).schema ∧
            ∀ i ∈ (load ⟨skip, false⟩ schema script).attempted, i ≤ number) := by
  refine ⟨(load_goingOn true schema script).2, (load_goingOn false schema script).2,
    accepted_add_others_add_rejected schema _, ?_⟩
  intro skip
  refine ⟨(load_goingOn skip schema script).1, ?_⟩
  intro summary hgo
  exact load_stopping schema script hgo

/-- Two statements that succeed, one that is another one and one that fails before the last. -/
theorem load_modes_agree_of_four :
    let script := "CREATE TABLE t (a int); DROP TABLE u; CREATE TABLE v (b); CREATE TABLE w (c int);"
    let cause := Failure.parse (.columnList "v" "b)" (.unreadable "b"))
    (load ⟨true, true⟩ .default script).result = .ok { parsed := 2, skipped := 1, failed := 1 } ∧
      (load ⟨false, true⟩ .default script).result = .ok { parsed := 2, skipped := 0, failed := 2 } ∧
      (load ⟨true, false⟩ .default script).result = .error { number := 3, cause } ∧
      FailsAt true .default (statements script) 3 cause ∧
      (load ⟨true, false⟩ .default script).schema.tableNames = ["t", "v"] := by
  intro script cause
  obtain ⟨hskip, hfail, -, hmodes⟩ := load_modes_agree .default script
  have hgo : (load ⟨true, true⟩ .default script).result = .ok { parsed := 2, skipped := 1, failed := 1 } := by
    rw [hskip]
    decide +kernel
  obtain ⟨number, c, hfails, -, hresult, hschema, -⟩ := ((hmodes true).2 _ hgo).2 (by decide)
  have hstop : (load ⟨true, false⟩ .default script).result = .error { number := 3, cause } := by
    decide +kernel
  obtain ⟨rfl, rfl⟩ : number = 3 ∧ c = cause := by
    rw [hresult] at hstop
    simpa using hstop
  refine ⟨hgo, ?_, hstop, hfails, ?_⟩
  · rw [hfail]
    decide +kernel
  · rw [hschema]
    decide +kernel

end DdlCatalog.Script
