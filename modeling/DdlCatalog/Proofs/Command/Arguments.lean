import DdlCatalog.Command.Run
import Mathlib.Tactic.Common

/-!
# Arguments with one flag more

* `Extra` — a flag about the script or the progress, with its value;
* `Adds extra others arguments` — `arguments` give what `others` give, and besides it `extra`, in whatever place;
* `adds_spelling` : every such flag can be added, whatever its value is;
* `Request.step` — what one token does; `ofTokens_insert` : a run of tokens with one more among them;
* `Adds.ofArguments_eq` : the request is that of the others, with the flag.
-/

namespace DdlCatalog.Command

/-- The flag of a token; a fault has none. -/
def Token.flag? : Token → Option Flag
  | .plain flag => some flag
  | .valued flag _ => some flag
  | .fault _ => none

/-- None of the tokens gives a flag. -/
def Lacks (flag : Flag) (tokens : List Token) : Prop := ∀ token ∈ tokens, token.flag? ≠ some flag

instance (flag : Flag) (tokens : List Token) : Decidable (Lacks flag tokens) := List.decidableBAll _ tokens

/-- A flag about the script or the progress, with its value. -/
inductive Extra where
  | command (text : String)
  | file (path : String)
  | stdin
  | verbose

namespace Extra

def flag : Extra → Flag
  | command _ => .command
  | file _ => .file
  | stdin => .stdin
  | verbose => .verbose

def token : Extra → Token
  | command text => .valued .command text
  | file path => .valued .file path
  | stdin => .plain .stdin
  | verbose => .plain .verbose

/-- One way to write the flag as an argument. -/
def spelling : Extra → String
  | command text => "--command=" ++ text
  | file path => "--file=" ++ path
  | stdin => "--stdin"
  | verbose => "-v"

/-- An invocation with the flag. -/
def apply (i : Invocation) : Extra → Invocation
  | command text => { i with command := some text }
  | file path => { i with file := some path }
  | stdin => { i with stdin := true }
  | verbose => { i with verbose := true }

/-- The flag is not in an invocation. -/
def Missing (i : Invocation) : Extra → Prop
  | command _ => i.command = none
  | file _ => i.file = none
  | stdin => i.stdin = false
  | verbose => i.verbose = false

end Extra

/-- The arguments give what the others give and one flag that these do not give, in whatever place. -/
structure Adds (extra : Extra) (others arguments : List String) : Prop where
  lacks : Lacks extra.flag (Token.ofArguments others)
  exists_eq : ∃ before after, Token.ofArguments others = before ++ after ∧
    Token.ofArguments arguments = before ++ extra.token :: after

variable {extra : Extra} {i j : Invocation} {token : Token} {before after tokens : List Token}
  {others arguments : List String}

/-! ### Written flags -/

/-- A flag by its name, with a value behind an equality sign. -/
theorem ofLong_name {flag : Flag} (htakes : flag.takesValue = true) (value : List Char) :
    Token.ofLong (flag.name.toList ++ '=' :: value) = ([.valued flag (String.ofList value)], none) := by
  have hplain : flag.name.toList.all (· != '=') = true := by cases flag <;> decide
  have hname : (flag.name.toList ++ '=' :: value).takeWhile (· != '=') = flag.name.toList := by
    rw [List.takeWhile_append_of_pos (List.all_eq_true.1 hplain)]
    simp
  have hflag : Flag.ofName? flag.name = some flag := by cases flag <;> rfl
  simp only [Token.ofLong, hname, String.ofList_toList, hflag, List.drop_left, htakes, if_true]

theorem ofArgument_valued {flag : Flag} (htakes : flag.takesValue = true) (value : String) :
    Token.ofArgument ("--" ++ flag.name ++ "=" ++ value) = ([.valued flag value], none) := by
  have hlist : ("--" ++ flag.name ++ "=" ++ value).toList =
      '-' :: '-' :: (flag.name.toList ++ '=' :: value.toList) := by simp
  simp only [Token.ofArgument, hlist, ofLong_name htakes, String.ofList_toList]

theorem ofArgument_spelling (extra : Extra) : Token.ofArgument extra.spelling = ([extra.token], none) := by
  cases extra with
  | command text =>
    have htakes : Flag.command.takesValue = true := rfl
    exact ofArgument_valued htakes text
  | file path =>
    have htakes : Flag.file.takesValue = true := rfl
    exact ofArgument_valued htakes path
  | stdin => rfl
  | verbose => rfl

theorem ofArguments_cons {argument : String} (hne : argument ≠ "--") (h : Token.ofArgument argument = ([token], none)) :
    Token.ofArguments (argument :: others) = token :: Token.ofArguments others := by
  rw [Token.ofArguments.eq_3 argument others [token] hne h]
  rfl

/-- Every flag can be added to arguments that do not give it, whatever its value is. -/
theorem adds_spelling (h : Lacks extra.flag (Token.ofArguments others)) :
    Adds extra others (extra.spelling :: others) := by
  have hne : extra.spelling ≠ "--" := by
    intro e
    have hspelling := ofArgument_spelling extra
    rw [e] at hspelling
    cases extra <;> cases hspelling
  exact ⟨h, [], _, rfl, ofArguments_cons hne (ofArgument_spelling extra)⟩

/-! ### One token -/

namespace Request

/-- What a token does: the request ends with it, or the invocation goes on. -/
def step (i : Invocation) : Token → Except (Except UsageError Request) Invocation
  | .plain .help => .error (.ok .help)
  | .plain .version => .error (.ok .version)
  | .plain flag => (i.switch flag).mapError .error
  | .valued flag value => (i.set flag value).mapError .error
  | .fault e => .error (.error e)

theorem ofTokens_cons (i : Invocation) (token : Token) (tokens : List Token) :
    ofTokens i (token :: tokens) =
      match step i token with
      | .ok j => ofTokens j tokens
      | .error ended => ended := by
  cases token with
  | fault e => rfl
  | valued flag value =>
    rw [ofTokens, step]
    cases i.set flag value <;> rfl
  | plain flag =>
    cases flag with
    | help => rfl
    | version => rfl
    | _ =>
      rw [ofTokens, step]
      · generalize i.switch _ = switched
        cases switched <;> rfl
      all_goals exact fun e => nomatch e

/-- A request with one flag more, if it is one to load a script. -/
def give (extra : Extra) : Request → Request
  | .run i => .run (extra.apply i)
  | request => request

/-- A token ends a request with a fault, or as one that loads nothing. -/
theorem not_run_of_step {ended : Except UsageError Request} (h : step i token = .error ended) (j : Invocation) :
    ended ≠ .ok (.run j) := by
  have hfault {x : Except UsageError Invocation} (hx : x.mapError Except.error = .error ended) :
      ended ≠ .ok (.run j) := by
    rintro rfl
    cases x <;> cases hx
  cases token with
  | fault e => cases h; exact fun e => nomatch e
  | valued flag value => exact hfault h
  | plain flag =>
    cases flag with
    | stdin => exact hfault h
    | verbose => exact hfault h
    | _ => cases h; exact fun e => nomatch e

/-- A token that ends the request does so whatever other flags there are. -/
theorem map_give_of_step {ended : Except UsageError Request} (h : step i token = .error ended) (extra : Extra) :
    ended.map (give extra) = ended := by
  rcases ended with e | i | _ | _
  · rfl
  · exact absurd rfl (not_run_of_step h i)
  · rfl
  · rfl

/-- A flag that is missing is taken. -/
theorem step_token (h : extra.Missing i) : step i extra.token = .ok (extra.apply i) := by
  cases extra with
  | command text =>
    have hfree : i.command = none := h
    simp [step, Extra.token, Extra.apply, Invocation.set, hfree, Except.mapError]
  | file path =>
    have hfree : i.file = none := h
    simp [step, Extra.token, Extra.apply, Invocation.set, hfree, Except.mapError]
  | stdin =>
    have hfree : i.stdin = false := h
    simp [step, Extra.token, Extra.apply, Invocation.switch, hfree, Except.mapError]
  | verbose =>
    have hfree : i.verbose = false := h
    simp [step, Extra.token, Extra.apply, Invocation.switch, hfree, Except.mapError]

theorem map_ite {c : Prop} [Decidable c] (f : Invocation → Invocation) (e : UsageError) (i : Invocation) :
    Except.map f (if c then .error e else .ok i) = if c then .error e else .ok (f i) := by
  split <;> rfl

/-- A flag is taken or refused as before beside another one. -/
theorem switch_apply {flag : Flag} (h : flag ≠ extra.flag) :
    (extra.apply i).switch flag = (i.switch flag).map (extra.apply ·) := by
  cases flag with
  | stdin =>
    cases extra with
    | stdin => exact absurd rfl h
    | _ =>
      simp only [Invocation.switch, Extra.apply, map_ite]
      rfl
  | verbose =>
    cases extra with
    | verbose => exact absurd rfl h
    | _ =>
      simp only [Invocation.switch, Extra.apply, map_ite]
      rfl
  | _ => rfl

theorem set_apply {flag : Flag} (h : flag ≠ extra.flag) (value : String) :
    (extra.apply i).set flag value = (i.set flag value).map (extra.apply ·) := by
  cases flag with
  | file =>
    cases extra with
    | file path => exact absurd rfl h
    | _ =>
      simp only [Invocation.set, Extra.apply, map_ite]
      rfl
  | command =>
    cases extra with
    | command text => exact absurd rfl h
    | _ =>
      simp only [Invocation.set, Extra.apply, map_ite]
      rfl
  | format =>
    cases hformat : Format.ofName? value with
    | none =>
      simp only [Invocation.set, hformat]
      rfl
    | some format =>
      cases extra <;> simp only [Invocation.set, Extra.apply, hformat, map_ite] <;> rfl
  | settings =>
    by_cases hempty : value.isEmpty = true
    · simp only [Invocation.set, hempty, if_true]
      rfl
    · rw [Bool.not_eq_true] at hempty
      cases extra <;> simp only [Invocation.set, Extra.apply, hempty, Bool.false_eq_true, if_false, map_ite] <;> rfl
  | _ => rfl

theorem step_apply (h : token.flag? ≠ some extra.flag) :
    step (extra.apply i) token = (step i token).map (extra.apply ·) := by
  have hcomm (x : Except UsageError Invocation) : (x.map (extra.apply ·)).mapError Except.error =
      (x.mapError (Except.error (α := Request))).map (extra.apply ·) := by
    cases x <;> rfl
  cases token with
  | fault e => rfl
  | valued flag value =>
    have hflag : flag ≠ extra.flag := fun e => h (congrArg some e)
    simp only [step, set_apply hflag, hcomm]
  | plain flag =>
    have hflag : flag ≠ extra.flag := fun e => h (congrArg some e)
    cases flag with
    | help => rfl
    | version => rfl
    | _ => simp only [step, switch_apply hflag, hcomm]

/-- A flag stays missing while others come. -/
theorem missing_switch {flag : Flag} (h : flag ≠ extra.flag) (hm : extra.Missing i) (hj : i.switch flag = .ok j) :
    extra.Missing j := by
  cases extra <;> cases flag <;> grind [Invocation.switch, Extra.Missing, Extra.flag]

theorem missing_set {flag : Flag} {value : String} (h : flag ≠ extra.flag) (hm : extra.Missing i)
    (hj : i.set flag value = .ok j) : extra.Missing j := by
  cases extra <;> cases flag <;> grind [Invocation.set, Extra.Missing, Extra.flag]

theorem missing_step (h : token.flag? ≠ some extra.flag) (hm : extra.Missing i) (hstep : step i token = .ok j) :
    extra.Missing j := by
  have hok {x : Except UsageError Invocation} (hx : x.mapError (Except.error (α := Request)) = .ok j) : x = .ok j := by
    cases x <;> cases hx
    rfl
  cases token with
  | fault e => cases hstep
  | valued flag value => exact missing_set (fun e => h (congrArg some e)) hm (hok hstep)
  | plain flag =>
    have hflag : flag ≠ extra.flag := fun e => h (congrArg some e)
    cases flag with
    | stdin => exact missing_switch hflag hm (hok hstep)
    | verbose => exact missing_switch hflag hm (hok hstep)
    | _ => cases hstep

/-! ### All tokens -/

theorem lacks_cons {flag : Flag} : Lacks flag (token :: tokens) ↔ token.flag? ≠ some flag ∧ Lacks flag tokens := by
  simp [Lacks]

/-- A flag that no token gives stays beside all of them. -/
theorem ofTokens_apply (h : Lacks extra.flag tokens) :
    ofTokens (extra.apply i) tokens = (ofTokens i tokens).map (give extra) := by
  induction tokens generalizing i with
  | nil => rfl
  | cons token tokens ih =>
    obtain ⟨htoken, htokens⟩ := lacks_cons.1 h
    rw [ofTokens_cons, ofTokens_cons, step_apply htoken]
    cases hstep : step i token with
    | ok j => exact ih htokens
    | error ended => exact (map_give_of_step hstep extra).symm

/-- A flag that no token gives is added among them. -/
theorem ofTokens_insert (hm : extra.Missing i) (hbefore : Lacks extra.flag before) (hafter : Lacks extra.flag after) :
    ofTokens i (before ++ extra.token :: after) = (ofTokens i (before ++ after)).map (give extra) := by
  induction before generalizing i with
  | nil =>
    rw [List.nil_append, List.nil_append, ofTokens_cons, step_token hm]
    exact ofTokens_apply hafter
  | cons token before ih =>
    obtain ⟨htoken, hbefore⟩ := lacks_cons.1 hbefore
    rw [List.cons_append, List.cons_append, ofTokens_cons, ofTokens_cons]
    cases hstep : step i token with
    | ok j => exact ih (missing_step htoken hm hstep) hbefore
    | error ended => exact (map_give_of_step hstep extra).symm

theorem missing_of_ofTokens (hm : extra.Missing i) (h : Lacks extra.flag tokens)
    (hrun : ofTokens i tokens = .ok (.run j)) : extra.Missing j := by
  induction tokens generalizing i with
  | nil =>
    cases hrun
    exact hm
  | cons token tokens ih =>
    obtain ⟨htoken, htokens⟩ := lacks_cons.1 h
    rw [ofTokens_cons] at hrun
    cases hstep : step i token with
    | ok j' =>
      rw [hstep] at hrun
      exact ih (missing_step htoken hm hstep) htokens hrun
    | error ended =>
      rw [hstep] at hrun
      exact absurd hrun (not_run_of_step hstep j)

end Request

/-! ### Requests -/

theorem missing_plain (extra : Extra) : extra.Missing .plain := by
  cases extra <;> rfl

/-- **Arguments with one flag more make the request of the others with that flag.** -/
theorem Adds.ofArguments_eq (h : Adds extra others arguments) :
    Request.ofArguments arguments = (Request.ofArguments others).map (Request.give extra) := by
  obtain ⟨hlacks, before, after, hothers, harguments⟩ := h
  rw [hothers] at hlacks
  unfold Request.ofArguments
  rw [hothers, harguments]
  refine Request.ofTokens_insert (missing_plain extra) (fun token ht => ?_) fun token ht => ?_
  · exact hlacks token (List.mem_append_left after ht)
  · exact hlacks token (List.mem_append_right before ht)

/-- Arguments that ask for a load do so without the flag too. -/
theorem Adds.exists_of_run (h : Adds extra others arguments) (hrun : Request.ofArguments arguments = .ok (.run j)) :
    ∃ i, Request.ofArguments others = .ok (.run i) ∧ j = extra.apply i := by
  rw [h.ofArguments_eq] at hrun
  rcases hothers : Request.ofArguments others with e | i | _ | _
  · rw [hothers] at hrun
    cases hrun
  · rw [hothers] at hrun
    cases hrun
    exact ⟨i, rfl, rfl⟩
  · rw [hothers] at hrun
    cases hrun
  · rw [hothers] at hrun
    cases hrun

theorem Adds.missing (h : Adds extra others arguments) (hrun : Request.ofArguments others = .ok (.run i)) :
    extra.Missing i :=
  Request.missing_of_ofTokens (missing_plain extra) h.lacks hrun

end DdlCatalog.Command
