import DdlCatalog.Proofs.Sql.Unquoted
import DdlCatalog.Proofs.Statement.ColumnList
import DdlCatalog.Proofs.Text.Slice

/-!
# Scanners that count parentheses

The bytes of a text outside quotes are gone through with the number of parentheses that are open.

* `scanToClose`, `scanToStop` — to the partner of the parenthesis that is read first, and to the end of a clause;
* `scanToClose_eq`, `scanToStop_eq` : the number does not fall below zero, and the scanners find the first stop;
* `partnerOffset_eq`, `endOffset_eq` : partners and ends of clauses are found byte by byte as they are found character
  by character.
-/

namespace DdlCatalog

open Sql Text

namespace Sql

/-- The closing parenthesis behind which none is open, where `depth` are open before.  It is not looked at whether
there is one to close. -/
def scanToClose (depth : Nat) : List (Nat × Char) → Checked (Option Nat)
  | [] => .ok none
  | (place, c) :: later =>
    if c = '(' then scanToClose (depth + 1) later
    else if c = ')' then do
      let depth ← difference depth 1
      if depth = 0 then return some place else scanToClose depth later
    else scanToClose depth later

/-- The partner of the parenthesis at a byte offset, found byte by byte. -/
def partnerOffset (text : String) (start : Nat) : Checked (Option Nat) :=
  match dropBytes? start text.toList with
  | none => .ok none
  | some tail =>
    if tail.head? = some '(' then do
      let close? ← scanToClose 0 (unquoted (octets tail))
      return close?.map (start + ·)
    else .ok none

end Sql

namespace Clause

/-- The first comma or closing parenthesis at which no parenthesis is open, where `depth` are open before. -/
def scanToStop (depth : Nat) : List (Nat × Char) → Checked (Option (Nat × Stop))
  | [] => .ok none
  | (place, c) :: later =>
    if c = '(' then scanToStop (depth + 1) later
    else if c = ')' ∧ 0 < depth then do
      let depth ← difference depth 1
      scanToStop depth later
    else if c = ')' then .ok (some (place, .close))
    else if c = ',' ∧ depth = 0 then .ok (some (place, .comma))
    else scanToStop depth later

/-- Where the clause ends that starts at a byte offset, found byte by byte. -/
def endOffset (text : String) (start : Nat) : Checked (Except ParseError End) :=
  match dropBytes? start text.toList with
  | none => .ok (.error (.unreadable text))
  | some tail => do
    match ← scanToStop 0 (unquoted (octets tail)) with
    | some (place, stop) => return .ok { offset := start + place, stop }
    | none => return .error (.unterminated (String.ofList (trim tail)))

end Clause

/-! ### Bytes and characters -/

namespace Sql

variable {stops : Char → Bool} {n : Nesting} {passed text : List Char}

/-- What has been passed is kept in front of the cut. -/
theorem splitFrom_eq_map (n : Nesting) (passed text : List Char) :
    splitFrom stops n passed text =
      (splitFrom stops n [] text).map fun cut => { cut with before := passed.reverse ++ cut.before } := by
  refine Option.ext fun cut => ?_
  rw [splitFrom_eq_some_iff, Option.map_eq_some_iff]
  constructor
  · rintro ⟨mid, hbefore, htext, hpass⟩
    refine ⟨{ cut with before := mid }, splitFrom_eq_some_iff.2 ⟨mid, rfl, htext, hpass⟩, ?_⟩
    rw [← hbefore]
  · rintro ⟨cut, hcut, rfl⟩
    obtain ⟨mid, hbefore, h⟩ := splitFrom_eq_some_iff.1 hcut
    rw [List.reverse_nil, List.nil_append] at hbefore
    exact ⟨mid, by rw [hbefore], h⟩

/-- The bytes of a text are cut where the text is. -/
theorem splitTop_octets (hstops : ∀ c, stops c = true → isStructural c = true) (text : List Char) :
    splitTop stops (octets text) =
      (splitTop stops text).map fun cut => ⟨octets cut.before, cut.char, octets cut.rest⟩ := by
  have hpass (a : List Char) : passFrom stops .top (octets a) = passFrom stops .top a :=
    passFrom_congr hstops (skeleton_octets a)
  cases hsplit : splitTop stops text with
  | none =>
    rw [Option.map_none, splitTop_eq_none_iff, hpass, ← splitTop_eq_none_iff, hsplit]
  | some cut =>
    obtain ⟨rfl, hbefore, hmark, hstop⟩ := splitTop_eq_some_iff.1 hsplit
    have hascii : IsAscii cut.char := by
      by_contra hascii
      have hstructural := hstops cut.char hstop
      rw [isStructural_of_not_isAscii hascii] at hstructural
      cases hstructural
    rw [Option.map_some, splitTop_eq_some_iff]
    exact ⟨(octets_eq_append_cons_iff hascii).2 ⟨_, _, rfl, rfl, rfl⟩, by rw [hpass, hbefore], hmark, hstop⟩

/-! ### Partners -/

/-- With one parenthesis open to begin with, none is closed that is not open. -/
theorem scanToClose_eq (depth : Nat) (bytes : List (Nat × Char)) :
    scanToClose (depth + 1) bytes = .ok ((firstStop (· == ')') depth bytes).map Prod.fst) := by
  induction bytes generalizing depth with
  | nil => rfl
  | cons byte later ih =>
    obtain ⟨place, c⟩ := byte
    rw [scanToClose, firstStop]
    by_cases hopen : c = '('
    · rw [if_pos hopen, if_pos hopen, if_neg (by simp [hopen]), ih]
    · rw [if_neg hopen, if_neg hopen]
      by_cases hclose : c = ')'
      · have hdown : difference (depth + 1) 1 = .ok depth := rfl
        rw [if_pos hclose, if_pos hclose, hdown, Checked.ok_bind]
        cases depth with
        | zero =>
          rw [if_pos rfl, if_pos (by simp [hclose])]
          rfl
        | succ depth =>
          rw [if_neg (Nat.succ_ne_zero depth), if_neg (by simp), ih]
          rfl
      · rw [if_neg hclose, if_neg hclose, if_neg (by simp [hclose]), ih]

/-- The bytes outside quotes of a text that starts with a parenthesis. -/
theorem unquoted_octets_open (text : List Char) :
    unquoted (octets ('(' :: text)) = (0, '(') :: unquotedFrom .top 1 (octets text) := by
  have hafter : unquotedFrom (Nesting.top.after '(') 1 (octets text) = unquotedFrom .top 1 (octets text) :=
    unquotedFrom_congr rfl
  have hbare : Nesting.top.isBare '(' = true := rfl
  rw [octets_cons, octets_ascii (by decide), List.singleton_append, unquoted, unquotedFrom, if_pos hbare, hafter]

/-- The first byte opens a parenthesis, and the scanner goes on behind it. -/
theorem scanToClose_open (text : List Char) :
    scanToClose 0 (unquoted (octets ('(' :: text))) =
      .ok ((splitTop (· == ')') text).map fun cut => 1 + byteLength cut.before) := by
  have hfirst : firstStop (· == ')') 0 (unquotedFrom .top 1 (octets text)) =
      (splitTop (· == ')') text).map fun cut => (1 + byteLength cut.before, cut.char) := by
    have hbehind := map_splitFrom (· == ')') .top ['('] (octets text)
    have hcut : splitFrom (· == ')') .top [] (octets text) = splitTop (· == ')') (octets text) := rfl
    rw [splitFrom_eq_map, hcut, splitTop_octets (by simp [isStructural]), Option.map_map, Option.map_map] at hbehind
    refine hbehind.symm.trans (congrArg (Option.map · _) (funext fun cut => ?_))
    simp [Nat.add_comm]
  rw [unquoted_octets_open, scanToClose, if_pos rfl, scanToClose_eq, hfirst, Option.map_map]
  rfl

/-- **The number of open parentheses does not fall below zero**, and a partner is found byte by byte as it is
character by character. -/
theorem partnerOffset_eq (text : String) (start : Nat) :
    partnerOffset text start = .ok (partnerOffset? text start) := by
  unfold partnerOffset partnerOffset?
  cases dropBytes? start text.toList with
  | none => rfl
  | some tail =>
    dsimp only
    by_cases hopen : tail.head? = some '('
    · obtain ⟨rest, rfl⟩ := List.head?_eq_some_iff.1 hopen
      rw [if_pos hopen, scanToClose_open, Checked.ok_bind, group?, Option.map_map, Option.map_map]
      refine congrArg (fun f => Except.ok (Option.map f _)) (funext fun cut => ?_)
      exact (Nat.add_assoc start 1 _).symm
    · have hnone : group? tail = none := by
        unfold group?
        split
        · exact absurd rfl hopen
        · rfl
      rw [if_neg hopen, hnone]
      rfl

end Sql

/-! ### Ends of clauses -/

namespace Clause

theorem scanToStop_eq (depth : Nat) (bytes : List (Nat × Char)) :
    scanToStop depth bytes =
      .ok ((firstStop isStop depth bytes).map fun found => (found.1, Stop.ofChar found.2)) := by
  induction bytes generalizing depth with
  | nil => rfl
  | cons byte later ih =>
    obtain ⟨place, c⟩ := byte
    rw [scanToStop, firstStop]
    by_cases hopen : c = '('
    · rw [if_pos hopen, if_pos hopen, if_neg (by simp [hopen, isStop]), ih]
    · rw [if_neg hopen, if_neg hopen]
      by_cases hclose : c = ')'
      · cases depth with
        | zero =>
          rw [if_neg (by simp), if_pos hclose, if_pos (by simp [hclose, isStop]), hclose]
          rfl
        | succ depth =>
          have hdown : difference (depth + 1) 1 = .ok depth := rfl
          rw [if_pos ⟨hclose, Nat.succ_pos depth⟩, hdown, Checked.ok_bind, if_neg (by simp), if_pos hclose, ih]
          rfl
      · rw [if_neg (fun h => hclose h.1), if_neg hclose, if_neg hclose]
        by_cases hcomma : c = ',' ∧ depth = 0
        · rw [if_pos hcomma, if_pos (by simp [hcomma, isStop]), hcomma.1]
          rfl
        · rw [if_neg hcomma, if_neg (fun h => hcomma ?_), ih]
          simpa [isStop, hclose, and_comm] using h

theorem endOffset_eq (text : String) (start : Nat) : endOffset text start = .ok (endFrom text start) := by
  unfold endOffset endFrom
  cases dropBytes? start text.toList with
  | none => rfl
  | some tail =>
    have hscan : scanToStop 0 (unquoted (octets tail)) =
        .ok ((splitTop isStop tail).map fun cut => (byteLength cut.before, Stop.ofChar cut.char)) := by
      rw [scanToStop_eq, ← map_splitTop, splitTop_octets isStructural_of_isStop, Option.map_map, Option.map_map]
      refine congrArg (fun f => Except.ok (Option.map f _)) (funext fun cut => ?_)
      simp
    dsimp only
    rw [hscan, Checked.ok_bind, cut]
    cases splitTop isStop tail <;> rfl

end Clause

end DdlCatalog
