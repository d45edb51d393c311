import DdlCatalog.Proofs.Sql.Skeleton
import DdlCatalog.Proofs.Statement.ColumnList

/-!
# Where a clause ends, by bytes

* `StopsAt bytes start e` — behind `e.offset` bytes stands a comma or a closing parenthesis, outside quotes and
  parentheses for one who reads from `start` on;
* `stopsAt_iff` : the same told by the characters of the text;
* `endFrom_eq_first_stop` : a clause ends at the first of these places.
-/

namespace DdlCatalog.Clause

open Sql Text

/-- A comma or a closing parenthesis behind some bytes.  Read from `start` on, with no quotes and no parentheses open
there, none are open before it. -/
structure StopsAt (bytes : List Char) (start : Nat) (e : End) : Prop where
  start_le : start ≤ e.offset
  byte : bytes[e.offset]? = some e.stop.char
  atTop : AtTop (bytes.extract start e.offset)

variable {text : String} {pre mid rest tail : List Char} {start : Nat} {e e' : End} {c : Char} {s : Stop}

theorem isStop_char (s : Stop) : isStop s.char = true := by
  cases s <;> rfl

theorem isAscii_char (s : Stop) : IsAscii s.char := by
  cases s <;> decide

theorem ofChar_char (s : Stop) : Stop.ofChar s.char = s := by
  cases s <;> rfl

theorem char_ofChar (h : isStop c = true) : (Stop.ofChar c).char = c := by
  simp only [isStop, Bool.or_eq_true, beq_iff_eq] at h
  rcases h with rfl | rfl <;> rfl

/-- The bytes of a part of a text. -/
theorem extract_octets (pre mid rest : List Char) :
    (octets (pre ++ (mid ++ rest))).extract (byteLength pre) (byteLength pre + byteLength mid) = octets mid := by
  rw [List.extract_eq_take_drop, octets_append, octets_append, ← length_octets pre, List.drop_left,
    Nat.add_sub_cancel_left, ← length_octets mid, List.take_left]

theorem stopsAt_iff :
    StopsAt (octets (pre ++ tail)) (byteLength pre) e ↔
      ∃ mid rest, tail = mid ++ e.stop.char :: rest ∧ e.offset = byteLength pre + byteLength mid ∧ AtTop mid := by
  constructor
  · rintro ⟨hle, hbyte, htop⟩
    obtain ⟨before, rest, htext, hoffset⟩ := (getElem?_octets_iff (isAscii_char e.stop)).1 hbyte
    rcases append_eq_append_cons htext with ⟨mid, rfl, rfl⟩ | ⟨chars, rfl, -⟩
    · rw [byteLength_append] at hoffset
      rw [← hoffset, extract_octets, atTop_octets] at htop
      exact ⟨mid, rest, rfl, hoffset.symm, htop⟩
    · -- the stop would stand before `start`
      have := Char.utf8Size_pos e.stop.char
      rw [byteLength_append, byteLength_cons] at hle
      omega
  · rintro ⟨mid, rest, rfl, hoffset, htop⟩
    refine ⟨by omega, ?_, ?_⟩
    · exact (getElem?_octets_iff (isAscii_char e.stop)).2 ⟨pre ++ mid, rest, by simp, by simp [hoffset]⟩
    · rwa [hoffset, extract_octets, atTop_octets]

/-! ### The clause that is cut -/

theorem cut_eq_ok_iff {cut : Cut} :
    Clause.cut tail = .ok cut ↔
      tail = cut.before ++ cut.char :: cut.rest ∧ isStop cut.char = true ∧ AtTop cut.before ∧
        NoStop isStop [] cut.before := by
  have hcut : Clause.cut tail = .ok cut ↔ splitTop isStop tail = some cut := by
    unfold Clause.cut
    cases splitTop isStop tail <;> simp
  rw [hcut, splitTop_eq_some_iff, ColumnList.passFrom_isStop_iff atTop_nil, List.nil_append]
  constructor
  · rintro ⟨e, ⟨hno, htracks⟩, -, hstop⟩
    exact ⟨e, hstop, htracks.atTop_iff.2 rfl, hno⟩
  · rintro ⟨e, hstop, htop, hno⟩
    exact ⟨e, ⟨hno, tracks_top htop⟩, ColumnList.isMark_of_isStop hstop, hstop⟩

theorem endFrom_of_boundary (h : text.toList = pre ++ tail) :
    endFrom text (byteLength pre) =
      match Clause.cut tail with
      | .ok c => .ok { offset := byteLength pre + byteLength c.before, stop := .ofChar c.char }
      | .error e => .error e := by
  have hdrop : dropBytes? (byteLength pre) text.toList = some tail := dropBytes?_eq_some.2 ⟨pre, h, rfl⟩
  cases hcut : Clause.cut tail <;> simp only [endFrom, hdrop, hcut]

/-- What a clause ends with that starts at a boundary. -/
theorem endFrom_eq_ok_of_boundary_iff (h : text.toList = pre ++ tail) :
    endFrom text (byteLength pre) = .ok e ↔
      ∃ mid rest, tail = mid ++ e.stop.char :: rest ∧ e.offset = byteLength pre + byteLength mid ∧ AtTop mid ∧
        NoStop isStop [] mid := by
  rw [endFrom_of_boundary h]
  constructor
  · intro hend
    cases hcut : Clause.cut tail with
    | error e => simp [hcut] at hend
    | ok c =>
      rw [hcut] at hend
      obtain rfl := Except.ok.inj hend
      obtain ⟨htail, hstop, htop, hno⟩ := cut_eq_ok_iff.1 hcut
      exact ⟨c.before, c.rest, by rwa [char_ofChar hstop], rfl, htop, hno⟩
  · rintro ⟨mid, rest, htail, hoffset, htop, hno⟩
    have hcut : Clause.cut tail = .ok ⟨mid, e.stop.char, rest⟩ :=
      cut_eq_ok_iff.2 ⟨htail, isStop_char e.stop, htop, hno⟩
    rw [hcut]
    dsimp only
    rw [ofChar_char, ← hoffset]

theorem enclosed_of_endFrom (h : text.toList = pre ++ tail) (hend : endFrom text (byteLength pre) = .ok e) :
    ∃ mid rest, tail = mid ++ e.stop.char :: rest ∧ e.offset = byteLength pre + byteLength mid ∧ Enclosed mid := by
  obtain ⟨mid, rest, htail, hoffset, htop, hno⟩ := (endFrom_eq_ok_of_boundary_iff h).1 hend
  have hpass : passFrom isStop .top mid = some .top :=
    (ColumnList.passFrom_isStop_iff atTop_nil).2 ⟨hno, tracks_top htop⟩
  exact ⟨mid, rest, htail, hoffset, ((passFrom_top_iff (by decide) fun _ => ColumnList.isMark_of_isStop).1 hpass).1⟩

theorem endFrom_of_not_boundary (h : ¬ IsBoundary text start) : endFrom text start = .error (.unreadable text) := by
  unfold endFrom
  cases hdrop : dropBytes? start text.toList with
  | none => rfl
  | some tail =>
    obtain ⟨pre, htext, hlength⟩ := dropBytes?_eq_some.1 hdrop
    exact absurd (isBoundary_iff.2 ⟨pre, tail, htext, hlength⟩) h

theorem of_cut_eq_error {error : ParseError} (h : Clause.cut tail = .error error) :
    error = .unterminated (String.ofList (trim tail)) ∧ NoStop isStop [] tail := by
  obtain ⟨he, n, hn⟩ := ColumnList.of_cut_error h
  exact ⟨he, ((ColumnList.passFrom_isStop_iff atTop_nil).1 hn).1⟩

/-! ### The first stop -/

/-- Before the first stop at the top stands none, and where none stands before it a stop is the first. -/
theorem noStop_iff_first (htail : tail = mid ++ e.stop.char :: rest)
    (hoffset : e.offset = byteLength pre + byteLength mid) :
    NoStop isStop [] mid ↔ ∀ e', StopsAt (octets (pre ++ tail)) (byteLength pre) e' → e.offset ≤ e'.offset := by
  constructor
  · intro hno e' h'
    obtain ⟨mid', rest', htail', hoffset', htop'⟩ := stopsAt_iff.1 h'
    rw [htail] at htail'
    rcases append_eq_append_cons htail' with ⟨x, rfl, -⟩ | ⟨chars, rfl, -⟩
    · rw [hoffset, hoffset', byteLength_append]
      omega
    · have := hno mid' e'.stop.char chars rfl (by simpa using htop')
      rw [isStop_char] at this
      cases this
  · intro hfirst a c b hmid htop
    by_contra hstop
    have hc : (Stop.ofChar c).char = c := char_ofChar (by simpa using hstop)
    have hearlier : StopsAt (octets (pre ++ tail)) (byteLength pre) ⟨byteLength pre + byteLength a, .ofChar c⟩ :=
      stopsAt_iff.2 ⟨a, b ++ e.stop.char :: rest, by rw [htail, hmid, hc]; simp, rfl, by simpa using htop⟩
    have hle := hfirst _ hearlier
    have := Char.utf8Size_pos c
    dsimp only at hle
    rw [hoffset, hmid, byteLength_append, byteLength_cons] at hle
    omega

/-- A text with a stop at the top has a first one. -/
theorem endFrom_eq_ok_iff :
    endFrom text start = .ok e ↔
      IsBoundary text start ∧ StopsAt (octets text.toList) start e ∧
        ∀ e', StopsAt (octets text.toList) start e' → e.offset ≤ e'.offset := by
  by_cases hstart : IsBoundary text start
  · obtain ⟨pre, tail, htext, rfl⟩ := isBoundary_iff.1 hstart
    rw [endFrom_eq_ok_of_boundary_iff htext, htext, stopsAt_iff]
    constructor
    · rintro ⟨mid, rest, htail, hoffset, htop, hno⟩
      exact ⟨hstart, ⟨mid, rest, htail, hoffset, htop⟩, (noStop_iff_first htail hoffset).1 hno⟩
    · rintro ⟨-, ⟨mid, rest, htail, hoffset, htop⟩, hfirst⟩
      exact ⟨mid, rest, htail, hoffset, htop, (noStop_iff_first htail hoffset).2 hfirst⟩
  · rw [endFrom_of_not_boundary hstart]
    simp [hstart]

/-- Behind a boundary nothing can be wrong but that there is no stop at the top. -/
theorem endFrom_eq_error_of_boundary_iff {error : ParseError} (h : text.toList = pre ++ tail) :
    endFrom text (byteLength pre) = .error error ↔
      error = .unterminated (String.ofList (trim tail)) ∧ ∀ e, ¬ StopsAt (octets text.toList) (byteLength pre) e := by
  rw [endFrom_of_boundary h, h]
  cases hcut : Clause.cut tail with
  | error found =>
    obtain ⟨hfound, hno⟩ := of_cut_eq_error hcut
    have hnone (e : End) : ¬ StopsAt (octets (pre ++ tail)) (byteLength pre) e := by
      intro hstop
      obtain ⟨mid, rest, rfl, -, htop⟩ := stopsAt_iff.1 hstop
      have := hno mid e.stop.char rest rfl (by simpa using htop)
      rw [isStop_char] at this
      cases this
    rw [hfound, Except.error.injEq, and_iff_left hnone, eq_comm]
  | ok c =>
    obtain ⟨htail, hstop, htop, -⟩ := cut_eq_ok_iff.1 hcut
    have hfound : StopsAt (octets (pre ++ tail)) (byteLength pre)
        ⟨byteLength pre + byteLength c.before, .ofChar c.char⟩ :=
      stopsAt_iff.2 ⟨c.before, c.rest, by rwa [char_ofChar hstop], rfl, htop⟩
    simp only [reduceCtorEq, false_iff, not_and]
    exact fun _ hno => hno _ hfound

/-- The two wordings of an error are told apart by their first letter. -/
theorem message_unterminated_ne (tail command : String) :
    (ParseError.unterminated tail).message ≠ (ParseError.unreadable command).message := by
  intro h
  have hlist : ("Unterminated clause: " ++ tail).toList = ("Cannot parse command: " ++ command).toList :=
    congrArg String.toList h
  have hu : "Unterminated clause: ".toList.head? = some 'U' := by decide
  have hc : "Cannot parse command: ".toList.head? = some 'C' := by decide
  have hhead := congrArg List.head? hlist
  rw [String.toList_append, String.toList_append, List.head?_append, List.head?_append, hu, hc] at hhead
  cases hhead

/-- How the answer is worded if it is an error. -/
theorem worded_eq_unreadable_iff :
    (endFrom text start).mapError ParseError.message = .error ("Cannot parse command: " ++ text) ↔
      ¬ IsBoundary text start := by
  constructor
  · intro hworded hstart
    obtain ⟨pre, tail, htext, rfl⟩ := isBoundary_iff.1 hstart
    cases hend : endFrom text (byteLength pre) with
    | ok e => simp [hend, Except.mapError] at hworded
    | error error =>
      obtain ⟨rfl, -⟩ := (endFrom_eq_error_of_boundary_iff htext).1 hend
      rw [hend] at hworded
      exact message_unterminated_ne _ text (Except.error.inj hworded)
  · intro hstart
    rw [endFrom_of_not_boundary hstart]
    rfl

theorem worded_eq_unterminated_iff (h : text.toList = pre ++ tail) :
    (endFrom text (byteLength pre)).mapError ParseError.message =
        .error ("Unterminated clause: " ++ String.ofList (trim tail)) ↔
      ∀ e, ¬ StopsAt (octets text.toList) (byteLength pre) e := by
  cases hend : endFrom text (byteLength pre) with
  | ok e =>
    have hstop := (endFrom_eq_ok_iff.1 hend).2.1
    simp only [Except.mapError, reduceCtorEq, false_iff]
    exact fun hno => hno e hstop
  | error error =>
    obtain ⟨rfl, hno⟩ := (endFrom_eq_error_of_boundary_iff h).1 hend
    exact iff_of_true rfl hno

/-- **A clause ends at the first comma or closing parenthesis outside quotes and parentheses.**  It is found, and it is
the first, for every text and every place where a character starts.  Up to it the text is enclosed, and a character
starts there and behind it.  At any other place the text cannot be read, and without such a stop the clause is
unterminated. -/
theorem endFrom_eq_first_stop (text : String) (start : Nat) :
    let bytes := octets text.toList
    let worded := (endFrom text start).mapError ParseError.message
    (∀ e, endFrom text start = .ok e ↔
      IsBoundary text start ∧ StopsAt bytes start e ∧ ∀ e', StopsAt bytes start e' → e.offset ≤ e'.offset) ∧
    (∀ e, endFrom text start = .ok e →
      Enclosed (bytes.extract start e.offset) ∧ IsBoundary text e.offset ∧ IsBoundary text (e.offset + 1)) ∧
    (worded = .error ("Cannot parse command: " ++ text) ↔ ¬ IsBoundary text start) ∧
    ∀ before after, text = before ++ after → before.utf8ByteSize = start →
      (worded = .error ("Unterminated clause: " ++ String.ofList (trim after.toList)) ↔
        ∀ e, ¬ StopsAt bytes start e) := by
  intro bytes worded
  refine ⟨fun e => endFrom_eq_ok_iff, fun e hend => ?_, worded_eq_unreadable_iff, fun before after htext hstart => ?_⟩
  · obtain ⟨pre, tail, htext, rfl⟩ := isBoundary_iff.1 (endFrom_eq_ok_iff.1 hend).1
    obtain ⟨mid, rest, rfl, hoffset, henclosed⟩ := enclosed_of_endFrom htext hend
    have hplace : byteLength (pre ++ mid) = e.offset := by rw [hoffset, byteLength_append]
    have hone : e.stop.char.utf8Size = 1 := by cases e.stop <;> rfl
    refine ⟨?_, ?_, ?_⟩
    · have hbytes : bytes.extract (byteLength pre) e.offset = octets mid := by
        change (octets text.toList).extract (byteLength pre) e.offset = octets mid
        rw [htext, hoffset, extract_octets]
      rwa [hbytes, enclosed_octets]
    · exact isBoundary_iff.2 ⟨pre ++ mid, e.stop.char :: rest, by simp [htext], hplace⟩
    · refine isBoundary_iff.2 ⟨pre ++ mid ++ [e.stop.char], rest, by simp [htext], ?_⟩
      rw [byteLength_append, hplace, byteLength_cons, hone, byteLength_nil]
  · rw [← byteLength_toList] at hstart
    obtain rfl := hstart
    exact worded_eq_unterminated_iff (by rw [htext, String.toList_append])

/-- The third of three commas is the first one outside quotes and parentheses. -/
example : endFrom "é €(a, ')') \"é,\" d, e)" 3 = .ok ⟨22, .comma⟩ := by decide +kernel

end DdlCatalog.Clause
