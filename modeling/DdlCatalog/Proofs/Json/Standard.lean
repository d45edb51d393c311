import DdlCatalog.Json
import Mathlib.Data.List.Basic
import Mathlib.Tactic.Common

/-!
# The texts of JSON values

The grammar of the JSON standard, without regard to any printer: a value may be spelled with other blanks, escapes
and orders of fields than a program writes.

* `SpellsText` — what stands between the marks of a string; `Spells` — a value, or the parts of an array or of an
  object between its brackets; `Denotes` — a whole text;
* `exists_head_of_spells` : the first character of a value tells its kind;
* `Spells.unique` : what follows a value does not change how it is read;
* `Denotes.unique` : a text denotes at most one value.
-/

namespace DdlCatalog.Json.Standard

/-! ### Values -/

/-- A JSON value.  A number is its text: how exactly it is kept is left to the reader of it. -/
inductive Value where
  | null
  | bool (value : Bool)
  | number (text : List Char)
  | string (text : String)
  | array (items : List Value)
  | object (fields : List (String × Value))

/-- What the values of a kind have in common is how their texts begin. -/
inductive Kind where
  | null
  | bool (value : Bool)
  | number
  | string
  | array
  | object
  deriving DecidableEq

def Value.kind : Value → Kind
  | .null => .null
  | .bool value => .bool value
  | .number _ => .number
  | .string _ => .string
  | .array _ => .array
  | .object _ => .object

/-- The kind of the values that begin with a character. -/
def Kind.ofHead? (c : Char) : Option Kind :=
  if c = 'n' then some .null
  else if c = 't' then some (.bool true)
  else if c = 'f' then some (.bool false)
  else if c = '"' then some .string
  else if c = '[' then some .array
  else if c = '\x7b' then some .object
  else if c = '-' ∨ c.isDigit = true then some .number
  else none

/-! ### Blanks -/

def isSpace (c : Char) : Bool :=
  c = ' ' || c = '\t' || c = '\n' || c = '\r'

/-- The blanks that may stand around a value, perhaps none. -/
def Spaces (text : List Char) : Prop := ∀ c ∈ text, isSpace c = true

/-! ### Numbers -/

def IsDigits (text : List Char) : Prop := text ≠ [] ∧ ∀ c ∈ text, c.isDigit = true

/-- No zero stands before other digits. -/
def IsWhole (text : List Char) : Prop := IsDigits text ∧ (text.head? = some '0' → text = ['0'])

def IsFraction (text : List Char) : Prop := text = [] ∨ ∃ digits, IsDigits digits ∧ text = '.' :: digits

def IsExponent (text : List Char) : Prop :=
  text = [] ∨ ∃ letter sign digits, letter ∈ ['e', 'E'] ∧ sign ∈ [[], ['+'], ['-']] ∧ IsDigits digits ∧
    text = letter :: (sign ++ digits)

/-- A sign perhaps, a whole number, and perhaps a fraction and an exponent. -/
structure IsNumber (text : List Char) : Prop where
  exists_parts : ∃ sign whole fraction exponent, sign ∈ [[], ['-']] ∧ IsWhole whole ∧ IsFraction fraction ∧
    IsExponent exponent ∧ text = sign ++ (whole ++ (fraction ++ exponent))

def isNumberChar (c : Char) : Bool :=
  c.isDigit || ['-', '+', '.', 'e', 'E'].contains c

def NumberChars (text : List Char) : Prop := ∀ c ∈ text, isNumberChar c = true

instance (text : List Char) : Decidable (NumberChars text) := List.decidableBAll _ text

/-- No number goes on into the text. -/
def EndsNumber (text : List Char) : Prop := ∀ c ∈ text.head?, isNumberChar c = false

/-! ### Strings -/

def hexValue? (c : Char) : Option Nat :=
  "0123456789abcdef".toList.idxOf? c.toLower

/-- The code unit that four hexadecimal digits stand for. -/
def codeUnit? (p q r s : Char) : Option Nat := do
  return (((← hexValue? p) * 16 + (← hexValue? q)) * 16 + (← hexValue? r)) * 16 + (← hexValue? s)

/-- The letters of the short escapes, with the characters that these stand for. -/
def shortEscapes : List (Char × Char) :=
  [('"', '"'), ('\\', '\\'), ('/', '/'), ('b', '\x08'), ('f', '\x0c'), ('n', '\n'), ('r', '\r'), ('t', '\t')]

/-- How a character may stand in a string: as it is, by a short escape, by its code unit, or by the two code units
of a character outside the basic plane. -/
inductive SpellsChar : List Char → Char → Prop
  | plain {c : Char} (hcontrol : 0x20 ≤ c.toNat) (hmark : c ≠ '"') (hescape : c ≠ '\\') : SpellsChar [c] c
  | short {letter c : Char} (h : shortEscapes.lookup letter = some c) : SpellsChar ['\\', letter] c
  | unit {p q r s c : Char} (h : codeUnit? p q r s = some c.toNat) : SpellsChar ['\\', 'u', p, q, r, s] c
  | pair {p q r s p' q' r' s' c : Char} {high low : Nat} (hhigh : high < 0x400) (hlow : low < 0x400)
      (h : codeUnit? p q r s = some (0xD800 + high)) (h' : codeUnit? p' q' r' s' = some (0xDC00 + low))
      (hc : c.toNat = 0x10000 + high * 0x400 + low) :
      SpellsChar ['\\', 'u', p, q, r, s, '\\', 'u', p', q', r', s'] c

/-- The characters of a string one after the other. -/
inductive SpellsText : List Char → List Char → Prop
  | nil : SpellsText [] []
  | cons {t text : List Char} {c : Char} {content : List Char} (h : SpellsChar t c) (hs : SpellsText text content) :
      SpellsText (t ++ text) (c :: content)

/-! ### Values and their parts -/

/-- What stands before the values in an array and in an object: nothing, or a key and a colon. -/
inductive SpellsKey : Option String → List Char → Prop
  | none : SpellsKey none []
  | some {text content w w' : List Char} (h : SpellsText text content) (hw : Spaces w) (hw' : Spaces w') :
      SpellsKey (some (String.ofList content)) ('"' :: (text ++ '"' :: (w ++ ':' :: w')))

/-- A value, or all that stands between two brackets. -/
inductive Phrase where
  | value (value : Value)
  | parts (parts : List (Option String × Value))

inductive Spells : Phrase → List Char → Prop
  | null : Spells (.value .null) ['n', 'u', 'l', 'l']
  | true : Spells (.value (.bool true)) ['t', 'r', 'u', 'e']
  | false : Spells (.value (.bool false)) ['f', 'a', 'l', 's', 'e']
  | number {text : List Char} (h : IsNumber text) : Spells (.value (.number text)) text
  | string {text content : List Char} (h : SpellsText text content) :
      Spells (.value (.string (String.ofList content))) ('"' :: (text ++ ['"']))
  | array {items : List Value} {text : List Char} (h : Spells (.parts (items.map (none, ·))) text) :
      Spells (.value (.array items)) ('[' :: (text ++ [']']))
  | object {fields : List (String × Value)} {text : List Char}
      (h : Spells (.parts (fields.map fun field => (some field.1, field.2))) text) :
      Spells (.value (.object fields)) ('\x7b' :: (text ++ ['\x7d']))
  | noParts {w : List Char} (hw : Spaces w) : Spells (.parts []) w
  | lastPart {key : Option String} {value : Value} {k t w w' : List Char} (hw : Spaces w) (hk : SpellsKey key k)
      (h : Spells (.value value) t) (hw' : Spaces w') : Spells (.parts [(key, value)]) (w ++ (k ++ (t ++ w')))
  | moreParts {key : Option String} {value : Value} {next : Option String × Value}
      {parts : List (Option String × Value)} {k t w w' text : List Char} (hw : Spaces w) (hk : SpellsKey key k)
      (h : Spells (.value value) t) (hw' : Spaces w') (hs : Spells (.parts (next :: parts)) text) :
      Spells (.parts ((key, value) :: next :: parts)) (w ++ (k ++ (t ++ (w' ++ ',' :: text))))

/-- A whole text: a value between blanks. -/
def Denotes (text : List Char) (value : Value) : Prop :=
  ∃ w t w', Spaces w ∧ Spells (.value value) t ∧ Spaces w' ∧ text = w ++ (t ++ w')

variable {a b r r' t t' text text' w w' content content' : List Char} {c c' d d' : Char} {value value' : Value}

/-! ### Blanks and what follows them -/

theorem spaces_nil : Spaces [] := by
  intro c hc
  cases hc

/-- Blanks end at the first character that is none. -/
theorem spaces_unique (hw : Spaces w) (hw' : Spaces w') (hc : isSpace c = false) (hc' : isSpace c' = false)
    (e : w ++ c :: r = w' ++ c' :: r') : w = w' ∧ c = c' ∧ r = r' := by
  have hspan : ∀ {w c r}, Spaces w → isSpace c = false →
      (w ++ c :: r).takeWhile isSpace = w ∧ (w ++ c :: r).dropWhile isSpace = c :: r := by
    intro w c r hw hc
    rw [List.takeWhile_append_of_pos hw, List.dropWhile_append_of_pos hw]
    simp [hc]
  obtain ⟨htake, hdrop⟩ := hspan (r := r) hw hc
  obtain ⟨htake', hdrop'⟩ := hspan (r := r') hw' hc'
  rw [e] at htake hdrop
  obtain ⟨rfl, rfl⟩ := List.cons.inj (hdrop.symm.trans hdrop')
  exact ⟨htake.symm.trans htake', rfl, rfl⟩

/-! ### Numbers -/

theorem numberChars_cons : NumberChars (c :: text) ↔ isNumberChar c = true ∧ NumberChars text := by
  simp [NumberChars]

theorem numberChars_append : NumberChars (a ++ b) ↔ NumberChars a ∧ NumberChars b := by
  simp [NumberChars, or_imp, forall_and]

theorem IsDigits.numberChars (h : IsDigits text) : NumberChars text := by
  intro c hc
  simp [isNumberChar, h.2 c hc]

theorem IsNumber.numberChars (h : IsNumber text) : NumberChars text := by
  obtain ⟨sign, whole, fraction, exponent, hsign, hwhole, hfraction, hexponent, rfl⟩ := h.exists_parts
  refine numberChars_append.2 ⟨?_, numberChars_append.2 ⟨hwhole.1.numberChars, numberChars_append.2 ⟨?_, ?_⟩⟩⟩
  · simp only [List.mem_cons, List.not_mem_nil, or_false] at hsign
    rcases hsign with rfl | rfl <;> decide
  · rcases hfraction with rfl | ⟨digits, hdigits, rfl⟩
    · decide
    · exact numberChars_cons.2 ⟨by decide, hdigits.numberChars⟩
  · rcases hexponent with rfl | ⟨letter, sign, digits, hletter, hsign, hdigits, rfl⟩
    · decide
    · simp only [List.mem_cons, List.not_mem_nil, or_false] at hletter hsign
      refine numberChars_cons.2 ⟨?_, numberChars_append.2 ⟨?_, hdigits.numberChars⟩⟩
      · rcases hletter with rfl | rfl <;> decide
      · rcases hsign with rfl | rfl | rfl <;> decide

theorem IsNumber.exists_head (h : IsNumber text) : ∃ c rest, text = c :: rest ∧ (c = '-' ∨ c.isDigit = true) := by
  obtain ⟨sign, whole, fraction, exponent, hsign, ⟨⟨hne, hwhole⟩, -⟩, -, -, rfl⟩ := h.exists_parts
  obtain ⟨c, whole, rfl⟩ := List.exists_cons_of_ne_nil hne
  rcases List.mem_cons.1 hsign with rfl | hsign
  · exact ⟨c, _, rfl, .inr (hwhole c List.mem_cons_self)⟩
  · cases List.mem_singleton.1 hsign
    exact ⟨'-', _, rfl, .inl rfl⟩

theorem number_unique (h : IsNumber t) (h' : IsNumber t') (hr : EndsNumber r) (hr' : EndsNumber r')
    (e : t ++ r = t' ++ r') : t = t' := by
  have htake : ∀ {t r}, IsNumber t → EndsNumber r → (t ++ r).takeWhile isNumberChar = t := by
    intro t r h hr
    rw [List.takeWhile_append_of_pos h.numberChars]
    cases r with
    | nil => simp
    | cons c r => simp [hr c rfl]
  rw [← htake h hr, e, htake h' hr']

/-! ### Strings -/

/-- No character has one of the code units that are kept for pairs. -/
theorem toNat_ne_high (c : Char) {high : Nat} (h : high < 0x400) : c.toNat ≠ 0xD800 + high := by
  have := c.valid
  intro e
  unfold Char.toNat at e
  rcases this with h | h
  · have : c.val.toNat < 0xD800 := h
    omega
  · have : 0xDFFF < c.val.toNat := h.1
    omega

theorem SpellsChar.unique (h : SpellsChar t c) (h' : SpellsChar t' c') (e : t ++ r = t' ++ r') : t = t' ∧ c = c' := by
  cases h with
  | plain _ _ hescape =>
    cases h' with
    | plain _ _ _ =>
      cases e
      exact ⟨rfl, rfl⟩
    | short _ => exact absurd (List.cons.inj e).1 hescape
    | unit _ => exact absurd (List.cons.inj e).1 hescape
    | pair _ _ _ _ _ => exact absurd (List.cons.inj e).1 hescape
  | short hletter =>
    cases h' with
    | plain _ _ hescape => exact absurd (List.cons.inj e).1.symm hescape
    | short hletter' =>
      cases e
      exact ⟨rfl, Option.some.inj (hletter.symm.trans hletter')⟩
    | unit _ =>
      cases e
      cases hletter
    | pair _ _ _ _ _ =>
      cases e
      cases hletter
  | unit hc =>
    cases h' with
    | plain _ _ hescape => exact absurd (List.cons.inj e).1.symm hescape
    | short hletter' =>
      cases e
      cases hletter'
    | unit hc' =>
      cases e
      exact ⟨rfl, Char.toNat_inj.1 (Option.some.inj (hc.symm.trans hc'))⟩
    | pair hhigh _ h₁ _ _ =>
      cases e
      exact absurd (Option.some.inj (hc.symm.trans h₁)) (toNat_ne_high c hhigh)
  | pair hhigh hlow h₁ h₂ hc =>
    cases h' with
    | plain _ _ hescape => exact absurd (List.cons.inj e).1.symm hescape
    | short hletter' =>
      cases e
      cases hletter'
    | unit hc' =>
      cases e
      exact absurd (Option.some.inj (hc'.symm.trans h₁)) (toNat_ne_high c' hhigh)
    | pair hhigh' hlow' h₁' h₂' hc' =>
      cases e
      have hhighs := Option.some.inj (h₁.symm.trans h₁')
      have hlows := Option.some.inj (h₂.symm.trans h₂')
      exact ⟨rfl, Char.toNat_inj.1 (by omega)⟩

theorem SpellsChar.exists_head (h : SpellsChar t c) : ∃ d rest, t = d :: rest ∧ d ≠ '"' := by
  cases h with
  | plain _ hmark _ => exact ⟨_, _, rfl, hmark⟩
  | short _ => exact ⟨_, _, rfl, by decide⟩
  | unit _ => exact ⟨_, _, rfl, by decide⟩
  | pair _ _ _ _ _ => exact ⟨_, _, rfl, by decide⟩

/-- A string ends at the first mark that does not belong to a character. -/
theorem SpellsText.unique (h : SpellsText text content) (h' : SpellsText text' content')
    (e : text ++ '"' :: r = text' ++ '"' :: r') : text = text' ∧ content = content' ∧ r = r' := by
  induction h generalizing text' content' with
  | nil =>
    cases h' with
    | nil =>
      cases e
      exact ⟨rfl, rfl, rfl⟩
    | cons hc _ =>
      obtain ⟨d, rest, rfl, hd⟩ := hc.exists_head
      exact absurd (List.cons.inj e).1.symm hd
  | cons hc hs ih =>
    cases h' with
    | nil =>
      obtain ⟨d, rest, rfl, hd⟩ := hc.exists_head
      exact absurd (List.cons.inj e).1 hd
    | cons hc' hs' =>
      rw [List.append_assoc, List.append_assoc] at e
      obtain ⟨rfl, rfl⟩ := hc.unique hc' e
      obtain ⟨rfl, rfl, hr⟩ := ih hs' (List.append_cancel_left e)
      exact ⟨rfl, rfl, hr⟩

/-! ### Values -/

/-- The first character of a value tells its kind. -/
theorem exists_head_of_spells (h : Spells (.value value) t) :
    ∃ c rest, t = c :: rest ∧ Kind.ofHead? c = some value.kind := by
  cases h with
  | null => exact ⟨_, _, rfl, rfl⟩
  | true => exact ⟨_, _, rfl, rfl⟩
  | false => exact ⟨_, _, rfl, rfl⟩
  | string _ => exact ⟨_, _, rfl, rfl⟩
  | array _ => exact ⟨_, _, rfl, rfl⟩
  | object _ => exact ⟨_, _, rfl, rfl⟩
  | number h =>
    obtain ⟨c, rest, rfl, hc⟩ := h.exists_head
    refine ⟨c, rest, rfl, ?_⟩
    have hne : ∀ d, d ≠ '-' → d.isDigit = false → c ≠ d := by
      rintro d hminus hdigit rfl
      rcases hc with hc | hc
      · exact hminus hc
      · rw [hdigit] at hc
        cases hc
    unfold Kind.ofHead?
    rw [if_neg (hne _ (by decide) (by decide)), if_neg (hne _ (by decide) (by decide)),
      if_neg (hne _ (by decide) (by decide)), if_neg (hne _ (by decide) (by decide)),
      if_neg (hne _ (by decide) (by decide)), if_neg (hne _ (by decide) (by decide)), if_pos hc]
    rfl

theorem isSpace_of_ofHead? {kind : Kind} (h : Kind.ofHead? c = some kind) : isSpace c = false := by
  rw [Bool.eq_false_iff]
  intro hc
  simp only [isSpace, Bool.or_eq_true, decide_eq_true_eq] at hc
  rcases hc with ((rfl | rfl) | rfl) | rfl <;> cases h

/-- Two values that begin with the same character are of the same kind. -/
theorem kind_eq_of_append_eq (h : Spells (.value value) t) (h' : Spells (.value value') t')
    (e : t ++ r = t' ++ r') : value.kind = value'.kind := by
  obtain ⟨c, rest, rfl, hc⟩ := exists_head_of_spells h
  obtain ⟨c', rest', rfl, hc'⟩ := exists_head_of_spells h'
  obtain ⟨rfl, -⟩ := List.cons.inj e
  exact Option.some.inj (hc.symm.trans hc')

/-! ### Parts -/

/-- What may follow a part: the end of the array or of the object, or another part. -/
def IsDelimiter (c : Char) : Prop := c ∈ [',', ']', '\x7d']

theorem IsDelimiter.isSpace (h : IsDelimiter c) : isSpace c = false := by
  simp only [IsDelimiter, List.mem_cons, List.not_mem_nil, or_false] at h
  rcases h with rfl | rfl | rfl <;> rfl

theorem IsDelimiter.ofHead? (h : IsDelimiter c) : Kind.ofHead? c = none := by
  simp only [IsDelimiter, List.mem_cons, List.not_mem_nil, or_false] at h
  rcases h with rfl | rfl | rfl <;> rfl

/-- No number goes on after it. -/
theorem IsDelimiter.endsNumber (h : IsDelimiter c) (hw : Spaces w) : EndsNumber (w ++ c :: r) := by
  intro d hd
  cases w with
  | nil =>
    obtain rfl : c = d := by simpa using hd
    simp only [IsDelimiter, List.mem_cons, List.not_mem_nil, or_false] at h
    rcases h with rfl | rfl | rfl <;> rfl
  | cons b w =>
    obtain rfl : b = d := by simpa using hd
    have hb := hw b List.mem_cons_self
    simp only [Standard.isSpace, Bool.or_eq_true, decide_eq_true_eq] at hb
    rcases hb with ((rfl | rfl) | rfl) | rfl <;> rfl

variable {key key' : Option String} {k k' u u' : List Char} {parts parts' : List (Option String × Value)}

/-- A part begins with its key or its value. -/
theorem exists_head_of_part (hk : SpellsKey key k) (h : Spells (.value value) t) :
    ∃ c rest, k ++ (t ++ r) = c :: rest ∧ ∃ kind, Kind.ofHead? c = some kind := by
  cases hk with
  | none =>
    obtain ⟨c, rest, rfl, hc⟩ := exists_head_of_spells h
    exact ⟨c, rest ++ r, rfl, _, hc⟩
  | some _ _ _ => exact ⟨_, _, rfl, .string, rfl⟩

theorem SpellsKey.unique (hk : SpellsKey key k) (hk' : SpellsKey key' k') (hsame : key.isSome = key'.isSome)
    (hc : isSpace c = false) (hc' : isSpace c' = false) (e : k ++ c :: r = k' ++ c' :: r') : key = key' ∧ k = k' := by
  cases hk with
  | none =>
    cases hk' with
    | none => exact ⟨rfl, rfl⟩
    | some _ _ _ => cases hsame
  | some h hw hw' =>
    cases hk' with
    | none => cases hsame
    | some h' hu hu' =>
      simp only [List.cons_append, List.append_assoc] at e
      obtain ⟨rfl, rfl, e⟩ := h.unique h' (List.cons.inj e).2
      obtain ⟨rfl, -, e⟩ := spaces_unique hw hu rfl rfl e
      obtain ⟨rfl, -, -⟩ := spaces_unique hw' hu' hc hc' e
      exact ⟨rfl, rfl⟩

/-- A phrase and its text are told by any text that goes on after them. -/
def Phrase.Unique (text : List Char) : Phrase → Prop
  | .value value => ∀ value' text' r r', Spells (.value value') text' → EndsNumber r → EndsNumber r' →
      text ++ r = text' ++ r' → value = value' ∧ text = text'
  | .parts parts => ∀ parts' text' c r r', Spells (.parts parts') text' →
      (∀ p ∈ parts, ∀ q ∈ parts', p.1.isSome = q.1.isSome) → IsDelimiter c → c ≠ ',' →
      text ++ c :: r = text' ++ c :: r' → parts = parts' ∧ text = text'

/-- A part, the blanks around it and what delimits it. -/
theorem part_unique (hw : Spaces w) (hk : SpellsKey key k) (h : Spells (.value value) t) (hu : Spaces u)
    (hd : IsDelimiter d) (hvalue : Phrase.Unique t (.value value))
    (hw' : Spaces w') (hk' : SpellsKey key' k') (h' : Spells (.value value') t') (hu' : Spaces u')
    (hd' : IsDelimiter d') (hsame : key.isSome = key'.isSome)
    (e : w ++ (k ++ (t ++ (u ++ d :: r))) = w' ++ (k' ++ (t' ++ (u' ++ d' :: r')))) :
    key = key' ∧ value = value' ∧ w ++ (k ++ (t ++ u)) = w' ++ (k' ++ (t' ++ u')) ∧ d = d' ∧ r = r' := by
  obtain ⟨c, rest, hhead, kind, hc⟩ := exists_head_of_part (r := u ++ d :: r) hk h
  obtain ⟨c', rest', hhead', kind', hc'⟩ := exists_head_of_part (r := u' ++ d' :: r') hk' h'
  have hparts := e
  rw [hhead, hhead'] at hparts
  obtain ⟨rfl, rfl, rfl⟩ := spaces_unique hw hw' (isSpace_of_ofHead? hc) (isSpace_of_ofHead? hc') hparts
  have e := hhead.trans hhead'.symm
  obtain ⟨b, s, rfl, hb⟩ := exists_head_of_spells h
  obtain ⟨b', s', rfl, hb'⟩ := exists_head_of_spells h'
  obtain ⟨rfl, rfl⟩ := hk.unique hk' hsame (isSpace_of_ofHead? hb) (isSpace_of_ofHead? hb') e
  obtain ⟨rfl, ht⟩ := hvalue _ _ _ _ h' (hd.endsNumber hu) (hd'.endsNumber hu') (List.append_cancel_left e)
  rw [ht] at e ⊢
  obtain ⟨rfl, rfl, rfl⟩ :=
    spaces_unique hu hu' hd.isSpace hd'.isSpace (List.append_cancel_left (List.append_cancel_left e))
  exact ⟨rfl, rfl, rfl, rfl, rfl⟩

/-- Where a part may begin, the array or object does not end. -/
theorem not_part_of_delimiter (hw : Spaces w) (hd : IsDelimiter d) (hw' : Spaces w') (hk : SpellsKey key k)
    (h : Spells (.value value) t) : w ++ d :: r ≠ w' ++ (k ++ (t ++ r')) := by
  intro e
  obtain ⟨c, rest, hhead, kind, hc⟩ := exists_head_of_part (r := r') hk h
  rw [hhead] at e
  obtain ⟨-, rfl, -⟩ := spaces_unique hw hw' hd.isSpace (isSpace_of_ofHead? hc) e
  rw [hd.ofHead?] at hc
  cases hc

theorem isDelimiter_comma : IsDelimiter ',' := by simp [IsDelimiter]

theorem isDelimiter_bracket : IsDelimiter ']' := by simp [IsDelimiter]

theorem isDelimiter_brace : IsDelimiter '\x7d' := by simp [IsDelimiter]

/-- All parts of an array and all parts of an object have a key, or none has. -/
theorem keys_alike {α : Type} {part : α → Option String × Value} (h : ∀ a b, (part a).1.isSome = (part b).1.isSome)
    {items items' : List α} : ∀ p ∈ items.map part, ∀ q ∈ items'.map part, p.1.isSome = q.1.isSome := by
  intro p hp q hq
  obtain ⟨a, -, rfl⟩ := List.mem_map.1 hp
  obtain ⟨b, -, rfl⟩ := List.mem_map.1 hq
  exact h a b

/-- The induction goes over the first of two ways to read a text; the second one has to take the same turn. -/
theorem Spells.unique {phrase : Phrase} (h : Spells phrase text) : phrase.Unique text := by
  induction h with
  | null =>
    intro value' text' r r' h' _ _ e
    have hkind := kind_eq_of_append_eq .null h' e
    cases value' <;> cases hkind
    cases h'
    exact ⟨rfl, rfl⟩
  | true =>
    intro value' text' r r' h' _ _ e
    have hkind := kind_eq_of_append_eq .true h' e
    cases value' <;> cases hkind
    cases h'
    exact ⟨rfl, rfl⟩
  | false =>
    intro value' text' r r' h' _ _ e
    have hkind := kind_eq_of_append_eq .false h' e
    cases value' <;> cases hkind
    cases h'
    exact ⟨rfl, rfl⟩
  | number h =>
    intro value' text' r r' h' hr hr' e
    have hkind := kind_eq_of_append_eq (.number h) h' e
    cases value' <;> cases hkind
    cases h' with
    | number h' =>
      obtain rfl := number_unique h h' hr hr' e
      exact ⟨rfl, rfl⟩
  | string h =>
    intro value' text' r r' h' _ _ e
    have hkind := kind_eq_of_append_eq (.string h) h' e
    cases value' <;> cases hkind
    cases h' with
    | string h' =>
      simp only [List.cons_append, List.append_assoc, List.nil_append] at e
      obtain ⟨rfl, rfl, -⟩ := h.unique h' (List.cons.inj e).2
      exact ⟨rfl, rfl⟩
  | array h ih =>
    intro value' text' r r' h' _ _ e
    have hkind := kind_eq_of_append_eq (.array h) h' e
    cases value' <;> cases hkind
    cases h' with
    | array h' =>
      simp only [List.cons_append, List.append_assoc, List.nil_append] at e
      obtain ⟨hitems, rfl⟩ :=
        ih _ _ _ _ _ h' (keys_alike fun _ _ => rfl) isDelimiter_bracket (by decide) (List.cons.inj e).2
      have hinj : Function.Injective fun value : Value => ((none : Option String), value) := by
        intro value value' e
        exact (Prod.mk.inj e).2
      rw [List.map_injective_iff.2 hinj hitems]
      exact ⟨rfl, rfl⟩
  | object h ih =>
    intro value' text' r r' h' _ _ e
    have hkind := kind_eq_of_append_eq (.object h) h' e
    cases value' <;> cases hkind
    cases h' with
    | object h' =>
      simp only [List.cons_append, List.append_assoc, List.nil_append] at e
      obtain ⟨hfields, rfl⟩ :=
        ih _ _ _ _ _ h' (keys_alike fun _ _ => rfl) isDelimiter_brace (by decide) (List.cons.inj e).2
      have hinj : Function.Injective fun (field : String × Value) => (some field.1, field.2) := by
        rintro ⟨key, value⟩ ⟨key', value'⟩ e
        cases e
        rfl
      rw [List.map_injective_iff.2 hinj hfields]
      exact ⟨rfl, rfl⟩
  | noParts hw =>
    intro parts' text' c r r' h' _ hc _ e
    cases h' with
    | noParts hw' =>
      obtain ⟨rfl, -, -⟩ := spaces_unique hw hw' hc.isSpace hc.isSpace e
      exact ⟨rfl, rfl⟩
    | lastPart hw' hk' h' hu' =>
      simp only [List.append_assoc] at e
      exact absurd e (not_part_of_delimiter hw hc hw' hk' h')
    | moreParts hw' hk' h' hu' hs' =>
      simp only [List.append_assoc] at e
      exact absurd e (not_part_of_delimiter hw hc hw' hk' h')
  | lastPart hw hk h hu ih =>
    intro parts' text' c r r' h' hsame hc hcomma e
    cases h' with
    | noParts hw' =>
      simp only [List.append_assoc] at e
      exact absurd e.symm (not_part_of_delimiter hw' hc hw hk h)
    | lastPart hw' hk' h' hu' =>
      simp only [List.append_assoc] at e
      obtain ⟨rfl, rfl, htext, -, -⟩ := part_unique hw hk h hu hc ih hw' hk' h' hu' hc
        (hsame _ List.mem_cons_self _ List.mem_cons_self) e
      exact ⟨rfl, htext⟩
    | moreParts hw' hk' h' hu' hs' =>
      simp only [List.append_assoc, List.cons_append] at e
      obtain ⟨-, -, -, rfl, -⟩ := part_unique hw hk h hu hc ih hw' hk' h' hu' isDelimiter_comma
        (hsame _ List.mem_cons_self _ List.mem_cons_self) e
      exact absurd rfl hcomma
  | moreParts hw hk h hu hs ih ihs =>
    intro parts' text' c r r' h' hsame hc hcomma e
    cases h' with
    | noParts hw' =>
      simp only [List.append_assoc] at e
      exact absurd e.symm (not_part_of_delimiter hw' hc hw hk h)
    | lastPart hw' hk' h' hu' =>
      simp only [List.append_assoc, List.cons_append] at e
      obtain ⟨-, -, -, rfl, -⟩ := part_unique hw hk h hu isDelimiter_comma ih hw' hk' h' hu' hc
        (hsame _ List.mem_cons_self _ List.mem_cons_self) e
      exact absurd rfl hcomma
    | moreParts hw' hk' h' hu' hs' =>
      simp only [List.append_assoc, List.cons_append] at e
      obtain ⟨rfl, rfl, htext, -, e⟩ := part_unique hw hk h hu isDelimiter_comma ih hw' hk' h' hu' isDelimiter_comma
        (hsame _ List.mem_cons_self _ List.mem_cons_self) e
      obtain ⟨hparts, rfl⟩ := ihs _ _ _ _ _ hs'
        (fun p hp q hq => hsame p (List.mem_cons_of_mem _ hp) q (List.mem_cons_of_mem _ hq)) hc hcomma e
      refine ⟨congrArg _ hparts, ?_⟩
      simpa using congrArg (· ++ ',' :: _) htext

/-- **A text denotes at most one value**, whatever blanks and escapes it is written with. -/
theorem Denotes.unique (h : Denotes text value) (h' : Denotes text value') : value = value' := by
  obtain ⟨w, t, u, hw, h, hu, rfl⟩ := h
  obtain ⟨w', t', u', hw', h', hu', e⟩ := h'
  -- a bracket behind the text makes the value the last part of an array
  have e : w ++ ([] ++ (t ++ (u ++ [']']))) = w' ++ ([] ++ (t' ++ (u' ++ [']']))) := by
    simpa using congrArg (· ++ [']']) e
  exact (part_unique hw .none h hu isDelimiter_bracket h.unique hw' .none h' hu' isDelimiter_bracket rfl e).2.1

-- another spelling than a printer's: a pair of code units, and blanks in other places
example : Denotes "[ \"\\uD83D\\uDE00\",-1e3]".toList (.array [.string "😀", .number ['-', '1', 'e', '3']]) := by
  have hnumber : IsNumber ['-', '1', 'e', '3'] :=
    ⟨['-'], ['1'], [], ['e', '3'], by simp, ⟨⟨by simp, by simp⟩, by simp⟩, .inl rfl,
      .inr ⟨'e', [], ['3'], by simp, by simp, ⟨by simp, by simp⟩, rfl⟩, rfl⟩
  have htext : SpellsText "\\uD83D\\uDE00".toList ['😀'] :=
    .cons (.pair (by decide : 0x3D < 0x400) (by decide : 0x200 < 0x400) rfl rfl rfl) .nil
  have hspace : Spaces [' '] := by simp [Spaces, isSpace]
  exact ⟨[], _, [], spaces_nil, .array (.moreParts hspace .none (.string htext) spaces_nil
    (.lastPart spaces_nil .none (.number hnumber) spaces_nil)), spaces_nil, rfl⟩

end DdlCatalog.Json.Standard
