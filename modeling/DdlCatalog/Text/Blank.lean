/-!
# Blanks

The characters that separate words, and a text without the blanks at its ends. Texts are lists of
characters here: the statements of a dump are cut into pieces everywhere, and a piece of a list is
again a list.
-/

namespace DdlCatalog.Text

/-- The code points of Unicode's property White_Space, as ranges with both ends. -/
def blankRanges : List (Nat × Nat) :=
  [(0x09, 0x0D), (0x20, 0x20), (0x85, 0x85), (0xA0, 0xA0), (0x1680, 0x1680), (0x2000, 0x200A),
    (0x2028, 0x2029), (0x202F, 0x202F), (0x205F, 0x205F), (0x3000, 0x3000)]

/-- Whether a character separates words. -/
def isBlank (c : Char) : Bool :=
  blankRanges.any fun (low, high) => low ≤ c.toNat && c.toNat ≤ high

/-- The text without the blanks it starts with. -/
def trimStart (text : List Char) : List Char :=
  text.dropWhile isBlank

/-- The text without the blanks it ends with. -/
def trimEnd (text : List Char) : List Char :=
  (trimStart text.reverse).reverse

/-- The text without the blanks at its two ends. -/
def trim (text : List Char) : List Char :=
  trimStart (trimEnd text)

def startsBlank (text : List Char) : Bool :=
  text.head?.any isBlank

def endsBlank (text : List Char) : Bool :=
  text.getLast?.any isBlank

/-- The text from its first character that is no blank to the next blank. -/
def firstWord (text : List Char) : List Char :=
  (trimStart text).takeWhile fun c => !isBlank c

/-! ### What trimming leaves -/

theorem trimStart_append_of_blank {before text : List Char} (h : ∀ c ∈ before, isBlank c) :
    trimStart (before ++ text) = trimStart text := by
  induction before with
  | nil => rfl
  | cons c before ih =>
    have hc : isBlank c = true := h c (by simp)
    simpa [trimStart, hc] using ih fun d hd => h d (by simp [hd])

theorem trimStart_eq_self {text : List Char} (h : startsBlank text = false) :
    trimStart text = text := by
  cases text with
  | nil => rfl
  | cons c text =>
    have hc : isBlank c = false := by simpa [startsBlank] using h
    simp [trimStart, hc]

theorem startsBlank_trimStart (text : List Char) : startsBlank (trimStart text) = false := by
  induction text with
  | nil => rfl
  | cons c text ih =>
    by_cases hc : isBlank c = true
    · simpa [trimStart, hc] using ih
    · simp [trimStart, hc, startsBlank]

theorem endsBlank_eq_startsBlank_reverse (text : List Char) :
    endsBlank text = startsBlank text.reverse := by
  simp [endsBlank, startsBlank]

theorem endsBlank_trimEnd (text : List Char) : endsBlank (trimEnd text) = false := by
  rw [endsBlank_eq_startsBlank_reverse, trimEnd, List.reverse_reverse]
  exact startsBlank_trimStart _

end DdlCatalog.Text
