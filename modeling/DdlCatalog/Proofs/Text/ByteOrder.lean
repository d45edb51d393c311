import Mathlib.Data.Char
import Mathlib.Tactic.Common

/-!
# The order of texts and the order of their bytes

* `utf8 a` — the bytes of `a` in UTF-8;
* `utf8_lt_utf8_iff` : texts stand in the order of their bytes.

The encodings of two characters differ before either of them ends (`encoding_lt`), so that what follows them does not
matter.
-/

namespace DdlCatalog.Text

/-- The bytes of a text. -/
def utf8 (text : String) : List UInt8 :=
  text.toUTF8.data.toList

variable {a b : List Char} {c d : Char} {u v : List UInt8} {m n : Nat}

theorem utf8_eq (text : String) : utf8 text = text.toList.flatMap String.utf8EncodeChar := by
  unfold utf8
  show text.toByteArray.data.toList = _
  rw [← String.utf8Encode_toList, List.utf8Encode, List.toList_data_toByteArray]

/-! ### One character -/

theorem byte_cons_lt_iff (hm : m < 256) (hn : n < 256) :
    UInt8.ofNat m :: u < UInt8.ofNat n :: v ↔ m < n ∨ m = n ∧ u < v := by
  have hlt : UInt8.ofNat m < UInt8.ofNat n ↔ m < n := by
    rw [UInt8.lt_iff_toNat_lt, UInt8.toNat_ofNat', UInt8.toNat_ofNat', Nat.mod_eq_of_lt hm, Nat.mod_eq_of_lt hn]
  have heq : UInt8.ofNat m = UInt8.ofNat n ↔ m = n := by
    rw [← UInt8.toNat_inj, UInt8.toNat_ofNat', UInt8.toNat_ofNat', Nat.mod_eq_of_lt hm, Nat.mod_eq_of_lt hn]
  rw [List.cons_lt_cons_iff, hlt, heq]

/-- The encoding of the lesser character is the lesser one, whatever follows. -/
theorem encoding_lt (h : c < d) (u v : List UInt8) : String.utf8EncodeChar c ++ u < String.utf8EncodeChar d ++ v := by
  have hcd : c.val.toNat < d.val.toNat := by
    rwa [Char.lt_def, UInt32.lt_iff_toNat_lt] at h
  have hd : d.val.toNat < 0x110000 := by
    have := d.valid
    unfold UInt32.isValidChar Nat.isValidChar at this
    omega
  unfold String.utf8EncodeChar
  generalize c.val.toNat = m at hcd
  generalize d.val.toNat = n at hcd hd
  -- the first place, to the base 64, at which the two numbers differ
  have hplace : m / 262144 < n / 262144 ∨ m / 262144 = n / 262144 ∧ (m / 4096 % 64 < n / 4096 % 64 ∨
      m / 4096 % 64 = n / 4096 % 64 ∧ (m / 64 % 64 < n / 64 % 64 ∨ m / 64 % 64 = n / 64 % 64 ∧ m % 64 < n % 64)) := by
    have digit (k : Nat) : k / 64 / 64 = k / 4096 ∧ k / 4096 / 64 = k / 262144 := by
      rw [Nat.div_div_eq_div_mul, Nat.div_div_eq_div_mul]
      exact ⟨rfl, rfl⟩
    have hm := digit m
    have hn := digit n
    omega
  have hm : m / 262144 % 8 = m / 262144 := Nat.mod_eq_of_lt (by omega)
  have hn : n / 262144 % 8 = n / 262144 := Nat.mod_eq_of_lt (by omega)
  dsimp only
  rw [hm, hn]
  -- one goal for each pair of lengths; a longer encoding starts with a greater byte
  split_ifs <;> simp only [List.cons_append, List.nil_append] <;> (try omega) <;>
    simp (disch := omega) only [byte_cons_lt_iff] <;> omega

/-! ### Texts -/

theorem encodings_lt (h : a < b) : a.flatMap String.utf8EncodeChar < b.flatMap String.utf8EncodeChar := by
  induction a generalizing b with
  | nil =>
    cases b with
    | nil => exact absurd h (List.not_lt_nil _)
    | cons d b =>
      rw [List.flatMap_nil, List.flatMap_cons]
      cases hd : String.utf8EncodeChar d with
      | nil => exact absurd hd (by simp)
      | cons x xs => exact List.nil_lt_cons _ _
  | cons c a ih =>
    cases b with
    | nil => exact absurd h (List.not_lt_nil _)
    | cons d b =>
      rw [List.flatMap_cons, List.flatMap_cons]
      rcases List.cons_lt_cons_iff.1 h with hcd | ⟨rfl, hab⟩
      · exact encoding_lt hcd _ _
      · exact List.append_left_lt (ih hab)

/-- **Texts stand in the order of their bytes.** -/
theorem utf8_lt_utf8_iff {a b : String} : utf8 a < utf8 b ↔ a < b := by
  have hlt {a b : String} (h : a < b) : utf8 a < utf8 b := by
    rw [utf8_eq, utf8_eq]
    exact encodings_lt (String.lt_iff.1 h)
  refine ⟨fun h => ?_, hlt⟩
  by_contra hab
  have hba : ¬ b < a := fun hba => List.lt_asymm h (hlt hba)
  obtain rfl : a = b := String.le_antisymm (String.not_lt.1 hba) (String.not_lt.1 hab)
  exact List.lt_irrefl _ h

end DdlCatalog.Text
