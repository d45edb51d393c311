import DdlCatalog.Proofs.Text.ByteOrder
import DdlCatalog.Proofs.Text.Trim
import DdlCatalog.Text.Bytes

/-!
# A text byte by byte

* `octets t` — the bytes of `t`, each as the character with its number, so that all that is said of characters can be
  said of bytes;
* `IsBoundary t n` — a character of `t` starts behind its first `n` bytes, or `t` ends there;
* `octets_eq_append_cons_iff` : an ASCII character among the bytes is one of the text, at a boundary.
-/

namespace DdlCatalog.Text

/-- The bytes of a text, each as the character with its number. -/
def octets (text : List Char) : List Char :=
  text.flatMap fun c => (String.utf8EncodeChar c).map Char.ofUInt8

/-- A place of a text that is given by the number of bytes before it. -/
def IsBoundary (text : String) (offset : Nat) : Prop := String.Pos.Raw.IsValid text ⟨offset⟩

/-- The character is written with one byte. -/
def IsAscii (c : Char) : Prop := c.toNat < 128

instance (c : Char) : Decidable (IsAscii c) := inferInstanceAs (Decidable (c.toNat < 128))

variable {a b text u v : List Char} {c d : Char} {offset : Nat}

theorem octets_toList (text : String) : octets text.toList = (utf8 text).map Char.ofUInt8 := by
  rw [utf8_eq, octets, List.map_flatMap]

@[simp] theorem octets_nil : octets [] = [] := rfl

@[simp] theorem octets_append : octets (a ++ b) = octets a ++ octets b :=
  List.flatMap_append

theorem octets_cons : octets (c :: text) = octets [c] ++ octets text :=
  octets_append (a := [c])

theorem toNat_ofUInt8 (b : UInt8) : (Char.ofUInt8 b).toNat = b.toNat :=
  UInt8.toNat_toUInt32 b

theorem octets_ascii (h : IsAscii c) : octets [c] = [c] := by
  have hsize : c.utf8Size = 1 := by
    rw [Char.utf8Size_eq_one_iff, UInt32.le_iff_toNat_le]
    exact Nat.le_of_lt_succ h
  have hbyte : Char.ofUInt8 c.val.toUInt8 = c := by
    rw [← Char.toNat_inj, toNat_ofUInt8, UInt32.toNat_toUInt8]
    exact Nat.mod_eq_of_lt (Nat.lt_trans h (by decide))
  rw [octets, List.flatMap_singleton, String.utf8EncodeChar_eq_singleton hsize, List.map_singleton, hbyte]

/-- The bytes of a character beyond ASCII are beyond ASCII, too. -/
theorem not_isAscii_of_mem_octets (h : ¬ IsAscii c) (hd : d ∈ octets [c]) : ¬ IsAscii d := by
  have hbyte {n : Nat} (hlow : 128 ≤ n) (hhigh : n < 256) : 128 ≤ (Char.ofUInt8 (UInt8.ofNat n)).toNat := by
    rwa [toNat_ofUInt8, UInt8.toNat_ofNat', Nat.mod_eq_of_lt hhigh]
  have hgt : ¬ c.val.toNat ≤ 127 := fun hle => h (Nat.lt_succ_of_le hle)
  unfold octets String.utf8EncodeChar at hd
  simp only [List.flatMap_singleton, hgt, if_false] at hd
  unfold IsAscii
  rw [Nat.not_lt]
  split_ifs at hd <;> simp only [List.map_cons, List.map_nil, List.mem_cons, List.not_mem_nil, or_false] at hd
  · rcases hd with rfl | rfl <;> exact hbyte (by omega) (by omega)
  · rcases hd with rfl | rfl | rfl <;> exact hbyte (by omega) (by omega)
  · rcases hd with rfl | rfl | rfl | rfl <;> exact hbyte (by omega) (by omega)

@[simp] theorem length_octets (text : List Char) : (octets text).length = byteLength text := by
  induction text with
  | nil => rfl
  | cons c text ih =>
    rw [octets_cons, List.length_append, ih, byteLength_cons]
    simp [octets]

/-! ### Boundaries -/

theorem byteLength_toList (text : String) : byteLength text.toList = text.utf8ByteSize := by
  rw [← length_octets, octets_toList, List.length_map]
  rfl

theorem isBoundary_iff {text : String} :
    IsBoundary text offset ↔ ∃ before after, text.toList = before ++ after ∧ byteLength before = offset := by
  unfold IsBoundary
  rw [String.Pos.Raw.isValid_iff_exists_append]
  constructor
  · rintro ⟨before, after, rfl, h⟩
    refine ⟨before.toList, after.toList, String.toList_append, ?_⟩
    rw [byteLength_toList]
    exact (congrArg String.Pos.Raw.byteIdx h).symm
  · rintro ⟨before, after, h, rfl⟩
    refine ⟨String.ofList before, String.ofList after, ?_, ?_⟩
    · rw [← String.ofList_append, ← h, String.ofList_toList]
    · have hlength := byteLength_toList (String.ofList before)
      rw [String.toList_ofList] at hlength
      rw [hlength]
      rfl

/-- An ASCII character among the bytes of a text is a character of it. -/
theorem octets_eq_append_cons_iff (hc : IsAscii c) :
    octets text = u ++ c :: v ↔ ∃ a b, text = a ++ c :: b ∧ octets a = u ∧ octets b = v := by
  constructor
  · intro h
    induction text generalizing u with
    | nil => simp at h
    | cons d text ih =>
      rw [octets_cons] at h
      by_cases hd : IsAscii d
      · rw [octets_ascii hd, List.singleton_append] at h
        cases u with
        | nil =>
          obtain ⟨rfl, rfl⟩ := List.cons.inj h
          exact ⟨[], text, rfl, rfl, rfl⟩
        | cons e u =>
          obtain ⟨rfl, hrest⟩ := List.cons.inj h
          obtain ⟨a, b, rfl, rfl, rfl⟩ := ih hrest
          exact ⟨d :: a, b, rfl, by rw [octets_cons, octets_ascii hd]; rfl, rfl⟩
      · -- none of the bytes of `d` is the character
        rcases append_eq_append_cons h with ⟨u', rfl, hrest⟩ | ⟨chars, hbytes, -⟩
        · obtain ⟨a, b, rfl, rfl, rfl⟩ := ih hrest
          exact ⟨d :: a, b, rfl, octets_cons, rfl⟩
        · have hmem : c ∈ octets [d] := by simp [hbytes]
          exact absurd hc (not_isAscii_of_mem_octets hd hmem)
  · rintro ⟨a, b, rfl, rfl, rfl⟩
    rw [octets_append, octets_cons, octets_ascii hc, List.singleton_append]

/-- Where a byte is an ASCII character, there stands this character. -/
theorem getElem?_octets_iff (hc : IsAscii c) :
    (octets text)[offset]? = some c ↔ ∃ a b, text = a ++ c :: b ∧ byteLength a = offset := by
  constructor
  · intro h
    obtain ⟨hlt, hget⟩ := List.getElem?_eq_some_iff.1 h
    have hsplit : octets text = (octets text).take offset ++ c :: (octets text).drop (offset + 1) := by
      rw [← hget, List.getElem_cons_drop, List.take_append_drop]
    obtain ⟨a, b, rfl, ha, -⟩ := (octets_eq_append_cons_iff hc).1 hsplit
    refine ⟨a, b, rfl, ?_⟩
    rw [← length_octets, ha, List.length_take]
    omega
  · rintro ⟨a, b, rfl, rfl⟩
    rw [← length_octets, (octets_eq_append_cons_iff hc).2 ⟨a, b, rfl, rfl, rfl⟩]
    simp

end DdlCatalog.Text
