import Mathlib.Data.UInt
import Stencil.Text.Scan

set_option autoImplicit false

namespace Stencil

namespace Text

def bytes (text : List Char) : List UInt8 := text.flatMap String.utf8EncodeChar

theorem bytes_append (first second : List Char) : bytes (first ++ second) = bytes first ++ bytes second :=
  List.flatMap_append

theorem bytes_cons (c : Char) (rest : List Char) : bytes (c :: rest) = String.utf8EncodeChar c ++ bytes rest :=
  List.flatMap_cons

theorem length_bytes (text : List Char) : (bytes text).length = byteSize text := by
  induction text with
  | nil => rfl
  | cons c rest ih => rw [bytes_cons, List.length_append, String.length_utf8EncodeChar, ih, byteSize]

def isAscii (c : Char) : Bool := c.toNat ≤ 127

theorem encode_ascii {c : Char} (ascii : isAscii c = true) : String.utf8EncodeChar c = [c.toUInt8] := by
  have small : c.val.toNat ≤ 127 := of_decide_eq_true ascii
  simp only [String.utf8EncodeChar, if_pos small]
  rfl

theorem high_ofNat (n : Nat) (high : 128 ≤ n) (fits : n < 256) : 128 ≤ UInt8.ofNat n := by
  rw [UInt8.le_iff_toNat_le, UInt8.toNat_ofNat', Nat.mod_eq_of_lt fits]
  exact high

theorem encode_high {c : Char} (wide : ¬ isAscii c = true) : ∀ b ∈ String.utf8EncodeChar c, 128 ≤ b := by
  have large : ¬ c.val.toNat ≤ 127 := fun small => wide (decide_eq_true small)
  have none : ∀ b ∈ ([] : List UInt8), 128 ≤ b := nofun
  have follows (n : Nat) (rest : List UInt8) (high : ∀ b ∈ rest, 128 ≤ b) :
      ∀ b ∈ UInt8.ofNat (n % 64 + 128) :: rest, 128 ≤ b :=
    List.forall_mem_cons.mpr ⟨high_ofNat _ (by omega) (by omega), high⟩
  simp only [String.utf8EncodeChar, if_neg large]
  split
  · exact List.forall_mem_cons.mpr ⟨high_ofNat _ (by omega) (by omega), follows _ _ none⟩
  · split
    · exact List.forall_mem_cons.mpr ⟨high_ofNat _ (by omega) (by omega), follows _ _ (follows _ _ none)⟩
    · refine List.forall_mem_cons.mpr ⟨high_ofNat _ (by omega) (by omega), ?_⟩
      exact follows _ _ (follows _ _ (follows _ _ none))

-- Only the first byte of a character may be one of ASCII.
theorem encode_cons (c : Char) : ∃ b others, String.utf8EncodeChar c = b :: others ∧ ∀ d ∈ others, 128 ≤ d := by
  by_cases ascii : isAscii c = true
  · exact ⟨c.toUInt8, [], encode_ascii ascii, nofun⟩
  · have high := encode_high ascii
    cases encoded : String.utf8EncodeChar c with
    | nil =>
        have size := String.length_utf8EncodeChar c
        rw [encoded] at size
        exact absurd size (Nat.ne_of_lt c.utf8Size_pos)
    | cons b others =>
        rw [encoded] at high
        exact ⟨b, others, rfl, fun d inside => high d (List.mem_cons_of_mem b inside)⟩

theorem toNat_byte {c : Char} (ascii : isAscii c = true) : c.toUInt8.toNat = c.toNat := by
  have small : c.toNat ≤ 127 := of_decide_eq_true ascii
  have value : c.toUInt8.toNat = c.toNat % 256 := UInt32.toNat_toUInt8 c.val
  omega

theorem toUInt8_inj {c d : Char} (first : isAscii c = true) (second : isAscii d = true) :
    c.toUInt8 = d.toUInt8 ↔ c = d := by
  refine ⟨fun same => Char.toNat_inj.mp ?_, fun same => by rw [same]⟩
  rw [← toNat_byte first, ← toNat_byte second, same]

theorem ascii_below {c : Char} (ascii : isAscii c = true) : c.toUInt8 < 128 := by
  have small : c.toNat ≤ 127 := of_decide_eq_true ascii
  rw [UInt8.lt_iff_toNat_lt, toNat_byte ascii]
  exact Nat.lt_succ_of_le small

theorem ne_of_high {b : UInt8} (high : 128 ≤ b) {c : Char} (ascii : isAscii c = true) : b ≠ c.toUInt8 := by
  rintro rfl
  exact absurd (ascii_below ascii) (UInt8.not_lt.mpr high)

theorem split_of_byte (d : Char) (ascii : isAscii d = true) (text : List Char) (place : Nat)
    (found : (bytes text)[place]? = some d.toUInt8) :
    ∃ before rest, text = before ++ d :: rest ∧ byteSize before = place := by
  induction text generalizing place with
  | nil => cases found
  | cons c rest ih =>
      rw [bytes_cons] at found
      by_cases first : place < (String.utf8EncodeChar c).length
      · rw [List.getElem?_append_left first] at found
        have inside := List.mem_of_getElem? found
        by_cases narrow : isAscii c = true
        · rw [encode_ascii narrow] at inside first
          obtain rfl := (toUInt8_inj ascii narrow).mp (List.mem_singleton.mp inside)
          exact ⟨[], rest, rfl, (Nat.lt_one_iff.mp first).symm⟩
        · exact absurd rfl (ne_of_high (encode_high narrow _ inside) ascii)
      · have behind := Nat.le_of_not_lt first
        rw [List.getElem?_append_right behind] at found
        obtain ⟨before, after, rfl, size⟩ := ih _ found
        refine ⟨c :: before, after, rfl, ?_⟩
        rw [byteSize, size, ← String.length_utf8EncodeChar]
        omega

theorem byteSize_eq_zero (text : List Char) (none : byteSize text = 0) : text = [] := by
  cases text with
  | nil => rfl
  | cons c rest =>
      have size := c.utf8Size_pos
      rw [byteSize] at none
      omega

theorem cut_unique (first second after after' : List Char) (same : first ++ after = second ++ after')
    (size : byteSize first = byteSize second) : first = second ∧ after = after' := by
  rcases List.append_eq_append_iff.mp same with ⟨between, rfl, rfl⟩ | ⟨between, rfl, rfl⟩
  · rw [byteSize_append] at size
    obtain rfl := byteSize_eq_zero between (by omega)
    exact ⟨(List.append_nil first).symm, rfl⟩
  · rw [byteSize_append] at size
    obtain rfl := byteSize_eq_zero between (by omega)
    exact ⟨List.append_nil second, rfl⟩

def IsSlice (text : List Char) (start stop : Nat) (slice : List Char) : Prop :=
  ∃ before after, text = before ++ (slice ++ after) ∧ byteSize before = start ∧ start + byteSize slice = stop

theorem cut_of_isSlice {before rest slice : List Char} {stop : Nat}
    (isSlice : IsSlice (before ++ rest) (byteSize before) stop slice) :
    ∃ after, rest = slice ++ after ∧ byteSize before + byteSize slice = stop := by
  obtain ⟨before', after, cut, size, ends⟩ := isSlice
  exact ⟨after, (cut_unique before before' rest _ cut size.symm).2, ends⟩

end Text

end Stencil
