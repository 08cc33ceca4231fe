import Mathlib.Data.String.Basic

/-! The order of texts. They are compared code point by code point, which is how their bytes in
UTF-8 compare. -/
namespace Lifecycle.Text

def bytes (s : String) : List UInt8 := s.toByteArray.data.toList

private theorem bytes_eq_flatMap (s : String) :
    bytes s = s.toList.flatMap String.utf8EncodeChar := by
  rw [bytes, ← String.utf8Encode_toList, List.utf8Encode, List.toList_data_toByteArray]

private theorem ofNat_cons_lt {a b : Nat} (ha : a < 256) (hb : b < 256) (s t : List UInt8) :
    UInt8.ofNat a :: s < UInt8.ofNat b :: t ↔ a < b ∨ a = b ∧ s < t := by
  rw [List.cons_lt_cons_iff, UInt8.lt_iff_toNat_lt, ← UInt8.toNat_inj,
    UInt8.toNat_ofNat_of_lt' ha, UInt8.toNat_ofNat_of_lt' hb]

private theorem encode_lt {c d : Char} (h : c < d) (s t : List UInt8) :
    String.utf8EncodeChar c ++ s < String.utf8EncodeChar d ++ t := by
  -- The first byte tells how many there are, and more bytes encode higher code points. Among codes
  -- of one length the bytes hold the digits of the code point to the base 64, the highest first.
  have hlt : c.val.toNat < d.val.toNat := h
  have hvalid : d.val.toNat < 0xd800 ∨ 0xdfff < d.val.toNat ∧ d.val.toNat < 0x110000 := d.valid
  have hthird (n : Nat) : n / 4096 = n / 64 / 64 := by omega
  have hfourth (n : Nat) : n / 262144 = n / 64 / 64 / 64 := by omega
  simp only [String.utf8EncodeChar, hthird, hfourth]
  generalize c.val.toNat = v at *
  generalize d.val.toNat = w at *
  split_ifs <;> simp (disch := omega) only [List.cons_append, ofNat_cons_lt] <;> omega

private theorem flatMap_encode_lt {cs ds : List Char} (h : cs < ds) :
    cs.flatMap String.utf8EncodeChar < ds.flatMap String.utf8EncodeChar := by
  induction cs generalizing ds with
  | nil =>
    cases ds with
    | nil => exact absurd h (List.lt_irrefl [])
    | cons d ds =>
      rw [List.flatMap_cons]
      cases hd : String.utf8EncodeChar d with
      | nil => exact absurd hd String.utf8EncodeChar_ne_nil
      | cons b bs => exact List.nil_lt_cons b _
  | cons c cs ih =>
    cases ds with
    | nil => exact absurd h (List.not_lt_nil _)
    | cons d ds =>
      rw [List.flatMap_cons, List.flatMap_cons]
      rcases List.cons_lt_cons_iff.mp h with hcd | ⟨rfl, hrest⟩
      · exact encode_lt hcd _ _
      · exact List.append_left_lt (ih hrest)

/-- Texts compare as their bytes do. -/
theorem bytes_lt_bytes {s t : String} : bytes s < bytes t ↔ s < t := by
  have mono {s t : String} (h : s < t) : bytes s < bytes t := by
    rw [bytes_eq_flatMap, bytes_eq_flatMap]
    exact flatMap_encode_lt (String.lt_iff_toList_lt.mp h)
  -- The other way, texts that compare otherwise would have bytes that do.
  refine ⟨fun h => ?_, mono⟩
  rcases lt_trichotomy s t with hlt | rfl | hgt
  · exact hlt
  · exact absurd h (List.lt_irrefl _)
  · exact absurd (mono hgt) (List.lt_asymm h)

end Lifecycle.Text
