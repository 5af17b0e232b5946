import Mathlib.Order.Basic

/-!
Texts by their octets. The encoding of characters keeps their order: of two
characters, the encoding of the lesser has the lesser octet where the two first
differ. So texts are in the order of their octets.
-/

namespace ResourceTypes.Text

/-- The octets that encode a text. -/
def octets (text : String) : List UInt8 := text.toUTF8.data.toList

theorem octets_eq (text : String) :
    octets text = text.toList.flatMap String.utf8EncodeChar := by
  conv => lhs; rw [← String.ofList_toList (s := text)]
  simp [octets, String.toUTF8_eq_toByteArray, String.ofList, List.utf8Encode]

/-- The encoding of a lesser character comes before that of a greater one,
whatever follows. -/
theorem encode_append_lt {c d : Char} (h : c < d) (xs ys : List UInt8) :
    String.utf8EncodeChar c ++ xs < String.utf8EncodeChar d ++ ys := by
  have hlt : c.val.toNat < d.val.toNat := h
  have hbound : d.val.toNat < 0x110000 := by
    have hvalid := d.valid
    simp only [UInt32.isValidChar, Nat.isValidChar] at hvalid
    omega
  unfold String.utf8EncodeChar
  generalize c.val.toNat = v at *
  generalize d.val.toNat = w at *
  -- the digits that the octets carry, each told from the one after it
  have hsecond (n : Nat) : n / 4096 = n / 64 / 64 := by omega
  have hfirst (n : Nat) : n / 262144 = n / 64 / 64 / 64 := by omega
  simp only [hsecond, hfirst]
  split_ifs <;>
    simp only [List.cons_append, List.nil_append, List.cons_lt_cons_iff, UInt8.lt_iff_toNat_lt,
      ← UInt8.toNat_inj, UInt8.toNat_ofNat']
  all_goals omega

theorem encode_flatMap_lt {cs ds : List Char} (h : cs < ds) :
    cs.flatMap String.utf8EncodeChar < ds.flatMap String.utf8EncodeChar := by
  induction h with
  | @nil d ds =>
      rw [List.flatMap_nil, List.flatMap_cons]
      cases hencoding : String.utf8EncodeChar d with
      | nil => exact absurd hencoding String.utf8EncodeChar_ne_nil
      | cons octet rest => exact .nil
  | cons _ ih =>
      rw [List.flatMap_cons, List.flatMap_cons]
      exact List.append_left_lt ih
  | rel hlt =>
      rw [List.flatMap_cons, List.flatMap_cons]
      exact encode_append_lt hlt _ _

/-- The lesser of two texts has the lesser octets. -/
theorem octets_lt {text other : String} (h : text < other) : octets text < octets other := by
  rw [octets_eq, octets_eq]
  exact encode_flatMap_lt h

end ResourceTypes.Text
