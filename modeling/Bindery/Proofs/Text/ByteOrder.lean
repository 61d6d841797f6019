/-
The order of texts is the order of their bytes.

Texts are compared character by character, and their encodings byte by byte.  The two
agree because encodings differ first where the lesser character has the lesser byte:
longer encodings begin with greater bytes, and encodings of one length put the high
bits first.  So no encoding is a beginning of another, and what follows a character
cannot change how it compares.
-/
namespace Bindery.Text

/-- The bytes of a text. -/
def bytes (s : String) : List UInt8 :=
  s.toByteArray.data.toList

theorem bytes_eq (s : String) : bytes s = s.toList.flatMap String.utf8EncodeChar := by
  unfold bytes
  rw [← String.utf8Encode_toList, List.utf8Encode, List.toList_data_toByteArray]

/-- Bytes decide from the first on; what comes after counts only where they are equal. -/
theorem cons_byte_lt {a b : Nat} (hle : a ≤ b) (hb : b < 256) {xs ys : List UInt8}
    (hrest : a = b → xs < ys) : UInt8.ofNat a :: xs < UInt8.ofNat b :: ys := by
  rcases Nat.lt_or_eq_of_le hle with hlt | rfl
  · refine List.cons_lt_cons_iff.mpr (Or.inl ?_)
    rw [UInt8.lt_iff_toNat_lt, UInt8.toNat_ofNat', UInt8.toNat_ofNat']
    omega
  · exact List.cons_lt_cons_self.mpr (hrest rfl)

/-- The encoding of a lesser character is lesser, whatever comes after either. -/
theorem encode_lt {c d : Char} (h : c < d) (xs ys : List UInt8) :
    String.utf8EncodeChar c ++ xs < String.utf8EncodeChar d ++ ys := by
  have hval : c.val.toNat < d.val.toNat := h
  have hmax : d.val.toNat < 0x110000 := by
    rcases d.valid with hd | hd
    · exact Nat.lt_of_lt_of_le hd (by decide)
    · exact hd.2
  unfold String.utf8EncodeChar
  generalize c.val.toNat = m at hval
  generalize d.val.toNat = n at hval hmax
  simp only
  by_cases hm1 : m ≤ 0x7f
  · rw [if_pos hm1]
    by_cases hn1 : n ≤ 0x7f
    · rw [if_pos hn1]
      exact cons_byte_lt (by omega) (by omega) fun h => by omega
    · rw [if_neg hn1]
      split
      · exact cons_byte_lt (by omega) (by omega) fun h => by omega
      · split <;> exact cons_byte_lt (by omega) (by omega) fun h => by omega
  · rw [if_neg hm1, if_neg (by omega : ¬ n ≤ 0x7f)]
    by_cases hm2 : m ≤ 0x7ff
    · rw [if_pos hm2]
      split
      · refine cons_byte_lt (by omega) (by omega) fun h => ?_
        exact cons_byte_lt (by omega) (by omega) fun h => by omega
      · split <;> exact cons_byte_lt (by omega) (by omega) fun h => by omega
    · rw [if_neg hm2, if_neg (by omega : ¬ n ≤ 0x7ff)]
      by_cases hm3 : m ≤ 0xffff
      · rw [if_pos hm3]
        split
        · refine cons_byte_lt (by omega) (by omega) fun h => ?_
          refine cons_byte_lt (by omega) (by omega) fun h' => ?_
          exact cons_byte_lt (by omega) (by omega) fun h => by omega
        · exact cons_byte_lt (by omega) (by omega) fun h => by omega
      · rw [if_neg hm3, if_neg (by omega : ¬ n ≤ 0xffff)]
        refine cons_byte_lt (by omega) (by omega) fun h => ?_
        refine cons_byte_lt (by omega) (by omega) fun h' => ?_
        refine cons_byte_lt (by omega) (by omega) fun h'' => ?_
        exact cons_byte_lt (by omega) (by omega) fun h => by omega

/-- **The lesser of two texts has the lesser bytes.** -/
theorem bytes_lt {s t : String} (h : s < t) : bytes s < bytes t := by
  rw [bytes_eq, bytes_eq]
  replace h : s.toList < t.toList := h
  generalize s.toList = cs at h
  generalize t.toList = ds at h
  induction h with
  | @nil d ds =>
      rw [List.flatMap_nil, List.flatMap_cons]
      cases hd : String.utf8EncodeChar d with
      | nil => exact absurd hd String.utf8EncodeChar_ne_nil
      | cons b bs => exact List.nil_lt_cons _ _
  | @rel c cs d ds hlt =>
      rw [List.flatMap_cons, List.flatMap_cons]
      exact encode_lt hlt _ _
  | @cons c cs ds _ ih =>
      rw [List.flatMap_cons, List.flatMap_cons]
      exact List.append_left_lt ih

end Bindery.Text
