import Mathlib.Tactic
import TaskQueue.Bytes

/-!
# The order of bytes

Texts compare by their bytes as they do by their characters: the bytes of an earlier character come
first, whatever follows, although characters have one to four of them.
-/

namespace TaskQueue.Bytes

open String (utf8EncodeChar)

theorem ofString_eq (s : String) : ofString s = s.toList.flatMap utf8EncodeChar := by
  unfold ofString
  rw [String.toUTF8_eq_toByteArray, ← String.utf8Encode_toList]
  simp [List.utf8Encode]

theorem codePoint_lt (c : Char) : c.val.toNat < 0x110000 := by
  have hvalid := c.valid
  unfold UInt32.isValidChar Nat.isValidChar at hvalid
  omega

/-- The bytes of an earlier character come first, whatever follows. -/
theorem utf8EncodeChar_lt_of_lt {c d : Char} (h : c < d) (xs ys : Bytes) :
    utf8EncodeChar c ++ xs < utf8EncodeChar d ++ ys := by
  have hlt : c.val.toNat < d.val.toNat := h
  have hbound := codePoint_lt d
  unfold utf8EncodeChar
  generalize c.val.toNat = m, d.val.toNat = n at *
  -- The bytes are the digits to base 64, below a mark for their number.
  have hm : m / 4096 = m / 64 / 64 ∧ m / 262144 = m / 64 / 64 / 64 := by omega
  have hn : n / 4096 = n / 64 / 64 ∧ n / 262144 = n / 64 / 64 / 64 := by omega
  dsimp only
  split_ifs
  all_goals
    simp only [List.cons_append, List.nil_append, List.cons_lt_cons_iff, UInt8.lt_iff_toNat_lt,
      ← UInt8.toNat_inj, UInt8.toNat_ofNat']
    try simp (disch := omega) only [Nat.mod_eq_of_lt]
    omega

theorem flatMap_lt_of_lt {cs ds : List Char} (h : cs < ds) :
    cs.flatMap utf8EncodeChar < ds.flatMap utf8EncodeChar := by
  induction cs generalizing ds with
  | nil =>
      cases ds with
      | nil => exact absurd h (List.lt_irrefl _)
      | cons d ds =>
          rw [List.flatMap_nil, List.flatMap_cons]
          cases hd : utf8EncodeChar d with
          | nil => exact absurd hd String.utf8EncodeChar_ne_nil
          | cons byte rest => exact List.nil_lt_cons _ _
  | cons c cs ih =>
      cases ds with
      | nil => exact absurd h (List.not_lt_nil _)
      | cons d ds =>
          rw [List.flatMap_cons, List.flatMap_cons]
          rcases List.cons_lt_cons_iff.1 h with hcd | ⟨rfl, hrest⟩
          · exact utf8EncodeChar_lt_of_lt hcd _ _
          · exact List.append_left_lt (ih hrest)

/-- The order of texts by their bytes is the one by their characters. -/
theorem ofString_lt_ofString_iff (s t : String) : ofString s < ofString t ↔ s < t := by
  have hmono : ∀ {s t : String}, s < t → ofString s < ofString t := by
    intro s t h
    rw [ofString_eq, ofString_eq]
    exact flatMap_lt_of_lt (String.lt_iff.1 h)
  refine ⟨fun h => ?_, hmono⟩
  rcases Std.lt_trichotomy s t with hlt | rfl | hgt
  · exact hlt
  · exact absurd h (List.lt_irrefl _)
  · exact absurd (hmono hgt) (List.lt_asymm h)

theorem ofString_inj {s t : String} : ofString s = ofString t ↔ s = t := by
  unfold ofString
  rw [Array.toList_inj, ← ByteArray.ext_iff]
  exact String.toByteArray_inj

/-- A text in ASCII has as many bytes as characters. -/
theorem length_ofString {s : String} (h : ∀ c ∈ s.toList, c.val ≤ 127) :
    (ofString s).length = s.toList.length := by
  have hone : ∀ c ∈ s.toList, (utf8EncodeChar c).length = 1 := by
    intro c hc
    rw [String.length_utf8EncodeChar]
    exact Char.utf8Size_eq_one_iff.2 (h c hc)
  rw [ofString_eq, List.length_flatMap, List.map_congr_left hone]
  simp

end TaskQueue.Bytes
