import Mathlib.Tactic
import TaskQueue.Proofs.Digits
import TaskQueue.Proofs.JsonTokens
import TaskQueue.Task.Id

/-!
# Texts of task identifiers

The text of an identifier is read back as that identifier, so that distinct identifiers have
distinct texts, and texts are ordered as the identifiers.
-/

namespace TaskQueue.TaskId

open Decimal (Positional)
open Json (hexDigit hexValue?)

theorem toNat_hexDigit {n : Nat} (hn : n < 16) :
    (hexDigit n).toNat = if n < 10 then 48 + n else 87 + n := by
  interval_cases n <;> rfl

theorem positional_hexPlaces : Positional 16 hexDigit hexPlaces where
  zero _ := rfl
  succ _ _ := rfl
  sign_lt_iff := by
    intro m n hm hn
    have hlt : hexDigit m < hexDigit n ↔ (hexDigit m).toNat < (hexDigit n).toNat := Iff.rfl
    rw [hlt, toNat_hexDigit hm, toNat_hexDigit hn]
    split <;> split <;> omega

@[simp] theorem length_hexPlaces (count n : Nat) : (hexPlaces count n).length = count :=
  positional_hexPlaces.length_write count n

theorem hexNumber_hexPlaces (count n : Nat) :
    hexNumber? (hexPlaces count n) = some (n % 16 ^ count) := by
  induction count generalizing n with
  | zero => simp [hexPlaces, hexNumber?, Nat.mod_one]
  | succ count ih =>
      have hdigit := Json.hexValue_hexDigit (Nat.mod_lt n (show 0 < 16 by omega))
      have hrec := ih (n / 16)
      unfold hexNumber? at hrec ⊢
      rw [hexPlaces, List.foldlM_append, hrec, Nat.pow_succ', Nat.mod_mul]
      simp [hdigit]
      omega

/-- The digits of all groups are the places of the number of the identifier. -/
theorem groups_eq (n : Nat) :
    hexPlaces 8 (n / 16 ^ 24) ++ hexPlaces 4 (n / 16 ^ 20) ++ hexPlaces 4 (n / 16 ^ 16) ++
      hexPlaces 4 (n / 16 ^ 12) ++ hexPlaces 12 n = hexPlaces 32 n := by
  have hadd := positional_hexPlaces.write_add
  rw [show (32 : Nat) = 8 + 24 from rfl, hadd 8 24, show (24 : Nat) = 4 + 20 from rfl, hadd 4 20,
    show (20 : Nat) = 4 + 16 from rfl, hadd 4 16, show (16 : Nat) = 4 + 12 from rfl, hadd 4 12]
  simp

theorem ofHyphenated_groups {as bs cs ds es : List Char} (ha : as.length = 8)
    (hb : bs.length = 4) (hc : cs.length = 4) (hd : ds.length = 4) (he : es.length = 12) :
    ofHyphenated? (as ++ '-' :: bs ++ '-' :: cs ++ '-' :: ds ++ '-' :: es) =
      ofDigits? (as ++ bs ++ cs ++ ds ++ es) := by
  have hparts : (as ++ '-' :: bs ++ '-' :: cs ++ '-' :: ds ++ '-' :: es).length = 36 := by
    simp [ha, hb, hc, hd, he]
  unfold ofHyphenated?
  rw [if_pos ⟨hparts, by simp [ha],
    by simp [List.getElem?_append, ha, hb], by simp [List.getElem?_append, ha, hb, hc],
    by simp [List.getElem?_append, ha, hb, hc, hd]⟩]
  congr 1
  simp [List.drop_append, List.drop_eq_nil_of_le, ha, hb, hc, hd]

/-- The text of an identifier is read as that identifier. -/
theorem ofText_text (id : TaskId) : ofText? id.text = some id := by
  have hlength : id.chars.length = 36 := by simp [chars]
  have hvalue : id.bits.toNat % 16 ^ 32 = id.bits.toNat := Nat.mod_eq_of_lt id.bits.isLt
  unfold ofText? text ofChars?
  rw [String.toList_ofList, if_neg (by omega), if_pos hlength, chars,
    ofHyphenated_groups (by simp) (by simp) (by simp) (by simp) (by simp), groups_eq]
  unfold ofDigits?
  rw [if_pos (by simp), hexNumber_hexPlaces, hvalue]
  simp

theorem text_inj {a b : TaskId} : a.text = b.text ↔ a = b := by
  constructor
  · intro h
    have hread := congrArg ofText? h
    rw [ofText_text, ofText_text] at hread
    exact Option.some.inj hread
  · intro h
    rw [h]

/-- One more group in front decides the order before the groups behind it. -/
theorem group_lt_iff (high low m n : Nat) :
    (m / 16 ^ low % 16 ^ high < n / 16 ^ low % 16 ^ high ∨
        (m / 16 ^ low % 16 ^ high = n / 16 ^ low % 16 ^ high ∧ m % 16 ^ low < n % 16 ^ low)) ↔
      m % 16 ^ (low + high) < n % 16 ^ (low + high) := by
  have hpos : 0 < 16 ^ low := Nat.pow_pos (by omega)
  rw [Decimal.mul_add_lt_iff (Nat.mod_lt m hpos) (Nat.mod_lt n hpos), Nat.pow_add, Nat.mod_mul,
    Nat.mod_mul]

/-- Texts are ordered as the identifiers. -/
theorem text_lt_text_iff (a b : TaskId) : a.text < b.text ↔ a.before b = true := by
  have ha : a.bits.toNat < 16 ^ 32 := a.bits.isLt
  have hb : b.bits.toNat < 16 ^ 32 := b.bits.isLt
  have hcons := positional_hexPlaces.write_cons_lt_iff (by omega)
  have hlast := positional_hexPlaces.write_lt_write_iff (by omega) 12
  rw [String.lt_iff, text, text, String.toList_ofList, String.toList_ofList]
  unfold chars before
  simp only [List.append_assoc, List.cons_append, hcons, hlast, decide_eq_true_eq]
  rw [group_lt_iff 4 12, group_lt_iff 4 16, group_lt_iff 4 20, group_lt_iff 8 24,
    Nat.mod_eq_of_lt ha, Nat.mod_eq_of_lt hb]

end TaskQueue.TaskId
