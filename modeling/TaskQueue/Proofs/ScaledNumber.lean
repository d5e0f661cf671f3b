import Mathlib.Tactic
import TaskQueue.Proofs.BinaryRounding
import TaskQueue.Proofs.JsonTokens

/-!
# Numerals in the finite range

The number of a numeral is none only if it is too large: a quotient by a power of ten stays in the
finite range, and the two roundings of a product add less than the room that three last places
leave below the bound.  A number that is read is a whole number of 64 bits or a finite one.
-/

namespace TaskQueue.Json

open Decimal (Magnitude topPlace pow_le_topPlace ten_pow_enclose)
open Decimal.Magnitude

/-- Three last places below the greatest finite number, and half of one. -/
def safeBound : ℚ :=
  (2 ^ 53 - 7 / 2) * topPlace

namespace Numeral

/-! ## Powers of ten -/

theorem exists_power {n : Nat} (hn : n ≤ 308) :
    ∃ p, power? n = some p ∧ p.value * (2 ^ 53 - 1) ≤ 10 ^ n * 2 ^ 53 ∧
      10 ^ n * 2 ^ 53 ≤ p.value * (2 ^ 53 + 1) := by
  have hcast : (((10 ^ n : ℕ) : ℚ) / (1 : ℕ)) = 10 ^ n := by push_cast; rw [div_one]
  have hone : (1 : ℚ) ≤ 10 ^ n := one_le_pow₀ (by norm_num)
  have hsmall : (10 : ℚ) ^ n < (2 ^ 53 - 1) * topPlace := by
    have hmost : (10 : ℚ) ^ n ≤ 10 ^ 308 := pow_le_pow_right₀ (by norm_num) hn
    have hroom := ten_pow_enclose.2
    have htop := pow_le_topPlace
    generalize (10 : ℚ) ^ 308 = t at *
    linarith
  rw [← hcast] at hone hsmall
  obtain ⟨p, hp⟩ := exists_ofFraction one_pos hsmall
  have hnear := ofFraction_relative one_pos hone hp
  rw [hcast] at hnear
  exact ⟨p, hp, hnear⟩

theorem two_le_power {n : Nat} (hn : 0 < n) {p : Magnitude}
    (hp : (10 : ℚ) ^ n * 2 ^ 53 ≤ p.value * (2 ^ 53 + 1)) : 2 ≤ p.value := by
  have hten : (10 : ℚ) ^ 1 ≤ 10 ^ n := pow_le_pow_right₀ (by norm_num) hn
  linarith

theorem exists_divide {n : Nat} (hn : 0 < n) {a : Magnitude} (ha : a.IsFinite) :
    ∃ b, divide? a n = some b := by
  induction n using Nat.strongRecOn generalizing a with
  | ind n ih =>
      rw [divide?]
      split
      · rename_i hle
        obtain ⟨p, hp, -, hlarge⟩ := exists_power hle
        obtain ⟨b, hb, -⟩ := exists_over ha (two_le_power hn hlarge)
        exact ⟨b, by rw [hp, Option.bind_some, hb]⟩
      split
      · exact ⟨a, rfl⟩
      · obtain ⟨p, hp, -, hlarge⟩ := exists_power (n := 308) (le_refl _)
        obtain ⟨b, hb, hfinite⟩ := exists_over ha (two_le_power (by omega) hlarge)
        obtain ⟨c, hc⟩ := ih (n - 308) (by omega) (by omega) hfinite
        exact ⟨c, by rw [hp, Option.bind_some, hb, Option.bind_some, hc]⟩

/-! ## Scaling -/

theorem exists_significand {s : Nat} (hs : s < 2 ^ 64) :
    ∃ a, ofFraction? s 1 = some a ∧ a.IsFinite ∧ a.value * (2 ^ 53 - 1) ≤ s * 2 ^ 53 := by
  have hcast : ((s : ℚ) / (1 : ℕ)) = s := by push_cast; rw [div_one]
  have hsq : (s : ℚ) < 2 ^ 64 := by exact_mod_cast hs
  have hsmall : ((s : ℚ) / (1 : ℕ)) < (2 ^ 53 - 1) * topPlace := by
    have htop := pow_le_topPlace
    rw [hcast]
    linarith
  obtain ⟨a, ha⟩ := exists_ofFraction one_pos hsmall
  refine ⟨a, ha, isFinite_of_ofFraction one_pos ha, ?_⟩
  rcases Nat.eq_zero_or_pos s with rfl | hpos
  · rw [ofFraction_zero, Option.some.injEq] at ha
    rw [← ha]
    simp [value, zero]
  · have hone : (1 : ℚ) ≤ (s : ℚ) / (1 : ℕ) := by
      rw [hcast]
      exact_mod_cast hpos
    have hnear := (ofFraction_relative one_pos hone ha).1
    rwa [hcast] at hnear

/-- Powers of ten beyond the finite range exceed the bound. -/
theorem le_of_pow_le {n : Nat} (h : (10 : ℚ) ^ n ≤ safeBound) : n ≤ 308 := by
  by_contra hlarge
  have hpow : (10 : ℚ) ^ 309 ≤ 10 ^ n := pow_le_pow_right₀ (by norm_num) (by omega)
  have hleast := ten_pow_enclose.1
  have htop := pow_le_topPlace
  rw [pow_succ] at hpow
  unfold safeBound at h
  generalize (10 : ℚ) ^ 308 = t at *
  linarith

/-- A significand that is scaled to no more than the safe bound is rounded to a finite number. -/
theorem exists_scale {s : Nat} (hs : s < 2 ^ 64) {k : Int} (hbound : (s : ℚ) * 10 ^ k ≤ safeBound) :
    ∃ a, scale? s k = some a := by
  obtain ⟨a, ha, hfinite, hvalue⟩ := exists_significand hs
  unfold scale?
  rw [ha, Option.bind_some]
  cases k with
  | negSucc n => exact exists_divide (Nat.succ_pos n) hfinite
  | ofNat n =>
      rw [Int.ofNat_eq_natCast, zpow_natCast] at hbound
      simp only
      have htop := pow_le_topPlace
      split
      · rename_i hlarge
        rcases Nat.eq_zero_or_pos s with rfl | hpos
        · exact ⟨a, rfl⟩
        · have hone : (1 : ℚ) ≤ s := by exact_mod_cast hpos
          have hmul : (10 : ℚ) ^ n ≤ s * 10 ^ n := le_mul_of_one_le_left (by positivity) hone
          have hn := le_of_pow_le (hmul.trans hbound)
          omega
      · rename_i hle
        obtain ⟨p, hp, hpower, -⟩ := exists_power (Nat.not_lt.1 hle)
        rw [hp, Option.bind_some]
        apply exists_times
        have hcoarse : a.value * p.value * (2 ^ 53 - 1) ^ 2 ≤ s * 10 ^ n * (2 ^ 53) ^ 2 := by
          calc a.value * p.value * (2 ^ 53 - 1) ^ 2
              = a.value * (2 ^ 53 - 1) * (p.value * (2 ^ 53 - 1)) := by ring
            _ ≤ (s : ℚ) * 2 ^ 53 * (10 ^ n * 2 ^ 53) := by
                apply mul_le_mul hvalue hpower _ (by positivity)
                exact mul_nonneg p.value_nonneg (by norm_num)
            _ = (s : ℚ) * 10 ^ n * (2 ^ 53) ^ 2 := by ring
        unfold safeBound at hbound
        linarith

theorem safeBound_large : 2 ^ 64 ≤ safeBound := by
  have htop := pow_le_topPlace
  unfold safeBound
  linarith

/-- A significand that is not scaled up stays in the finite range. -/
theorem exists_scale_down {s : Nat} (hs : s < 2 ^ 64) {k : Int} (hk : k ≤ 0) :
    ∃ a, scale? s k = some a := by
  apply exists_scale hs
  have hsq : (s : ℚ) < 2 ^ 64 := by exact_mod_cast hs
  have hone : (10 : ℚ) ^ k ≤ 1 := zpow_le_one_of_nonpos₀ (by norm_num) hk
  calc (s : ℚ) * 10 ^ k ≤ s * 1 := by gcongr
    _ ≤ safeBound := by linarith [safeBound_large]

/-! ## Digits of a significand -/

theorem mul_pow_le_foldl (s : Nat) (ds : List Char) :
    s * 10 ^ ds.length ≤ ds.foldl (fun n c => 10 * n + Decimal.digitValue c) s := by
  induction ds generalizing s with
  | nil => simp
  | cons d ds ih =>
      calc s * 10 ^ (d :: ds).length = 10 * s * 10 ^ ds.length := by
            rw [List.length_cons, pow_succ]
            ring
        _ ≤ (10 * s + Decimal.digitValue d) * 10 ^ ds.length :=
            Nat.mul_le_mul_right _ (Nat.le_add_right _ _)
        _ ≤ _ := ih _

/-- The digits taken in fit 64 bits, and with zeros for the others they stand for no more than all
digits. -/
theorem accumulate_le {s n : Nat} {ds unread : List Char} (hs : s < 2 ^ 64)
    (h : accumulate s ds = (n, unread)) :
    n < 2 ^ 64 ∧ unread.length ≤ ds.length ∧
      n * 10 ^ unread.length ≤ ds.foldl (fun n c => 10 * n + Decimal.digitValue c) s := by
  induction ds generalizing s with
  | nil =>
      cases h
      exact ⟨hs, le_refl _, by simp⟩
  | cons d ds ih =>
      rw [accumulate] at h
      split at h
      · rename_i hnext
        obtain ⟨hn, hlength, hle⟩ := ih hnext h
        exact ⟨hn, hlength.trans (Nat.le_succ _), hle⟩
      · -- The digit does not fit any more, so it and all after it count as zeros.
        cases h
        exact ⟨hs, le_refl _, mul_pow_le_foldl _ (d :: ds)⟩

theorem accumulate_of_value {ds : List Char} (h : Decimal.value ds < 2 ^ 64) :
    accumulate 0 ds = (Decimal.value ds, []) :=
  accumulate_eq h

/-- The exponent of the last digit that is taken in. -/
def shift (fraction unread : List Char) : Int :=
  -((fraction.length - unread.length : Nat) : Int)

/-! ## The number of a numeral -/

variable {negative : Bool} {whole fraction unread : List Char} {s : Nat}

theorem exists_number_plain (hwhole : Decimal.value whole < 2 ^ 64) :
    ∃ m, number? ⟨negative, whole, some fraction, none⟩ = some m := by
  rcases hread : accumulate (Decimal.value whole) fraction with ⟨s, unread⟩
  obtain ⟨hs, -, -⟩ := accumulate_le hwhole hread
  obtain ⟨a, ha⟩ := exists_scale_down hs (k := shift fraction unread) (by unfold shift; omega)
  refine ⟨real negative a, ?_⟩
  have hshift : (([] : List Char).length : Int) - ((fraction.length - unread.length : Nat) : Int) =
      shift fraction unread := by
    simp [shift]
  simp only [number?, accumulate_of_value hwhole, Option.getD_some, hread, hshift, ha,
    Option.map_some]

/-- A numeral with an exponent has a number if what its digits stand for is not too large. -/
theorem exists_number_scaled {places : Option (List Char)} {e : Int}
    (hplaces : places.getD [] = fraction) (hwhole : Decimal.value whole < 2 ^ 64)
    (hfirst : 10 ^ fraction.length ≤ Decimal.value (whole ++ fraction))
    (hbound : (Decimal.value (whole ++ fraction) : ℚ) * 10 ^ (e - fraction.length) ≤ safeBound) :
    ∃ m, number? ⟨negative, whole, places, some (decide (e < 0), Decimal.text e.natAbs)⟩ =
      some m := by
  rcases hread : accumulate (Decimal.value whole) fraction with ⟨s, unread⟩
  obtain ⟨hs, hlength, hle⟩ := accumulate_le hwhole hread
  have hle' : s * 10 ^ unread.length ≤ Decimal.value (whole ++ fraction) := by
    unfold Decimal.value
    rw [List.foldl_append]
    exact hle
  have hsmall : (s : ℚ) * 10 ^ (shift fraction unread + e) ≤ safeBound := by
    have hexponent : shift fraction unread + e = unread.length + (e - fraction.length) := by
      unfold shift
      omega
    rw [hexponent, zpow_add₀ (by norm_num), zpow_natCast, ← mul_assoc]
    refine le_trans ?_ hbound
    gcongr
    exact_mod_cast hle'
  obtain ⟨a, ha⟩ := exists_scale hs hsmall
  have hshift : (([] : List Char).length : Int) - ((fraction.length - unread.length : Nat) : Int) =
      shift fraction unread := by
    simp [shift]
  have hsigned : (if decide (e < 0) = true then shift fraction unread - (e.natAbs : Int)
      else shift fraction unread + (e.natAbs : Int)) = shift fraction unread + e := by
    rcases lt_or_ge e 0 with he | he
    · rw [if_pos (decide_eq_true he)]
      omega
    · rw [if_neg (by simpa using he)]
      omega
  have hexponent : ¬(maxExponent < e.natAbs ∧ decide (e < 0) = false) := by
    rintro ⟨hlarge, hsign⟩
    have he : 0 ≤ e := not_lt.1 (of_decide_eq_false hsign)
    obtain ⟨k, rfl⟩ := Int.eq_ofNat_of_zero_le he
    have hfirst' : (10 : ℚ) ^ fraction.length ≤ Decimal.value (whole ++ fraction) := by
      exact_mod_cast hfirst
    have hk : (10 : ℚ) ^ k ≤ safeBound := by
      refine le_trans ?_ hbound
      calc (10 : ℚ) ^ k = 10 ^ fraction.length * 10 ^ ((k : Int) - fraction.length) := by
            rw [← zpow_natCast, ← zpow_natCast, ← zpow_add₀ (by norm_num)]
            congr 1
            ring
        _ ≤ _ := by gcongr
    have hmost := le_of_pow_le hk
    unfold maxExponent at hlarge
    omega
  simp only [number?, accumulate_of_value hwhole, hplaces, hread, hshift, Decimal.value_text, hsigned,
    ha, Option.map_some]
  split
  · rename_i hlarge
    split
    · rename_i hminus
      exact absurd ⟨hlarge, hminus.2⟩ hexponent
    · exact ⟨_, rfl⟩
  · exact ⟨_, rfl⟩

/-! ## Numbers that are read -/

theorem bits_lt_of_over {a b c : Magnitude} {n : Nat} (hp : power? n = some b)
    (hc : a.over? b = some c) : c.bits < 2047 * 2 ^ 52 := by
  have hcast : (((10 ^ n : ℕ) : ℚ) / (1 : ℕ)) = 10 ^ n := by push_cast; rw [div_one]
  have hone : (1 : ℚ) ≤ 10 ^ n := one_le_pow₀ (by norm_num)
  have hlarge := (ofFraction_relative one_pos (hcast ▸ hone) hp).2
  have hpos : 0 < b.value := by
    rw [hcast] at hlarge
    linarith
  exact bits_lt (Nat.mul_pos a.fraction_snd_pos (b.fraction_fst_pos_iff.2 hpos)) hc

theorem bits_lt_of_divide {n : Nat} {a b : Magnitude} (ha : a.bits < 2047 * 2 ^ 52)
    (h : divide? a n = some b) : b.bits < 2047 * 2 ^ 52 := by
  induction n using Nat.strongRecOn generalizing a with
  | ind n ih =>
      rw [divide?] at h
      split at h
      · obtain ⟨p, hp, hb⟩ := Option.bind_eq_some_iff.1 h
        exact bits_lt_of_over hp hb
      split at h
      · cases h
        exact ha
      · obtain ⟨c, hc, hrest⟩ := Option.bind_eq_some_iff.1 h
        obtain ⟨p, hp, hover⟩ := Option.bind_eq_some_iff.1 hc
        exact ih (n - 308) (by omega) (bits_lt_of_over hp hover) hrest

theorem bits_lt_of_scale {k : Int} {a : Magnitude} (h : scale? s k = some a) :
    a.bits < 2047 * 2 ^ 52 := by
  obtain ⟨b, hb, hscale⟩ := Option.bind_eq_some_iff.1 h
  have hbits := bits_lt one_pos hb
  cases k with
  | negSucc n => exact bits_lt_of_divide hbits hscale
  | ofNat n =>
      simp only at hscale
      split at hscale
      · split at hscale
        · cases hscale
          exact hbits
        · cases hscale
      · obtain ⟨p, -, htimes⟩ := Option.bind_eq_some_iff.1 hscale
        exact bits_lt (Nat.mul_pos b.fraction_snd_pos p.fraction_snd_pos) htimes

end Numeral

/-- Whether a number fits 64 bits, or is a finite binary fraction. -/
def Number.IsValid : Number → Prop
  | .natural n => n < 2 ^ 64
  | .negative n => 0 < n ∧ n ≤ 2 ^ 63
  | .real bits => bits.toNat / 2 ^ 52 % 2 ^ 11 < 2047

namespace Numeral

theorem isValid_real (negative : Bool) {a : Magnitude} (ha : a.bits < 2047 * 2 ^ 52) :
    (real negative a).IsValid := by
  unfold real Number.IsValid
  simp only [UInt64.toNat_ofNat']
  split <;> omega

theorem isValid_number {n : Numeral} {m : Number} (h : number? n = some m) : m.IsValid := by
  obtain ⟨negative, whole, fraction, exponent⟩ := n
  unfold number? at h
  rcases hread : accumulate 0 whole with ⟨s, beyond⟩
  obtain ⟨hs, -, -⟩ := accumulate_le (by norm_num) hread
  simp only [hread] at h
  split at h
  · split at h
    · split at h
      · obtain ⟨a, ha, rfl⟩ := Option.map_eq_some_iff.1 h
        exact isValid_real true (bits_lt one_pos ha)
      · rename_i hrange
        cases h
        exact ⟨by omega, by omega⟩
    · cases h
      exact hs
  · split at h
    · obtain ⟨a, ha, rfl⟩ := Option.map_eq_some_iff.1 h
      exact isValid_real negative (bits_lt_of_scale ha)
    · split at h
      · split at h
        · cases h
        · cases h
          exact isValid_real negative (by decide)
      · obtain ⟨a, ha, rfl⟩ := Option.map_eq_some_iff.1 h
        exact isValid_real negative (bits_lt_of_scale ha)

end Numeral

end TaskQueue.Json
