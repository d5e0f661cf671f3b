import Mathlib.Algebra.Order.Floor.Semifield
import Mathlib.Tactic
import TaskQueue.Decimal.Shortest
import TaskQueue.Proofs.Digits

/-!
# The shortest decimal of a number

The grid seventeen places below the leading digit is finer than half of the rounding interval, so
one of its decimals lies there and the search ends with a decimal of the interval.  Trimmed zeros
change the digits but not the number.
-/

namespace TaskQueue.Decimal

theorem pow_length_text_le {n : Nat} (hn : 0 < n) : 10 ^ ((text n).length - 1) ≤ n := by
  induction n using Nat.strongRecOn with
  | ind n ih =>
      by_cases hlt : n < 10
      · rw [text_of_lt hlt]
        exact hn
      · have hge : 10 ≤ n := by omega
        have hrec := ih (n / 10) (by omega) (by omega)
        have hpos : 0 < (text (n / 10)).length := List.length_pos_of_ne_nil (text_ne_nil _)
        rw [text_of_le hge, List.length_append, List.length_singleton, Nat.add_sub_cancel]
        calc 10 ^ (text (n / 10)).length = 10 ^ ((text (n / 10)).length - 1) * 10 := by
              rw [← pow_succ, Nat.sub_add_cancel hpos]
          _ ≤ n / 10 * 10 := Nat.mul_le_mul_right 10 hrec
          _ ≤ n := Nat.div_mul_le_self n 10

theorem pow_toNat_div (base : Nat) (hbase : 0 < base) (k : Int) :
    (base : ℚ) ^ k.toNat / base ^ (-k).toNat = base ^ k := by
  have hne : (base : ℚ) ≠ 0 := by exact_mod_cast hbase.ne'
  rw [div_eq_mul_inv, ← zpow_natCast, ← zpow_natCast, ← zpow_neg, ← zpow_add₀ hne]
  congr 1
  omega

namespace Scaled

def value (s : Scaled) : ℚ :=
  s.digits * 10 ^ s.exponent

theorem go_trimmed (fuel : Nat) (s : Scaled) :
    (trimmed.go fuel s).value = s.value ∧ (s.digits ≠ 0 → (trimmed.go fuel s).digits ≠ 0) := by
  induction fuel generalizing s with
  | zero => exact ⟨rfl, id⟩
  | succ fuel ih =>
      rw [trimmed.go]
      split
      · rename_i h
        obtain ⟨hvalue, hdigits⟩ := ih ⟨s.digits / 10, s.exponent + 1⟩
        have hten : (s.digits : ℚ) = (s.digits / 10 : ℕ) * 10 := by
          exact_mod_cast (Nat.div_mul_cancel (Nat.dvd_of_mod_eq_zero h.1)).symm
        constructor
        · rw [hvalue, value, value, hten, zpow_add_one₀ (by norm_num)]
          ring
        · intro _
          apply hdigits
          simp only
          omega
      · exact ⟨rfl, id⟩

theorem value_trimmed (s : Scaled) : s.trimmed.value = s.value :=
  (go_trimmed 20 s).1

theorem trimmed_ne_zero {s : Scaled} (h : s.digits ≠ 0) : s.trimmed.digits ≠ 0 :=
  (go_trimmed 20 s).2 h

end Scaled

namespace Interval

variable {i : Interval} {d : Nat} {k : Int}

/-- An interval with the number between its ends. -/
structure Proper (i : Interval) : Prop where
  denominator : 0 < i.denominator
  low : 0 < i.low
  middle : i.low < i.middle

def lowest (i : Interval) : ℚ :=
  i.low / i.denominator

def center (i : Interval) : ℚ :=
  i.middle / i.denominator

def highest (i : Interval) : ℚ :=
  i.high / i.denominator

/-- Comparing with a decimal over a common denominator. -/
theorem point_le_iff (hi : 0 < i.denominator) (n : Nat) :
    (n * 10 ^ (-k).toNat ≤ d * 10 ^ k.toNat * i.denominator ↔
        (n : ℚ) / i.denominator ≤ d * 10 ^ k) ∧
      (d * 10 ^ k.toNat * i.denominator ≤ n * 10 ^ (-k).toNat ↔
        (d : ℚ) * 10 ^ k ≤ n / i.denominator) := by
  have hden : (0 : ℚ) < i.denominator := by exact_mod_cast hi
  have hunit : (0 : ℚ) < 10 ^ (-k).toNat := by positivity
  have hpower : (10 : ℚ) ^ k = 10 ^ k.toNat / 10 ^ (-k).toNat :=
    (pow_toNat_div 10 (by norm_num) k).symm
  rw [hpower, ← mul_div_assoc, div_le_div_iff₀ hden hunit, div_le_div_iff₀ hunit hden]
  exact ⟨by exact_mod_cast Iff.rfl, by exact_mod_cast Iff.rfl⟩

theorem le_of_holds (hi : i.Proper) (h : i.holds d k = true) :
    i.lowest ≤ d * 10 ^ k ∧ d * 10 ^ k ≤ i.highest := by
  obtain ⟨hlow, -⟩ := point_le_iff (d := d) (k := k) hi.denominator i.low
  obtain ⟨-, hhigh⟩ := point_le_iff (d := d) (k := k) hi.denominator i.high
  unfold lowest highest
  rw [← hlow, ← hhigh]
  unfold holds at h
  simp only at h
  split at h
  · exact of_decide_eq_true h
  · exact ⟨(of_decide_eq_true h).1.le, (of_decide_eq_true h).2.le⟩

theorem holds_of_lt (hi : i.Proper) (hlow : i.lowest < d * 10 ^ k) (hhigh : d * 10 ^ k < i.highest) :
    i.holds d k = true := by
  obtain ⟨-, hbelow⟩ := point_le_iff (d := d) (k := k) hi.denominator i.low
  obtain ⟨habove, -⟩ := point_le_iff (d := d) (k := k) hi.denominator i.high
  have hlow' := lt_of_not_ge (hbelow.not.2 (not_le.2 hlow))
  have hhigh' := lt_of_not_ge (habove.not.2 (not_le.2 hhigh))
  unfold holds
  simp only
  split
  · exact decide_eq_true ⟨hlow'.le, hhigh'.le⟩
  · exact decide_eq_true ⟨hlow', hhigh'⟩

theorem lowest_pos (hi : i.Proper) : 0 < i.lowest := by
  have hden : (0 : ℚ) < i.denominator := by exact_mod_cast hi.denominator
  have hlow : (0 : ℚ) < i.low := by exact_mod_cast hi.low
  unfold lowest
  positivity

theorem lowest_lt_center (hi : i.Proper) : i.lowest < i.center := by
  have hden : (0 : ℚ) < i.denominator := by exact_mod_cast hi.denominator
  have hmiddle : (i.low : ℚ) < i.middle := by exact_mod_cast hi.middle
  unfold lowest center
  gcongr

/-! ## One grid -/

theorem holds_of_onGrid {s : Scaled} (h : i.onGrid k = some s) : i.holds s.digits s.exponent = true := by
  unfold onGrid at h
  simp only at h
  split_ifs at h <;> cases h <;> simp_all

/-- The upper neighbour on a fine grid lies in the interval. -/
theorem exists_onGrid (hi : i.Proper) (hfine : i.center + 10 ^ k < i.highest) :
    ∃ s, i.onGrid k = some s := by
  have hden : (0 : ℚ) < i.denominator := by exact_mod_cast hi.denominator
  have hstep : (0 : ℚ) < 10 ^ k := by positivity
  have hpower : (10 : ℚ) ^ k.toNat / 10 ^ (-k).toNat = 10 ^ k := pow_toNat_div 10 (by norm_num) k
  have hratio : i.center / 10 ^ k =
      (i.middle * 10 ^ (-k).toNat : ℕ) / (i.denominator * 10 ^ k.toNat : ℕ) := by
    unfold center
    rw [← hpower]
    push_cast
    field_simp
  set below := i.middle * 10 ^ (-k).toNat / (i.denominator * 10 ^ k.toNat) with hbelow
  obtain ⟨hfloor, hceil⟩ : below * (10 : ℚ) ^ k ≤ i.center ∧ i.center < (below + 1) * (10 : ℚ) ^ k := by
    rw [← le_div_iff₀ hstep, ← div_lt_iff₀ hstep, hratio, hbelow, ← Nat.floor_div_eq_div (K := ℚ)]
    exact ⟨Nat.floor_le (by positivity), Nat.lt_floor_add_one _⟩
  have hupper : i.holds (below + 1) k = true := by
    apply holds_of_lt hi
    · push_cast
      exact (lowest_lt_center hi).trans hceil
    · push_cast
      linarith
  unfold onGrid
  simp only [← hbelow, hupper]
  split_ifs <;> exact ⟨_, rfl⟩

/-! ## The search -/

theorem holds_firstGrid (fuel : Nat) {j : Nat} (hj : j < fuel)
    (hgrid : ∃ s, i.onGrid (k - j) = some s) :
    i.holds (i.firstGrid fuel k).digits (i.firstGrid fuel k).exponent = true := by
  -- The induction carries that a hit lies ahead, `j` grids further.
  induction fuel generalizing k j with
  | zero => omega
  | succ fuel ih =>
      rw [firstGrid]
      split
      · rename_i s hs
        exact holds_of_onGrid hs
      · rename_i hnone
        cases j with
        | zero =>
            obtain ⟨s, hs⟩ := hgrid
            rw [Int.ofNat_zero, sub_zero, hnone] at hs
            cases hs
        | succ j =>
            apply ih (j := j) (by omega)
            rwa [show k - ((j + 1 : ℕ) : Int) = k - 1 - j by push_cast; ring] at hgrid

/-- The number of digits above some place tells the power of ten of the first one. -/
theorem pow_length_le_center (hi : i.Proper) (p : Nat)
    (hpos : 0 < i.middle * 10 ^ p / i.denominator) :
    (10 : ℚ) ^ (((text (i.middle * 10 ^ p / i.denominator)).length : Int) - (p + 1)) ≤ i.center := by
  have hden : (0 : ℚ) < i.denominator := by exact_mod_cast hi.denominator
  have hpow : (0 : ℚ) < 10 ^ p := by positivity
  have hfloor : ((i.middle * 10 ^ p / i.denominator : ℕ) : ℚ) ≤ i.center * 10 ^ p := by
    refine Nat.cast_div_le.trans (le_of_eq ?_)
    unfold center
    push_cast
    ring
  have hlength := pow_length_text_le hpos
  have hdigits : 0 < (text (i.middle * 10 ^ p / i.denominator)).length :=
    List.length_pos_of_ne_nil (text_ne_nil _)
  generalize i.middle * 10 ^ p / i.denominator = n at *
  have hsplit : ((text n).length : Int) - (p + 1) = ((text n).length - 1 : ℕ) - (p : Int) := by
    omega
  rw [hsplit, zpow_sub₀ (by norm_num), zpow_natCast, zpow_natCast, div_le_iff₀ hpow]
  refine le_trans ?_ hfloor
  exact_mod_cast hlength

end Interval

namespace Binary

variable {b : Binary}

def value (b : Binary) : ℚ :=
  b.mantissa * 2 ^ b.exponent

theorem proper_interval (hb : 0 < b.mantissa) : b.interval.Proper := by
  have hup : 0 < 2 ^ (b.exponent - 2).toNat := Nat.two_pow_pos _
  have hbelow : (if b.narrowBelow then 1 else 2) ≤ 2 ∧ 0 < (if b.narrowBelow then 1 else 2) := by
    split <;> decide
  constructor
  · exact Nat.two_pow_pos _
  · exact Nat.mul_pos (by omega) hup
  · exact Nat.mul_lt_mul_of_pos_right (by omega) hup

/-- The ends of the interval are at most half of the last place away. -/
theorem interval_eq (b : Binary) :
    b.interval.center = b.value ∧ b.interval.highest = b.value + 2 ^ b.exponent / 2 ∧
      b.value - 2 ^ b.exponent / 2 ≤ b.interval.lowest := by
  have hquarter : ((2 ^ (b.exponent - 2).toNat : ℕ) : ℚ) / (2 ^ (2 - b.exponent).toNat : ℕ) =
      2 ^ b.exponent / 4 := by
    have h := pow_toNat_div 2 two_pos (b.exponent - 2)
    rw [neg_sub, Nat.cast_ofNat, zpow_sub₀ two_ne_zero] at h
    push_cast
    rw [h]
    norm_num
  have hunit : (0 : ℚ) < 2 ^ b.exponent := by positivity
  unfold Interval.center Interval.highest Interval.lowest interval value
  simp only [Nat.cast_mul, mul_div_assoc, hquarter]
  refine ⟨by push_cast; ring, by push_cast; ring, ?_⟩
  have hbelow : (4 : ℚ) * b.mantissa - 2 ≤ (4 * b.mantissa - (if b.narrowBelow then 1 else 2) : ℕ) := by
    have h : (if b.narrowBelow then 1 else 2) ≤ 2 := by split <;> decide
    have hnat : 4 * b.mantissa ≤ (4 * b.mantissa - (if b.narrowBelow then 1 else 2)) + 2 := by omega
    have : ((4 * b.mantissa : ℕ) : ℚ) ≤
        ((4 * b.mantissa - (if b.narrowBelow then 1 else 2)) + 2 : ℕ) := by exact_mod_cast hnat
    push_cast at this ⊢
    linarith
  calc (b.mantissa : ℚ) * 2 ^ b.exponent - 2 ^ b.exponent / 2
      = (4 * b.mantissa - 2) * (2 ^ b.exponent / 4) := by ring
    _ ≤ _ := by gcongr

/-- Enough decimal places reach the first digit of the number. -/
theorem denominator_le (hb : 0 < b.mantissa) {p : Nat} (hp : (2 - b.exponent).toNat ≤ 3 * p) :
    b.interval.denominator ≤ b.interval.middle * 10 ^ p := by
  have hmiddle : 0 < b.interval.middle :=
    Nat.lt_of_le_of_lt (Nat.zero_le _) (proper_interval hb).middle
  calc b.interval.denominator ≤ 2 ^ (3 * p) := Nat.pow_le_pow_right two_pos hp
    _ = (2 ^ 3) ^ p := pow_mul 2 3 p
    _ ≤ 10 ^ p := Nat.pow_le_pow_left (by omega) p
    _ ≤ b.interval.middle * 10 ^ p := Nat.le_mul_of_pos_left _ hmiddle

theorem pow_leading_le (hb : 0 < b.mantissa) (he : -1074 ≤ b.exponent) :
    (10 : ℚ) ^ b.interval.leading ≤ b.value := by
  have hproper := proper_interval hb
  have hlarge := denominator_le (p := 400) hb (by omega)
  have h := Interval.pow_length_le_center hproper 400 (Nat.div_pos hlarge hproper.denominator)
  rw [(interval_eq b).1] at h
  unfold Interval.leading
  generalize (text (b.interval.middle * 10 ^ (400 : ℕ) / b.interval.denominator)).length = n at h ⊢
  exact h

/-- The shortest decimal of a positive number lies in the rounding interval of the number. -/
theorem shortest_near (hb : 0 < b.mantissa) (hshort : b.mantissa < 2 ^ 53) (he : -1074 ≤ b.exponent) :
    b.shortest.digits ≠ 0 ∧ |b.shortest.value - b.value| ≤ 2 ^ b.exponent / 2 := by
  have hproper := proper_interval hb
  obtain ⟨hcenter, hhighest, hlowest⟩ := interval_eq b
  have hunit : (0 : ℚ) < 2 ^ b.exponent := by positivity
  -- Seventeen places after the first digit a step of the grid is less than half of the last place.
  have hfine : b.interval.center + 10 ^ (b.interval.leading - (17 : ℕ)) < b.interval.highest := by
    have hlead := pow_leading_le hb he
    have hvalue : b.value < 2 ^ 53 * 2 ^ b.exponent := by
      unfold value
      gcongr
      exact_mod_cast hshort
    rw [hcenter, hhighest, zpow_sub₀ (by norm_num), zpow_natCast]
    have hgrid : (10 : ℚ) ^ b.interval.leading / 10 ^ 17 < 2 ^ b.exponent / 2 := by
      rw [div_lt_iff₀ (by norm_num)]
      linarith
    linarith
  have hholds := Interval.holds_firstGrid (k := b.interval.leading) 18 (j := 17) (by omega)
    (Interval.exists_onGrid hproper hfine)
  obtain ⟨hlow, hhigh⟩ := Interval.le_of_holds hproper hholds
  have hshortest : b.shortest = (b.interval.firstGrid 18 b.interval.leading).trimmed := by
    unfold shortest
    rw [if_neg hb.ne']
  rw [hshortest, Scaled.value_trimmed]
  generalize b.interval.firstGrid 18 b.interval.leading = s at *
  constructor
  · apply Scaled.trimmed_ne_zero
    intro hzero
    have hpos := Interval.lowest_pos hproper
    rw [hzero, Nat.cast_zero, zero_mul] at hlow
    linarith
  · have hvalue : s.value = s.digits * 10 ^ s.exponent := rfl
    rw [hvalue, abs_le]
    constructor <;> linarith

end Binary

end TaskQueue.Decimal
