import Mathlib.Tactic
import TaskQueue.Decimal.Magnitude

/-!
# Rounding to binary64

A positive fraction is rounded to a number with a whole mantissa, or one of the least exponent, and
the distance is at most half of the last place.  So above the least exponent the relative error is
below `2 ^ -53`, a fraction that is small enough is not rounded to infinity, and a quotient by two
or more stays in the finite range.
-/

namespace TaskQueue.Decimal

theorem fraction_snd_pos (m : Nat) (e : Int) : 0 < (Quantity.fraction m e).2 := by
  unfold Quantity.fraction
  split
  · exact Nat.one_pos
  · exact Nat.two_pow_pos _

theorem fraction_eq (m : Nat) (e : Int) :
    ((Quantity.fraction m e).1 : ℚ) / (Quantity.fraction m e).2 = m * 2 ^ e := by
  unfold Quantity.fraction
  split
  · rename_i he
    obtain ⟨k, rfl⟩ := Int.eq_ofNat_of_zero_le he
    simp
  · rename_i he
    obtain ⟨k, rfl⟩ := Int.exists_eq_neg_ofNat (by omega : e ≤ 0)
    simp [div_eq_mul_inv]

/-- The distance to the nearest integer is at most a half. -/
theorem roundHalfEven_near (n : Nat) {d : Nat} (hd : 0 < d) :
    |(roundHalfEven n d : ℚ) - n / d| ≤ 1 / 2 := by
  have hdq : (0 : ℚ) < d := by exact_mod_cast hd
  have hsplit : (d : ℚ) * (n / d : ℕ) + (n % d : ℕ) = n := by exact_mod_cast Nat.div_add_mod n d
  have hx : (n : ℚ) / d = (n / d : ℕ) + (n % d : ℕ) / d := by
    rw [← hsplit]
    field_simp
  have hrest : n % d < d := Nat.mod_lt n hd
  unfold roundHalfEven
  simp only
  split
  · rename_i hlow
    have htwice : 2 * (n % d) ≤ d := by omega
    have hhalf : ((n % d : ℕ) : ℚ) / d ≤ 1 / 2 := by
      rw [div_le_div_iff₀ hdq two_pos]
      exact_mod_cast (by omega : n % d * 2 ≤ 1 * d)
    have hpos : (0 : ℚ) ≤ ((n % d : ℕ) : ℚ) / d := by positivity
    rw [hx, abs_le]
    constructor <;> linarith
  · rename_i hhigh
    have htwice : d ≤ 2 * (n % d) := by omega
    have hhalf : 1 / 2 ≤ ((n % d : ℕ) : ℚ) / d := by
      rw [div_le_div_iff₀ two_pos hdq]
      exact_mod_cast (by omega : 1 * d ≤ n % d * 2)
    have hone : ((n % d : ℕ) : ℚ) / d < 1 := by
      rw [div_lt_one hdq]
      exact_mod_cast hrest
    rw [hx, abs_le]
    push_cast
    constructor <;> linarith

/-- The mantissa nearest to a fraction in units of a power of two. -/
def mantissaAt (n d : Nat) (e : Int) : Nat :=
  if 0 ≤ e then roundHalfEven n (d * 2 ^ e.toNat) else roundHalfEven (n * 2 ^ (-e).toNat) d

theorem mantissaAt_near (n : Nat) {d : Nat} (hd : 0 < d) (e : Int) :
    |(mantissaAt n d e : ℚ) - n / d / 2 ^ e| ≤ 1 / 2 := by
  unfold mantissaAt
  split
  · rename_i he
    obtain ⟨k, rfl⟩ := Int.eq_ofNat_of_zero_le he
    have h := roundHalfEven_near n (Nat.mul_pos hd (Nat.two_pow_pos k))
    simpa [div_div] using h
  · rename_i he
    obtain ⟨k, rfl⟩ := Int.exists_eq_neg_ofNat (by omega : e ≤ 0)
    have h := roundHalfEven_near (n * 2 ^ k) hd
    simpa [div_mul_eq_mul_div] using h

/-- A number of the format next to `x`. -/
structure Nearest (x : ℚ) (m : Nat) (e : Int) : Prop where
  short : m < 2 ^ 53
  least : -1074 ≤ e
  full : e = -1074 ∨ 2 ^ 52 ≤ m
  near : |m * 2 ^ e - x| ≤ 2 ^ e / 2

theorem mantissaAt_scaled (n : Nat) {d : Nat} (hd : 0 < d) (e : Int) :
    |(mantissaAt n d e : ℚ) * 2 ^ e - n / d| ≤ 2 ^ e / 2 := by
  have hunit : (0 : ℚ) < 2 ^ e := by positivity
  have hscale : (mantissaAt n d e : ℚ) * 2 ^ e - n / d =
      (mantissaAt n d e - n / d / 2 ^ e) * 2 ^ e := by
    rw [sub_mul, div_mul_cancel₀ _ hunit.ne']
  calc |(mantissaAt n d e : ℚ) * 2 ^ e - n / d|
      = |(mantissaAt n d e : ℚ) - n / d / 2 ^ e| * 2 ^ e := by
        rw [hscale, abs_mul, abs_of_pos hunit]
    _ ≤ 1 / 2 * 2 ^ e := by
        gcongr
        exact mantissaAt_near n hd e
    _ = 2 ^ e / 2 := by ring

/-- The logarithms of a fraction enclose it within a factor of four. -/
theorem log2_enclose {n d : Nat} (hn : 0 < n) (hd : 0 < d) :
    (2 : ℚ) ^ 52 * 2 ^ ((n.log2 : Int) - d.log2 - 53) < n / d ∧
      (n : ℚ) / d < 2 ^ 54 * 2 ^ ((n.log2 : Int) - d.log2 - 53) := by
  have hdq : (0 : ℚ) < d := by exact_mod_cast hd
  have hnlow : (2 : ℚ) ^ n.log2 ≤ n := by exact_mod_cast Nat.log2_self_le hn.ne'
  have hnhigh : (n : ℚ) < 2 ^ (n.log2 + 1) := by exact_mod_cast Nat.lt_log2_self
  have hdlow : (2 : ℚ) ^ d.log2 ≤ d := by exact_mod_cast Nat.log2_self_le hd.ne'
  have hdhigh : (d : ℚ) < 2 ^ (d.log2 + 1) := by exact_mod_cast Nat.lt_log2_self
  have hscale : (2 : ℚ) ^ ((n.log2 : Int) - d.log2 - 53) = 2 ^ n.log2 / 2 ^ d.log2 / 2 ^ 53 := by
    rw [zpow_sub₀ two_ne_zero, zpow_sub₀ two_ne_zero]
    norm_cast
  have hpow : (0 : ℚ) < 2 ^ d.log2 := by positivity
  have hpown : (0 : ℚ) < 2 ^ n.log2 := by positivity
  rw [hscale]
  constructor
  · rw [lt_div_iff₀ hdq]
    calc (2 : ℚ) ^ 52 * (2 ^ n.log2 / 2 ^ d.log2 / 2 ^ 53) * d
        < 2 ^ 52 * (2 ^ n.log2 / 2 ^ d.log2 / 2 ^ 53) * 2 ^ (d.log2 + 1) := by gcongr
      _ = 2 ^ n.log2 := by
          rw [pow_succ]
          field_simp
          ring
      _ ≤ n := hnlow
  · rw [div_lt_iff₀ hdq]
    calc (n : ℚ) < 2 ^ (n.log2 + 1) := hnhigh
      _ = 2 ^ 54 * (2 ^ n.log2 / 2 ^ d.log2 / 2 ^ 53) * 2 ^ d.log2 := by
          rw [pow_succ]
          field_simp
      _ ≤ 2 ^ 54 * (2 ^ n.log2 / 2 ^ d.log2 / 2 ^ 53) * d := by gcongr

namespace BinaryFormat

variable (f : BinaryFormat)

/-- Where the mantissa of the greatest precision is looked for. -/
def closeExponent (n d : Nat) : Int :=
  max ((n.log2 : Int) - d.log2 - f.bits) f.least

/-- The mantissa that is kept and its exponent, one place coarser if the finer one is too long. -/
def normalized (n d : Nat) : Nat × Int :=
  let close := f.closeExponent n d
  let exponent := if mantissaAt n d close < 2 ^ f.bits then close else close + 1
  let m := mantissaAt n d exponent
  if m < 2 ^ f.bits then (m, exponent) else (m / 2, exponent + 1)

theorem round_eq {n : Nat} (hn : 0 < n) (d : Nat) :
    f.round false n d =
      let (m, e) := f.normalized n d
      if (Quantity.fraction m e).2 * 2 ^ f.bound ≤ (Quantity.fraction m e).1 then .infinite false
      else .finite false m e := by
  unfold round
  rw [if_neg hn.ne']
  rfl

end BinaryFormat

open BinaryFormat

theorem nearest_normalized {n d : Nat} (hn : 0 < n) (hd : 0 < d) :
    Nearest (n / d) (double.normalized n d).1 (double.normalized n d).2 := by
  have hscaled := mantissaAt_scaled n hd
  have hnear := mantissaAt_near n hd
  obtain ⟨hlow, hhigh⟩ := log2_enclose hn hd
  have hclose : -1074 ≤ double.closeExponent n d := le_max_right _ _
  have hguess : (n.log2 : Int) - d.log2 - 53 ≤ double.closeExponent n d := le_max_left _ _
  have hcases : double.closeExponent n d = (n.log2 : Int) - d.log2 - 53 ∨
      double.closeExponent n d = -1074 := max_choice _ _
  unfold normalized
  simp only [show double.bits = 53 from rfl]
  generalize double.closeExponent n d = close at *
  have hunit : (0 : ℚ) < 2 ^ close := by positivity
  -- In units of the finer place the fraction lies below `2 ^ 54`.
  have htop : (n : ℚ) / d / 2 ^ close < 2 ^ 54 := by
    rw [div_lt_iff₀ hunit]
    refine hhigh.trans_le ?_
    gcongr
    norm_num
  have hfull : close = -1074 ∨ (2 : ℚ) ^ 52 < n / d / 2 ^ close := by
    rcases hcases with h | h
    · rw [lt_div_iff₀ hunit, h]
      exact Or.inr hlow
    · exact Or.inl h
  by_cases hfine : mantissaAt n d close < 2 ^ 53
  · rw [if_pos hfine, if_pos hfine]
    refine ⟨hfine, hclose, hfull.imp_right fun h => ?_, hscaled close⟩
    have hm := (abs_le.1 (hnear close)).1
    have : (2 : ℚ) ^ 52 < (mantissaAt n d close : ℚ) + 1 := by linarith
    have : 2 ^ 52 < mantissaAt n d close + 1 := by exact_mod_cast this
    omega
  · rw [if_neg hfine]
    have hfineq : (2 : ℚ) ^ 53 ≤ mantissaAt n d close := by exact_mod_cast Nat.not_lt.1 hfine
    have hm := (abs_le.1 (hnear close)).2
    have hhalf : (n : ℚ) / d / 2 ^ (close + 1) = n / d / 2 ^ close / 2 := by
      rw [zpow_add_one₀ two_ne_zero, div_mul_eq_div_div]
    have hcoarse := abs_le.1 (hnear (close + 1))
    rw [hhalf] at hcoarse
    have hlong : 2 ^ 52 ≤ mantissaAt n d (close + 1) := by
      have : (2 : ℚ) ^ 52 < (mantissaAt n d (close + 1) : ℚ) + 1 := by linarith
      have : 2 ^ 52 < mantissaAt n d (close + 1) + 1 := by exact_mod_cast this
      omega
    split
    · rename_i hshort
      exact ⟨hshort, by omega, Or.inr hlong, hscaled (close + 1)⟩
    · rename_i hshort
      have hmost : mantissaAt n d (close + 1) = 2 ^ 53 := by
        have : (mantissaAt n d (close + 1) : ℚ) < 2 ^ 53 + 1 := by linarith
        have : mantissaAt n d (close + 1) < 2 ^ 53 + 1 := by exact_mod_cast this
        omega
      have h := hscaled (close + 1)
      rw [hmost] at h ⊢
      refine ⟨by norm_num, by omega, Or.inr (by norm_num), ?_⟩
      have hsame : ((2 ^ 53 / 2 : ℕ) : ℚ) * 2 ^ (close + 1 + 1) = (2 ^ 53 : ℕ) * 2 ^ (close + 1) := by
        rw [zpow_add_one₀ two_ne_zero (close + 1)]
        norm_num
        ring
      rw [hsame]
      refine h.trans ?_
      rw [zpow_add_one₀ two_ne_zero (close + 1)]
      have : (0 : ℚ) < 2 ^ (close + 1) := by positivity
      linarith

namespace Magnitude

def value (a : Magnitude) : ℚ :=
  a.mantissa * 2 ^ a.exponent

theorem value_eq (a : Magnitude) : a.value = a.fraction.1 / a.fraction.2 :=
  (fraction_eq a.mantissa a.exponent).symm

theorem le_fraction_iff (bound m : Nat) (e : Int) :
    (Quantity.fraction m e).2 * 2 ^ bound ≤ (Quantity.fraction m e).1 ↔
      (2 : ℚ) ^ bound ≤ (Magnitude.mk m e).value := by
  have hpos : (0 : ℚ) < (Quantity.fraction m e).2 := by exact_mod_cast fraction_snd_pos m e
  rw [value, ← fraction_eq, le_div_iff₀ hpos, mul_comm]
  exact_mod_cast Iff.rfl

theorem ofFraction_cases {n d : Nat} (hn : 0 < n) (hd : 0 < d) :
    ∃ a : Magnitude, Nearest (n / d) a.mantissa a.exponent ∧
      ((a.value < 2 ^ double.bound ∧ ofFraction? n d = some a) ∨
        (2 ^ double.bound ≤ a.value ∧ ofFraction? n d = none)) := by
  have hround := round_eq double hn d
  refine ⟨⟨(double.normalized n d).1, (double.normalized n d).2⟩, nearest_normalized hn hd, ?_⟩
  generalize double.normalized n d = p at *
  obtain ⟨m, e⟩ := p
  simp only [le_fraction_iff] at hround
  unfold ofFraction?
  by_cases hlarge : (2 : ℚ) ^ double.bound ≤ (Magnitude.mk m e).value
  · rw [hround, if_pos hlarge]
    exact Or.inr ⟨hlarge, rfl⟩
  · rw [hround, if_neg hlarge]
    exact Or.inl ⟨not_le.1 hlarge, rfl⟩

end Magnitude

/-! ## The relative error -/

section

variable {x : ℚ} {m : Nat} {e : Int}

theorem Nearest.le_scaled (h : Nearest x m e) (hfull : 2 ^ 52 ≤ m) :
    (m * 2 ^ e : ℚ) * (2 ^ 53 - 1) ≤ x * 2 ^ 53 := by
  have hunit : (0 : ℚ) < 2 ^ e := by positivity
  have hm : (2 : ℚ) ^ 52 ≤ m := by exact_mod_cast hfull
  have hnear := (abs_le.1 h.near).2
  have hmul : (2 : ℚ) ^ 52 * 2 ^ e ≤ m * 2 ^ e := by gcongr
  linarith

theorem Nearest.scaled_le (h : Nearest x m e) (hfull : 2 ^ 52 ≤ m) :
    x * 2 ^ 53 ≤ (m * 2 ^ e : ℚ) * (2 ^ 53 + 1) := by
  have hunit : (0 : ℚ) < 2 ^ e := by positivity
  have hm : (2 : ℚ) ^ 52 ≤ m := by exact_mod_cast hfull
  have hnear := (abs_le.1 h.near).1
  have hmul : (2 : ℚ) ^ 52 * 2 ^ e ≤ m * 2 ^ e := by gcongr
  linarith

theorem Nearest.value_lt_one (h : Nearest x m e) (he : e = -1074) : (m * 2 ^ e : ℚ) < 1 / 2 := by
  have hm : (m : ℚ) < 2 ^ 53 := by exact_mod_cast h.short
  have hunit : (0 : ℚ) < 2 ^ (-1074 : Int) := by positivity
  have hsmall : (2 : ℚ) ^ (-1074 : Int) ≤ 2 ^ (-54 : Int) := by
    gcongr <;> norm_num
  rw [he]
  calc (m * 2 ^ (-1074 : Int) : ℚ) < 2 ^ 53 * 2 ^ (-1074 : Int) := by gcongr
    _ ≤ 2 ^ 53 * 2 ^ (-54 : Int) := by gcongr
    _ = 1 / 2 := by norm_num

end

/-- The last place of the greatest finite numbers. -/
@[irreducible]
def topPlace : ℚ :=
  2 ^ (971 : Int)

theorem bound_eq : (2 : ℚ) ^ double.bound = 2 ^ 53 * topPlace := by
  rw [topPlace, ← zpow_natCast, ← zpow_natCast, ← zpow_add₀ two_ne_zero]
  rfl

theorem pow_le_topPlace : 2 ^ 64 ≤ topPlace := by
  rw [topPlace, ← zpow_natCast]
  exact zpow_le_zpow_right₀ one_le_two (by norm_num)

/-- The greatest power of ten below the bound. -/
theorem ten_pow_enclose : 2 ^ 51 * topPlace ≤ 10 ^ 308 ∧ 10 ^ 308 * 4 ≤ 9 * (2 ^ 51 * topPlace) := by
  have hsquare : 2 ^ 51 * topPlace = (2 ^ 255 * 2 ^ 256) ^ 2 := by
    rw [topPlace, ← pow_add, ← pow_mul, ← zpow_natCast, ← zpow_natCast, ← zpow_add₀ two_ne_zero]
    rfl
  have hten : (10 : ℚ) ^ 308 = (10 ^ 154) ^ 2 := by rw [← pow_mul]
  have hpos : (0 : ℚ) < 2 ^ 255 * 2 ^ 256 := by positivity
  have hlow : (2 : ℚ) ^ 255 * 2 ^ 256 ≤ 10 ^ 154 := by norm_num
  have hhigh : (10 : ℚ) ^ 154 * 2 ≤ 3 * (2 ^ 255 * 2 ^ 256) := by norm_num
  rw [hsquare, hten]
  generalize (2 : ℚ) ^ 255 * 2 ^ 256 = b at *
  generalize (10 : ℚ) ^ 154 = a at *
  exact ⟨pow_le_pow_left₀ hpos.le hlow 2, by nlinarith⟩

/-! ## Finite results -/

namespace Magnitude

def IsFinite (a : Magnitude) : Prop :=
  a.value < 2 ^ double.bound

theorem fraction_snd_pos (a : Magnitude) : 0 < a.fraction.2 :=
  Decimal.fraction_snd_pos a.mantissa a.exponent

theorem value_nonneg (a : Magnitude) : 0 ≤ a.value := by
  unfold value
  positivity

theorem fraction_fst_pos_iff (a : Magnitude) : 0 < a.fraction.1 ↔ 0 < a.value := by
  have hpos : (0 : ℚ) < a.fraction.2 := by exact_mod_cast a.fraction_snd_pos
  rw [value_eq, div_pos_iff_of_pos_right hpos, Nat.cast_pos]

theorem isFinite_zero : zero.IsFinite := by
  simp [IsFinite, value, zero]

theorem ofFraction_zero (d : Nat) : ofFraction? 0 d = some zero :=
  rfl

theorem isFinite_of_ofFraction {n d : Nat} {a : Magnitude} (hd : 0 < d)
    (h : ofFraction? n d = some a) : a.IsFinite := by
  rcases Nat.eq_zero_or_pos n with rfl | hn
  · rw [ofFraction_zero, Option.some.injEq] at h
    exact h ▸ isFinite_zero
  · obtain ⟨b, -, ⟨hfinite, hb⟩ | ⟨-, hb⟩⟩ := ofFraction_cases hn hd
    · rw [h, Option.some.injEq] at hb
      exact hb ▸ hfinite
    · rw [h] at hb
      cases hb

/-- A fraction that is a little smaller than the bound is rounded to a finite number. -/
theorem exists_ofFraction {n d : Nat} (hd : 0 < d)
    (hsmall : (n : ℚ) / d < (2 ^ 53 - 1) * topPlace) : ∃ a, ofFraction? n d = some a := by
  rcases Nat.eq_zero_or_pos n with rfl | hn
  · exact ⟨zero, ofFraction_zero d⟩
  obtain ⟨a, hnear, ⟨-, ha⟩ | ⟨hlarge, -⟩⟩ := ofFraction_cases hn hd
  · exact ⟨a, ha⟩
  rw [bound_eq] at hlarge
  have hunit := pow_le_topPlace
  rcases hnear.full with he | hfull
  · have hone : a.value < 1 / 2 := hnear.value_lt_one he
    linarith
  · have hle : a.value * (2 ^ 53 - 1) ≤ n / d * 2 ^ 53 := hnear.le_scaled hfull
    linarith

/-- Fractions from one on are rounded with a small relative error. -/
theorem ofFraction_relative {n d : Nat} {a : Magnitude} (hd : 0 < d) (hone : (1 : ℚ) ≤ n / d)
    (h : ofFraction? n d = some a) :
    a.value * (2 ^ 53 - 1) ≤ n / d * 2 ^ 53 ∧ n / d * 2 ^ 53 ≤ a.value * (2 ^ 53 + 1) := by
  have hn : 0 < n := by
    rcases Nat.eq_zero_or_pos n with rfl | hn
    · norm_num at hone
    · exact hn
  obtain ⟨b, hnear, ⟨-, hb⟩ | ⟨-, hb⟩⟩ := ofFraction_cases hn hd
  · rw [h, Option.some.injEq] at hb
    subst hb
    have hfull : 2 ^ 52 ≤ a.mantissa := by
      rcases hnear.full with he | hfull
      · have hvalue := hnear.value_lt_one he
        have hdist := (abs_le.1 hnear.near).1
        have hunit : (2 : ℚ) ^ a.exponent ≤ 1 := zpow_le_one_of_nonpos₀ one_le_two (by omega)
        linarith
      · exact hfull
    exact ⟨hnear.le_scaled hfull, hnear.scaled_le hfull⟩
  · rw [h] at hb
    cases hb

theorem times_eq (a b : Magnitude) :
    ((a.fraction.1 * b.fraction.1 : ℕ) : ℚ) / (a.fraction.2 * b.fraction.2 : ℕ) =
      a.value * b.value := by
  rw [value_eq, value_eq]
  push_cast
  rw [div_mul_div_comm]

theorem over_eq (a b : Magnitude) :
    ((a.fraction.1 * b.fraction.2 : ℕ) : ℚ) / (a.fraction.2 * b.fraction.1 : ℕ) =
      a.value / b.value := by
  rw [value_eq, value_eq]
  push_cast
  rw [div_div_div_eq]

theorem exists_times {a b : Magnitude} (h : a.value * b.value < (2 ^ 53 - 1) * topPlace) :
    ∃ c, a.times? b = some c := by
  rw [← times_eq] at h
  exact exists_ofFraction (Nat.mul_pos a.fraction_snd_pos b.fraction_snd_pos) h

/-- A finite number can be divided by any number that is at least two. -/
theorem exists_over {a b : Magnitude} (ha : a.IsFinite) (hb : 2 ≤ b.value) :
    ∃ c, a.over? b = some c ∧ c.IsFinite := by
  have hpos : 0 < b.value := by linarith
  have hden : 0 < a.fraction.2 * b.fraction.1 :=
    Nat.mul_pos a.fraction_snd_pos (b.fraction_fst_pos_iff.2 hpos)
  have hsmall : a.value / b.value < (2 ^ 53 - 1) * topPlace := by
    have hfinite : a.value < 2 ^ 53 * topPlace := bound_eq ▸ ha
    have hunit := pow_le_topPlace
    have hhalf : a.value / b.value ≤ a.value / 2 :=
      div_le_div_of_nonneg_left a.value_nonneg two_pos hb
    linarith
  rw [← over_eq] at hsmall
  obtain ⟨c, hc⟩ := exists_ofFraction hden hsmall
  exact ⟨c, hc, isFinite_of_ofFraction hden hc⟩

theorem bits_lt {n d : Nat} {a : Magnitude} (hd : 0 < d) (h : ofFraction? n d = some a) :
    a.bits < 2047 * 2 ^ 52 := by
  have hfinite := isFinite_of_ofFraction hd h
  rcases Nat.eq_zero_or_pos n with rfl | hn
  · rw [ofFraction_zero, Option.some.injEq] at h
    rw [← h]
    decide
  obtain ⟨b, hnear, ⟨-, hb⟩ | ⟨-, hb⟩⟩ := ofFraction_cases hn hd
  swap
  · rw [h] at hb
    cases hb
  rw [h, Option.some.injEq] at hb
  subst hb
  have hshort := hnear.short
  unfold bits
  split
  · omega
  rename_i hlong
  have hlongq : (2 : ℚ) ^ 52 ≤ a.mantissa := by exact_mod_cast Nat.not_lt.1 hlong
  have hexponent : a.exponent < 972 := by
    rw [← zpow_lt_zpow_iff_right₀ (one_lt_two (α := ℚ))]
    have hvalue : 2 ^ 52 * (2 : ℚ) ^ a.exponent ≤ a.value := by
      unfold value
      gcongr
    have hplace : (2 : ℚ) ^ (972 : Int) = 2 * topPlace := by
      rw [topPlace, ← zpow_one_add₀ two_ne_zero]
      rfl
    have hbelow : a.value < 2 ^ 53 * topPlace := bound_eq ▸ hfinite
    rw [hplace]
    linarith
  omega

end Magnitude

end TaskQueue.Decimal
