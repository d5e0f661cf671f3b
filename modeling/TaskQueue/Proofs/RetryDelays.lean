import Mathlib.Tactic
import TaskQueue.Execution.Backoff

/-!
# Delays in exact nanoseconds

Durations are compared and multiplied part by part, in seconds and nanoseconds with a carry.  Over
their nanoseconds this is the comparison and the multiplication of natural numbers, and a product
fails exactly if no duration is as long.  So a delay is what its formula says for durations of any
length: where the product fails, it exceeds every longest delay.
-/

namespace TaskQueue

namespace Time.Duration

/-- The number of nanoseconds that durations stay below. -/
def totalBound : Nat :=
  2 ^ 64 * 10 ^ 9

theorem total_lt (d : Duration) : d.total < totalBound := by
  have hseconds := d.seconds_lt
  have hnanos := d.nanos_lt
  unfold total totalBound
  omega

theorem total_inj {a b : Duration} : a.total = b.total ↔ a = b := by
  constructor
  · intro h
    obtain ⟨s, n, hs, hn⟩ := a
    obtain ⟨t, m, ht, hm⟩ := b
    simp only [total] at h
    simp only [Duration.mk.injEq]
    omega
  · intro h
    rw [h]

theorem shorter_iff (a b : Duration) : a.shorter b = true ↔ a.total < b.total := by
  have ha := a.nanos_lt
  have hb := b.nanos_lt
  unfold shorter total
  rw [decide_eq_true_eq]
  omega

theorem total_shortest (a b : Duration) : (a.shortest b).total = min a.total b.total := by
  have hshorter := shorter_iff b a
  unfold shortest
  split
  · rename_i h
    have hlt := hshorter.1 h
    omega
  · rename_i h
    have hle : a.total ≤ b.total := by
      by_contra hlt
      exact h (hshorter.2 (by omega))
    omega

/-- The nanoseconds beyond a second are carried, and nothing else happens to them. -/
theorem total_of_make {seconds nanos : Nat} {d : Duration} (h : make? seconds nanos = some d) :
    d.total = seconds * 10 ^ 9 + nanos := by
  unfold make? at h
  split at h
  · cases h
    simp only [total]
    omega
  · cases h

theorem make_eq_none_iff (seconds nanos : Nat) :
    make? seconds nanos = none ↔ totalBound ≤ seconds * 10 ^ 9 + nanos := by
  unfold make? totalBound
  split
  · simp only [reduceCtorEq, false_iff]
    omega
  · simp only [true_iff]
    omega

theorem total_mul (d : Duration) (factor : Nat) :
    d.seconds * factor * 10 ^ 9 + d.nanos * factor = d.total * factor := by
  unfold total
  ring

/-- A multiple is exact. -/
theorem total_of_times {d product : Duration} {factor : Nat}
    (h : d.times? factor = some product) : product.total = d.total * factor := by
  rw [total_of_make h, total_mul]

/-- A multiple fails only if it is too long for a duration. -/
theorem times_eq_none_iff (d : Duration) (factor : Nat) :
    d.times? factor = none ↔ totalBound ≤ d.total * factor := by
  rw [times?, make_eq_none_iff, total_mul]

end Time.Duration

namespace Execution.RetryPolicy

open Time (Duration)

theorem total_delay (p : RetryPolicy) (failure : Nat) :
    (p.delay failure).total =
      min p.maxDelay.total (p.baseDelay.total * 2 ^ min failure maxDoublings) := by
  unfold delay
  rw [Duration.total_shortest]
  cases hproduct : p.baseDelay.times? (2 ^ min failure maxDoublings) with
  | none =>
      -- The product is longer than every duration, so the longest delay is the minimum.
      have hlong := (Duration.times_eq_none_iff _ _).1 hproduct
      have hmax := p.maxDelay.total_lt
      rw [Option.getD_none]
      omega
  | some product =>
      rw [Option.getD_some, Duration.total_of_times hproduct, min_comm]

theorem doublings_le (failure : Nat) : 2 ^ min failure maxDoublings ≤ 2 ^ maxDoublings :=
  Nat.pow_le_pow_right (by decide) (Nat.min_le_right failure maxDoublings)

/-- No intermediate number of a delay leaves the range of the words in which it is formed: the
factor has 32 bits, and the product of the nanoseconds 64. -/
theorem factor_fits (p : RetryPolicy) (failure : Nat) :
    2 ^ min failure maxDoublings < 2 ^ 32 ∧
      p.baseDelay.nanos * 2 ^ min failure maxDoublings < 2 ^ 64 := by
  have hfactor := doublings_le failure
  have hsmall : (2 : Nat) ^ maxDoublings = 64 := rfl
  have hnanos := p.baseDelay.nanos_lt
  constructor
  · omega
  · calc p.baseDelay.nanos * 2 ^ min failure maxDoublings
        ≤ p.baseDelay.nanos * 64 := Nat.mul_le_mul_left _ (by omega)
      _ < 2 ^ 64 := by omega

theorem total_delay_le (p : RetryPolicy) (failure : Nat) :
    (p.delay failure).total ≤ p.maxDelay.total := by
  rw [total_delay]
  exact Nat.min_le_left _ _

theorem monotone_total_delay (p : RetryPolicy) : Monotone fun failure => (p.delay failure).total := by
  intro f g hfg
  have hpow : 2 ^ min f maxDoublings ≤ 2 ^ min g maxDoublings :=
    Nat.pow_le_pow_right (by decide) (by omega)
  have hproduct := Nat.mul_le_mul_left p.baseDelay.total hpow
  simp only [total_delay]
  omega

theorem delay_of_le (p : RetryPolicy) {failure : Nat} (h : maxDoublings ≤ failure) :
    p.delay failure = p.delay maxDoublings := by
  apply Duration.total_inj.1
  rw [total_delay, total_delay, Nat.min_eq_right h, Nat.min_self]

/-- A delay is the base delay doubled with every failure, six times at most, or the longest delay if
that is shorter; in exact nanoseconds, and for durations of any length.  So it never exceeds the
longest delay, never gets shorter, and stays the same from the sixth failure on. -/
theorem delay_is_formula (p : RetryPolicy) :
    (∀ failure, (p.delay failure).total =
        min p.maxDelay.total (p.baseDelay.total * 2 ^ min failure 6)) ∧
      (∀ failure, 2 ^ min failure 6 < 2 ^ 32 ∧ p.baseDelay.nanos * 2 ^ min failure 6 < 2 ^ 64) ∧
      (∀ failure, (p.delay failure).total ≤ p.maxDelay.total) ∧
      (Monotone fun failure => (p.delay failure).total) ∧
      ∀ failure, 6 ≤ failure → p.delay failure = p.delay 6 :=
  ⟨p.total_delay, p.factor_fits, p.total_delay_le, p.monotone_total_delay,
    fun _ h => p.delay_of_le h⟩

/-- At the top of the range the sixth doubling is too long for a duration, the fifth is not. -/
theorem delay_is_formula_longest :
    let p : RetryPolicy :=
      ⟨⟨2 ^ 58, 10 ^ 9 - 1, by decide, by decide⟩, ⟨2 ^ 64 - 1, 10 ^ 9 - 1, by decide, by decide⟩,
        .zero⟩
    p.baseDelay.times? (2 ^ 6) = none ∧ p.delay 7 = p.delay 6 ∧
      (p.delay 6).total = p.maxDelay.total ∧
      (p.delay 5).total = (2 ^ 58 * 10 ^ 9 + (10 ^ 9 - 1)) * 2 ^ 5 := by
  intro p
  obtain ⟨hformula, -, -, -, hconstant⟩ := p.delay_is_formula
  refine ⟨by decide, hconstant 7 (by decide), ?_, ?_⟩
  · rw [hformula]
    decide
  · rw [hformula]
    decide

end Execution.RetryPolicy

end TaskQueue
