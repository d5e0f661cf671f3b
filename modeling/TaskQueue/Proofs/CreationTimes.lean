import Mathlib.Tactic
import TaskQueue.Store.Clock

/-!
# Times of creation

A clock may stand still, go back, or go on by less than a microsecond.  The times of creation that
it gives out increase all the same.  They are whole microseconds, and none is earlier than what the
clock has shown for it.
-/

namespace TaskQueue

namespace Time.Instant

variable {t u v : Instant}

theorem before_iff :
    t.before u = true ↔ t.seconds < u.seconds ∨ (t.seconds = u.seconds ∧ t.nanos < u.nanos) := by
  unfold before
  rw [decide_eq_true_eq]

theorem before_trans (htu : t.before u = true) (huv : u.before v = true) : t.before v = true := by
  rw [before_iff] at *
  omega

theorem not_before_self (t : Instant) : t.before t = false := by
  rw [← Bool.not_eq_true, before_iff]
  omega

/-- What comes after an instant does not come before one that is no later than the instant. -/
theorem not_before_of_before (htu : t.before u = false) (htv : t.before v = true) :
    v.before u = false := by
  rw [← Bool.not_eq_true, before_iff] at htu ⊢
  rw [before_iff] at htv
  omega

theorem before_nextMicrosecond (t : Instant) : t.before t.nextMicrosecond = true := by
  rw [before_iff]
  unfold nextMicrosecond
  split
  · exact Or.inr ⟨rfl, Nat.lt_add_of_pos_right (by decide)⟩
  · exact Or.inl (Int.lt_succ t.seconds)

theorem truncated_whole (t : Instant) : t.truncated.nanos % 1000 = 0 :=
  Nat.mul_mod_left _ _

theorem nextMicrosecond_whole (ht : t.nanos % 1000 = 0) : t.nextMicrosecond.nanos % 1000 = 0 := by
  unfold nextMicrosecond
  split
  · simpa using ht
  · show (t.nanos + 1000 - 10 ^ 9) % 1000 = 0
    omega

theorem truncated_nanos_lt (ht : t.nanos < 10 ^ 9) : t.truncated.nanos < 10 ^ 9 :=
  (Nat.div_mul_le_self t.nanos 1000).trans_lt ht

theorem nextMicrosecond_nanos_lt (ht : t.nanos < 10 ^ 9) : t.nextMicrosecond.nanos < 10 ^ 9 := by
  unfold nextMicrosecond
  split
  · assumption
  · show t.nanos + 1000 - 10 ^ 9 < 10 ^ 9
    omega

end Time.Instant

namespace Store

open Time (Instant)

namespace Clock

/-- The times of creation that are given out for what the clock shows. -/
def stamps (c : Clock) : List Instant → List Instant
  | [] => []
  | reading :: rest => (c.stamp reading).1 :: (c.stamp reading).2.stamps rest

variable {c : Clock} {reading : Instant} {readings : List Instant}

theorem last_stamp (c : Clock) (reading : Instant) :
    (c.stamp reading).2.last = some (c.stamp reading).1 :=
  rfl

/-- A time of creation is what the clock shows, or follows the one before. -/
theorem stamp_cases (c : Clock) (reading : Instant) :
    ((c.stamp reading).1 = reading.truncated ∧
        ∀ last, c.last = some last → last.before reading.truncated = true) ∨
      ∃ last, c.last = some last ∧ last.before reading.truncated = false ∧
        (c.stamp reading).1 = last.nextMicrosecond := by
  unfold stamp
  cases hlast : c.last with
  | none => exact Or.inl ⟨rfl, fun _ h => by cases h⟩
  | some last =>
      cases hbefore : last.before reading.truncated with
      | true =>
          left
          simp only [hbefore, if_true, true_and]
          rintro _ ⟨⟩
          exact hbefore
      | false =>
          right
          simp [hbefore]

theorem before_stamp {last : Instant} (hlast : c.last = some last) (reading : Instant) :
    last.before (c.stamp reading).1 = true := by
  rcases c.stamp_cases reading with ⟨hstamp, hafter⟩ | ⟨_, hsome, -, hstamp⟩
  · rw [hstamp]
    exact hafter last hlast
  · rw [hlast] at hsome
    cases hsome
    rw [hstamp]
    exact last.before_nextMicrosecond

theorem stamp_not_before (c : Clock) (reading : Instant) :
    (c.stamp reading).1.before reading.truncated = false := by
  rcases c.stamp_cases reading with ⟨hstamp, -⟩ | ⟨last, -, hnot, hstamp⟩
  · rw [hstamp]
    exact reading.truncated.not_before_self
  · rw [hstamp]
    exact Instant.not_before_of_before hnot last.before_nextMicrosecond

/-- A property of what the clock shows that a next microsecond keeps is one of every time of
creation. -/
theorem stamp_holds {P : Instant → Prop} (hnext : ∀ t, P t → P t.nextMicrosecond)
    (hreading : P reading.truncated) (hlast : ∀ last, c.last = some last → P last) :
    P (c.stamp reading).1 := by
  rcases c.stamp_cases reading with ⟨hstamp, -⟩ | ⟨last, hsome, -, hstamp⟩
  · rw [hstamp]
    exact hreading
  · rw [hstamp]
    exact hnext last (hlast last hsome)

theorem stamps_after {last : Instant} (hlast : c.last = some last) :
    ∀ t ∈ c.stamps readings, last.before t = true := by
  induction readings generalizing c last with
  | nil => exact List.forall_mem_nil _
  | cons reading rest ih =>
      have hbefore := before_stamp hlast reading
      refine List.forall_mem_cons.2 ⟨hbefore, ?_⟩
      intro t ht
      exact Instant.before_trans hbefore (ih (c.last_stamp reading) t ht)

theorem pairwise_stamps (c : Clock) (readings : List Instant) :
    (c.stamps readings).Pairwise fun t u => t.before u = true := by
  induction readings generalizing c with
  | nil => exact .nil
  | cons reading rest ih => exact .cons (stamps_after (c.last_stamp reading)) (ih _)

theorem stamps_current (c : Clock) (readings : List Instant) :
    List.Forall₂ (fun reading t => t.before reading.truncated = false) readings
      (c.stamps readings) := by
  induction readings generalizing c with
  | nil => exact .nil
  | cons reading rest ih => exact .cons (c.stamp_not_before reading) (ih _)

theorem stamps_hold {P : Instant → Prop} (hnext : ∀ t, P t → P t.nextMicrosecond)
    (hreadings : ∀ reading ∈ readings, P reading.truncated)
    (hlast : ∀ last, c.last = some last → P last) : ∀ t ∈ c.stamps readings, P t := by
  induction readings generalizing c with
  | nil => exact List.forall_mem_nil _
  | cons reading rest ih =>
      obtain ⟨hreading, hrest⟩ := List.forall_mem_cons.1 hreadings
      have hstamp := stamp_holds hnext hreading hlast
      refine List.forall_mem_cons.2 ⟨hstamp, ih hrest ?_⟩
      rintro _ ⟨⟩
      exact hstamp

end Clock

/-- Times of creation that increase, in whole microseconds, none of them before its own reading. -/
structure Increasing (readings times : List Instant) : Prop where
  increasing : times.Pairwise fun t u => t.before u = true
  whole : ∀ t ∈ times, t.nanos % 1000 = 0
  current : List.Forall₂ (fun reading t => t.before reading.truncated = false) readings times

theorem Clock.increasing_stamps {c : Clock}
    (hlast : ∀ last, c.last = some last → last.nanos % 1000 = 0) (readings : List Instant) :
    Increasing readings (c.stamps readings) :=
  ⟨c.pairwise_stamps readings,
    stamps_hold (P := fun t => t.nanos % 1000 = 0) (fun _ => Instant.nextMicrosecond_whole)
      (fun reading _ => reading.truncated_whole) hlast,
    c.stamps_current readings⟩

end Store

end TaskQueue
