import Mathlib.Tactic
import TaskQueue.Proofs.ByteOrder
import TaskQueue.Proofs.RowRoundTrip

/-!
# The order of stored times

A table sorts its rows by the bytes of two texts, the time of creation and the identifier.  That is
the order in which the tasks were created: stamps have one length, are read back as what they show,
and precede each other as the instants do.  What a stamp cuts off of an instant does not change on
which side of another stamp it lies.
-/

namespace TaskQueue

namespace Bytes

/-- Whether a pair of texts precedes another one, byte by byte, the first texts counting first. -/
def Precedes (p q : String × String) : Prop :=
  ofString p.1 < ofString q.1 ∨ (ofString p.1 = ofString q.1 ∧ ofString p.2 < ofString q.2)

theorem precedes_iff (p q : String × String) :
    Precedes p q ↔ p.1 < q.1 ∨ (p.1 = q.1 ∧ p.2 < q.2) := by
  unfold Precedes
  rw [ofString_lt_ofString_iff, ofString_lt_ofString_iff, ofString_inj]

end Bytes

namespace Time.Instant

open Decimal (places)

theorem Dated.stampable_truncated {t : Instant} (ht : t.Dated) : t.truncated.Stampable where
  year_nonneg := ht.year_nonneg
  year_lt := ht.year_lt
  whole := Nat.mul_mod_left _ _
  nanos := by
    have hnanos := ht.nanos
    unfold truncated
    dsimp only
    omega

theorem not_before_truncated (t : Instant) : t.before t.truncated = false := by
  unfold before truncated
  rw [decide_eq_false_iff_not]
  dsimp only
  omega

/-- No whole microsecond lies between an instant and what is left of it. -/
theorem truncated_before {t u : Instant} (hu : u.nanos % 1000 = 0) :
    t.truncated.before u = t.before u := by
  rw [Bool.eq_iff_iff]
  unfold before truncated
  rw [decide_eq_true_eq, decide_eq_true_eq]
  dsimp only
  omega

theorem truncated_mono {t u : Instant} (h : t.before u = true) :
    u.truncated.before t.truncated = false := by
  unfold before at h ⊢
  rw [decide_eq_true_eq] at h
  rw [decide_eq_false_iff_not]
  unfold truncated
  dsimp only
  omega

/-! ## The bytes of a stamp -/

theorem val_le_of_mem_places {count n : Nat} {c : Char} (hc : c ∈ places count n) :
    c.val ≤ 127 := by
  have hdigit := Decimal.isDigit_of_mem_places hc
  unfold Char.isDigit at hdigit
  simp only [Bool.and_eq_true, decide_eq_true_eq] at hdigit
  exact UInt32.le_trans hdigit.2 (by decide)

theorem val_le_of_mem_stamp {t : Instant} (ht : t.Dated) {c : Char} (hc : c ∈ t.stamp.toList) :
    c.val ≤ 127 := by
  rw [stamp, String.toList_ofList, stampChars_eq ht.year_nonneg ht.year_lt] at hc
  simp only [List.mem_append, List.mem_cons, List.not_mem_nil, or_false] at hc
  rcases hc with hc | rfl | hc | rfl | hc | rfl | hc | rfl | hc | rfl | hc | rfl | hc | rfl
  all_goals first | exact val_le_of_mem_places hc | decide

theorem length_stamp {t : Instant} (ht : t.Dated) : (Bytes.ofString t.stamp).length = 27 := by
  rw [Bytes.length_ofString fun _ => val_le_of_mem_stamp ht, stamp, String.toList_ofList,
    stampChars_eq ht.year_nonneg ht.year_lt]
  simp

end Time.Instant

namespace Store

open Time (Instant)

namespace Row

theorem instantOf_stamp_of_dated {t : Instant} (ht : t.Dated) :
    instantOf? t.stamp = some t.truncated := by
  rw [← Instant.stamp_truncated]
  exact instantOf_stamp ht.stampable_truncated

theorem before_iff_precedes (r s : Row) :
    r.before s = true ↔ Bytes.Precedes (r.createdAt, r.id) (s.createdAt, s.id) := by
  rw [Bytes.precedes_iff]
  exact decide_eq_true_iff

end Row

/-- Stamps are ordered as what they show of the instants. -/
theorem stamp_lt_iff {t u : Instant} (ht : t.Dated) (hu : u.Dated) :
    Bytes.ofString t.stamp < Bytes.ofString u.stamp ↔ t.truncated.before u.truncated = true := by
  rw [Bytes.ofString_lt_ofString_iff, ← Instant.stamp_truncated t, ← Instant.stamp_truncated u]
  exact Instant.stamp_lt_stamp_iff ht.stampable_truncated hu.stampable_truncated

/-- The order that a table sorts by is the order of time.  Stamps have one length and are read back,
texts of time and identifier precede each other byte by byte as times and identifiers do, which makes
the order of rows that of their tasks, and cutting an instant off does not move it past a stamp. -/
theorem rows_sort_by_time :
    (∀ t : Instant, t.Stampable →
        (Bytes.ofString t.stamp).length = 27 ∧ Row.instantOf? t.stamp = some t) ∧
      (∀ t u : Instant, t.Stampable → u.Stampable → ∀ a b : TaskId,
        Bytes.Precedes (t.stamp, a.text) (u.stamp, b.text) ↔
          t.before u = true ∨ (t = u ∧ a.before b = true)) ∧
      (∀ a b : Task, a.createdAt.Stampable → b.createdAt.Stampable →
        (Bytes.Precedes ((Row.ofTask a).createdAt, (Row.ofTask a).id)
            ((Row.ofTask b).createdAt, (Row.ofTask b).id) ↔ (Row.ofTask a).before (.ofTask b) = true) ∧
          (Row.ofTask a).before (.ofTask b) = a.before b) ∧
      (∀ t : Instant, t.Dated →
        Row.instantOf? t.stamp = some t.truncated ∧ t.before t.truncated = false ∧
          ∀ u : Instant, u.nanos % 1000 = 0 → t.truncated.before u = t.before u) ∧
      ∀ t u : Instant, t.Dated → u.Dated → t.before u = true →
        ¬Bytes.ofString u.stamp < Bytes.ofString t.stamp := by
  refine ⟨fun t ht => ⟨Instant.length_stamp ht.dated, Row.instantOf_stamp ht⟩, ?_, ?_, ?_, ?_⟩
  · intro t u ht hu a b
    rw [Bytes.precedes_iff, Instant.stamp_lt_stamp_iff ht hu, Row.stamp_inj ht hu,
      TaskId.text_lt_text_iff]
  · intro a b ha hb
    exact ⟨(Row.before_iff_precedes _ _).symm, Row.before_of_columns rfl rfl ha rfl rfl hb⟩
  · intro t ht
    exact ⟨Row.instantOf_stamp_of_dated ht, t.not_before_truncated,
      fun u hu => Instant.truncated_before hu⟩
  · intro t u ht hu hbefore
    rw [stamp_lt_iff hu ht, Instant.truncated_mono hbefore]
    exact Bool.false_ne_true

/-- A leap second lies between the second before it and the second after it, and a task of that
second whose identifier is the lower one comes first. -/
theorem rows_sort_by_time_leap :
    let before : Instant := ⟨1483228799, 999999000⟩
    let leap : Instant := ⟨1483228799, 1500000999⟩
    let after : Instant := ⟨1483228800, 0⟩
    leap.stamp = "2016-12-31T23:59:60.500000Z" ∧
      Row.instantOf? leap.stamp = some ⟨1483228799, 1500000000⟩ ∧
      Bytes.Precedes (before.stamp, TaskId.text ⟨2⟩) (leap.truncated.stamp, TaskId.text ⟨1⟩) ∧
      Bytes.Precedes (leap.truncated.stamp, TaskId.text ⟨1⟩)
        (leap.truncated.stamp, TaskId.text ⟨2⟩) ∧
      ¬Bytes.ofString after.stamp < Bytes.ofString leap.stamp := by
  intro before leap after
  obtain ⟨-, hpairs, -, hcut, hlater⟩ := rows_sort_by_time
  have hbefore : before.Stampable := by decide
  have hleap : leap.Dated := by decide
  have hafter : after.Dated := by decide
  refine ⟨by decide, (hcut leap hleap).1.trans (by decide), ?_, ?_,
    hlater leap after hleap hafter (by decide)⟩
  · exact (hpairs before _ hbefore hleap.stampable_truncated ⟨2⟩ ⟨1⟩).2 (by decide)
  · exact (hpairs _ _ hleap.stampable_truncated hleap.stampable_truncated ⟨1⟩ ⟨2⟩).2 (by decide)

end Store

end TaskQueue
