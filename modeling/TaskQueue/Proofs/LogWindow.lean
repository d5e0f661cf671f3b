import Mathlib.Tactic
import TaskQueue.Log.View
import TaskQueue.Proofs.Reconciliation

/-!
# The part of a log that is shown

A snapshot shows the lines of a log after some line up to another one, and so does the view of an
observer.  Additions to the log move the part that is shown towards the end.  An observer that is
brought up to date with a snapshot then sees everything after the earlier of the two starts, if no
line in between was dropped before it was seen; else it starts over where the snapshot starts.
-/

namespace TaskQueue.Log

variable {written lines : List String} {a b m n window : Nat} {s next : Snapshot} {v : View}

/-- The lines after number `a` up to number `n`. -/
def between (written : List String) (a n : Nat) : List String :=
  (written.take n).drop a

theorem length_between (hn : n ≤ written.length) : (between written a n).length = n - a := by
  unfold between
  rw [List.length_drop, List.length_take, Nat.min_eq_left hn]

theorem between_self (written : List String) (n : Nat) : between written n n = [] := by
  unfold between
  rw [List.drop_eq_nil_iff]
  exact List.length_take_le n written

theorem between_append_between (hab : a ≤ m) (hmn : m ≤ n) (hn : n ≤ written.length) :
    between written a m ++ between written m n = between written a n := by
  have hlength : (written.take m).length = m := List.length_take_of_le (hmn.trans hn)
  have hsplit : written.take n = written.take m ++ between written m n := by
    have htake : (written.take n).take m = written.take m := by
      rw [List.take_take, Nat.min_eq_left hmn]
    have h := List.take_append_drop m (written.take n)
    rw [htake] at h
    exact h.symm
  have hdrop : (written.take n).drop a = (written.take m).drop a ++ between written m n := by
    conv_lhs => rw [hsplit]
    rw [List.drop_append_of_le_length (by rw [hlength]; exact hab)]
  exact hdrop.symm

theorem between_suffix (hab : a ≤ b) : between written b n <:+ between written a n := by
  have hdrop : between written b n = (between written a n).drop (b - a) := by
    unfold between
    rw [List.drop_drop]
    congr 1
    omega
  rw [hdrop]
  exact List.drop_suffix _ _

theorem between_of_append (hn : n ≤ written.length) :
    between (written ++ lines) a n = between written a n := by
  unfold between
  rw [List.take_append_of_le_length hn]

theorem drop_between (hab : a ≤ m) :
    (between written a n).drop (m - a) = between written m n := by
  unfold between
  rw [List.drop_drop]
  congr 1
  omega

/-! ## Snapshots -/

/-- A snapshot that shows the lines of a log after number `a`. -/
structure Snapshot.Shows (s : Snapshot) (written : List String) (a : Nat) : Prop where
  seq_le : s.seq ≤ written.length
  start_le : a ≤ s.seq
  lines : s.lines = between written a s.seq

namespace Snapshot.Shows

theorem length (h : s.Shows written a) : s.lines.length = s.seq - a := by
  rw [h.lines, length_between h.seq_le]

theorem append (h : s.Shows written a) (lines : List String) : s.Shows (written ++ lines) a where
  seq_le := by
    rw [List.length_append]
    have hseq := h.seq_le
    omega
  start_le := h.start_le
  lines := by rw [h.lines, between_of_append h.seq_le]

theorem suffix (h : s.Shows written a) : s.lines <:+ written.take s.seq := by
  rw [h.lines]
  exact List.drop_suffix _ _

theorem empty (written : List String) : Snapshot.empty.Shows written 0 :=
  ⟨Nat.zero_le _, Nat.le_refl _, rfl⟩

/-- Lines that are added to what is shown up to the end move the start on, but not past them. -/
theorem push (h : s.Shows written a) (hseq : s.seq = written.length)
    (hstart : written ≠ [] → a < s.seq) (hpush : s.push? lines window = some next) :
    ∃ a', a ≤ a' ∧ next.Shows (written ++ lines) a' ∧ next.seq = (written ++ lines).length ∧
      (written ++ lines ≠ [] → a' < next.seq) := by
  unfold push? at hpush
  split at hpush
  · cases hpush
    have hall : s.lines ++ lines = between (written ++ lines) a (written ++ lines).length := by
      have ha : a ≤ written.length := hseq ▸ h.start_le
      unfold between
      rw [List.take_length, List.drop_append_of_le_length ha, h.lines, hseq]
      simp [between]
    have hlength : (s.lines ++ lines).length = s.seq - a + lines.length := by
      rw [List.length_append, h.length]
    have hsum : s.seq + lines.length = (written ++ lines).length := by
      rw [List.length_append, hseq]
    have hclamp : 1 ≤ clampWindow window := Nat.le_max_right _ _
    have hle := h.start_le
    refine ⟨a + ((s.lines ++ lines).length - clampWindow window), Nat.le_add_right _ _,
      ⟨hsum.le, ?_, ?_⟩, hsum, ?_⟩
    · show _ ≤ s.seq + lines.length
      omega
    · show newest (clampWindow window) (s.lines ++ lines) = between _ _ (s.seq + lines.length)
      unfold newest
      rw [hsum, hall]
      have hdrop := @drop_between (written ++ lines) a
        (a + ((s.lines ++ lines).length - clampWindow window)) (written ++ lines).length
        (Nat.le_add_right _ _)
      rw [← hall] at hdrop ⊢
      rwa [Nat.add_sub_cancel_left] at hdrop
    · intro hne
      show _ < s.seq + lines.length
      by_cases hw : written = []
      · have hlines : lines ≠ [] := by
          intro hlines
          exact hne (by rw [hw, hlines]; rfl)
        have hpos := List.length_pos_iff.2 hlines
        omega
      · have hlt := hstart hw
        omega
  · cases hpush

end Snapshot.Shows

/-- An addition is possible as long as the lines can be counted. -/
theorem Snapshot.push_isSome (h : s.seq + lines.length < counterBound) (window : Nat) :
    ∃ next, s.push? lines window = some next :=
  ⟨_, if_pos (Or.inr h)⟩

theorem Snapshot.seq_of_push (h : s.push? lines window = some next) :
    next.seq = s.seq + lines.length := by
  unfold push? at h
  split at h
  · cases h
    rfl
  · cases h

/-- Lines are dropped at the front only, whatever the window. -/
theorem Snapshot.length_le_of_push (h : s.push? lines window = some next) :
    next.lines.length ≤ s.lines.length + lines.length := by
  unfold push? at h
  split at h
  · cases h
    simp [newest]
  · cases h

/-! ## Views -/

/-- A view that shows the lines of a log after number `a`. -/
structure View.Follows (v : View) (written : List String) (a : Nat) : Prop where
  seen_le : v.seen ≤ written.length
  start_le : a ≤ v.seen
  lines : v.lines = between written a v.seen

namespace View.Follows

theorem empty (written : List String) : View.empty.Follows written 0 :=
  ⟨Nat.zero_le _, Nat.le_refl _, rfl⟩

theorem append (h : v.Follows written a) (lines : List String) :
    v.Follows (written ++ lines) a where
  seen_le := by
    rw [List.length_append]
    have hseen := h.seen_le
    omega
  start_le := h.start_le
  lines := by rw [h.lines, between_of_append h.seen_le]

theorem suffix (h : v.Follows written a) : v.lines <:+ written.take v.seen := by
  rw [h.lines]
  exact List.drop_suffix _ _

end View.Follows

theorem View.update_of_seq_eq (hlength : s.lines.length ≤ s.seq) (hseq : s.seq = v.seen) :
    v.update? s = some (.noop, v) := by
  unfold update?
  rw [reconcile_of_le hlength hseq.le, if_neg fun h => h.1.ne hseq]
  rfl

/-- What an observer does about a snapshot with lines: nothing if it has seen them all; else it
appends those that it has not seen, or starts over if some of them are gone. -/
theorem Snapshot.Shows.reconcile (hs : s.Shows written b) (hb : b < s.seq) (seen : Nat) :
    reconcile? seen s =
      if s.seq ≤ seen then some .noop
      else s.oldest?.map fun _ =>
        if seen < b then .resync s.lines s.seq else .append (between written seen s.seq) s.seq := by
  have hlength := hs.length
  have hconsistent : s.lines.length ≤ s.seq := by omega
  have hsome : s.lines ≠ [] := List.ne_nil_of_length_pos (by omega)
  by_cases hle : s.seq ≤ seen
  · have hgoes : ¬(s.seq < seen ∧ s = .empty) := fun h =>
      hsome (congrArg Snapshot.lines h.2)
    rw [if_pos hle, reconcile_of_le hconsistent hle, if_neg hgoes]
  · rw [if_neg hle, reconcile_of_lt hconsistent (Nat.not_le.1 hle) hsome]
    unfold Snapshot.oldest?
    split
    · rw [Option.map_some]
      by_cases hgap : seen < b
      · have hgone : ¬s.seq - seen ≤ s.lines.length := by omega
        rw [if_neg hgone, if_pos hgap]
      · have hretained : s.seq - seen ≤ s.lines.length := by omega
        have hplace : s.lines.length - (s.seq - seen) = seen - b := by omega
        have hnew : newest (s.seq - seen) s.lines = between written seen s.seq := by
          unfold newest
          rw [hplace, hs.lines, drop_between (Nat.not_lt.1 hgap)]
        rw [if_pos hretained, if_neg hgap, hnew]
    · rfl

/-- What a view shows after it has looked at a snapshot with lines. -/
theorem View.update_of_shows (hs : s.Shows written b) (hb : b < s.seq)
    (hbound : s.seq + 1 < counterBound) (hv : v.Follows written a) :
    ∃ delta w, v.update? s = some (delta, w) ∧
      w.Follows written (if v.seen < b then b else a) ∧ w.seen = max v.seen s.seq := by
  have hdelta := hs.reconcile hb v.seen
  unfold update?
  by_cases hle : s.seq ≤ v.seen
  · rw [if_pos hle] at hdelta
    rw [if_neg (show ¬v.seen < b by omega), hdelta]
    exact ⟨_, _, rfl, hv, (Nat.max_eq_left hle).symm⟩
  · have hlt : v.seen < s.seq := Nat.not_le.1 hle
    have hmax : max v.seen s.seq = s.seq := Nat.max_eq_right hlt.le
    have holdest : ∃ n, s.oldest? = some n := ⟨_, if_pos hbound⟩
    obtain ⟨n, hn⟩ := holdest
    rw [if_neg hle, hn, Option.map_some] at hdelta
    by_cases hgap : v.seen < b
    · rw [if_pos hgap] at hdelta ⊢
      rw [hdelta]
      exact ⟨_, _, rfl, ⟨hs.seq_le, hs.start_le, hs.lines⟩, hmax.symm⟩
    · rw [if_neg hgap] at hdelta ⊢
      rw [hdelta]
      refine ⟨_, _, rfl, ⟨hs.seq_le, hv.start_le.trans hlt.le, ?_⟩, hmax.symm⟩
      show v.lines ++ between written v.seen s.seq = between written a s.seq
      rw [hv.lines]
      exact between_append_between hv.start_le hlt.le hs.seq_le

/-- A new view that looks at a snapshot shows what the snapshot shows. -/
theorem View.empty_update (hs : s.Shows written b) (hb : written ≠ [] → b < s.seq)
    (hseq : s.seq = written.length) (hbound : s.seq + 1 < counterBound) :
    ∃ delta w, View.empty.update? s = some (delta, w) ∧ w.seen = s.seq ∧ w.lines = s.lines := by
  by_cases hw : written = []
  · have hzero : s.seq = 0 := by rw [hseq, hw, List.length_nil]
    have hlength := hs.length
    have hlines : s.lines = [] := by
      rw [hzero, Nat.zero_sub] at hlength
      exact List.length_eq_zero_iff.1 hlength
    exact ⟨_, _, update_of_seq_eq (by omega) hzero, hzero.symm, hlines.symm⟩
  · obtain ⟨delta, w, hupdate, hfollows, hseen⟩ :=
      update_of_shows hs (hb hw) hbound (Follows.empty written)
    have hstart : (if View.empty.seen < b then b else 0) = b := by
      show (if 0 < b then b else 0) = b
      split <;> omega
    have hwseen : w.seen = s.seq := hseen.trans (Nat.max_eq_right (Nat.zero_le _))
    refine ⟨delta, w, hupdate, hwseen, ?_⟩
    rw [hfollows.lines, hstart, hwseen, hs.lines]

end TaskQueue.Log
