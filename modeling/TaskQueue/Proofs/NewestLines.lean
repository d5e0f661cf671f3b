import Mathlib.Tactic
import TaskQueue.Log.Rolling

/-!
# The newest lines

What a window leaves of a list of lines is its one suffix of that length.  Lines that are beyond the
window stay so when more lines arrive, which makes it the same whether the oldest lines leave one by
one or all at once.
-/

namespace TaskQueue.Log

variable {window : Nat} {lines kept : List String}

theorem newest_of_length_le (h : lines.length ≤ window) : newest window lines = lines := by
  unfold newest
  rw [Nat.sub_eq_zero_of_le h, List.drop_zero]

@[simp] theorem length_newest (window : Nat) (lines : List String) :
    (newest window lines).length = min window lines.length := by
  unfold newest
  rw [List.length_drop]
  omega

theorem newest_suffix (window : Nat) (lines : List String) : newest window lines <:+ lines :=
  List.drop_suffix _ _

theorem eq_newest_iff (h : window ≤ lines.length) :
    kept = newest window lines ↔ kept <:+ lines ∧ kept.length = window := by
  constructor
  · rintro rfl
    exact ⟨newest_suffix window lines, by rw [length_newest, Nat.min_eq_left h]⟩
  · rintro ⟨hsuffix, rfl⟩
    exact List.suffix_iff_eq_drop.1 hsuffix

/-- Lines beyond the window do not come back when more lines arrive. -/
theorem newest_newest_append (window : Nat) (lines more : List String) :
    newest window (newest window lines ++ more) = newest window (lines ++ more) := by
  have hlength := length_newest window lines
  unfold newest at hlength ⊢
  rw [← List.drop_append_of_le_length (Nat.sub_le _ _), List.drop_drop]
  congr 1
  simp only [List.length_append, List.length_drop]
  omega

/-- An empty log shows what the window leaves of the lines that are added to it. -/
theorem push_empty (hfits : lines.length < counterBound) (window : Nat) :
    Snapshot.empty.push? lines window = some ⟨newest (clampWindow window) lines, lines.length⟩ := by
  have hcount : Snapshot.empty.seq + lines.length = lines.length := Nat.zero_add _
  unfold Snapshot.push?
  rw [hcount, if_pos (Or.inr hfits)]
  rfl

namespace Rolling

theorem evict_eq_newest (window : Nat) (lines : List String) :
    evict window lines = newest window lines := by
  induction lines with
  | nil => simp [evict, newest]
  | cons line rest ih =>
      unfold evict
      split
      · rename_i hfull
        have hdrop : (line :: rest).length - window = (rest.length - window) + 1 := by
          rw [List.length_cons]
          omega
        rw [ih]
        unfold newest
        rw [hdrop, List.drop_succ_cons]
      · rename_i hfits
        exact (newest_of_length_le (Nat.not_lt.1 hfits)).symm

/-- A buffer whose lines fit its window keeps the newest of all lines. -/
theorem extend_eq (log : Rolling) (hfits : log.lines.length ≤ log.window) (more : List String) :
    log.extend more =
      ⟨newest log.window (log.lines ++ more), log.seq + more.length, log.window⟩ := by
  unfold extend
  induction more generalizing log with
  | nil => simp [newest_of_length_le hfits]
  | cons line rest ih =>
      have hpushed : (log.push line).lines = newest log.window (log.lines ++ [line]) :=
        evict_eq_newest _ _
      have hlength : (log.push line).lines.length ≤ (log.push line).window := by
        rw [hpushed, length_newest]
        exact Nat.min_le_left _ _
      rw [List.foldl_cons, ih _ hlength, hpushed]
      show (⟨newest log.window (newest log.window (log.lines ++ [line]) ++ rest),
        log.seq + 1 + rest.length, log.window⟩ : Rolling) = _
      rw [newest_newest_append, List.append_assoc, List.singleton_append, List.length_cons]
      congr 1
      omega

theorem extend_empty (window : Nat) (lines : List String) :
    (empty window).extend lines =
      ⟨newest (clampWindow window) lines, lines.length, clampWindow window⟩ := by
  rw [extend_eq _ (Nat.zero_le _)]
  show (⟨newest _ ([] ++ _), 0 + _, _⟩ : Rolling) = _
  rw [List.nil_append, Nat.zero_add]
  rfl

end Rolling

end TaskQueue.Log
