import Mathlib.Tactic
import TaskQueue.Log.Delta
import TaskQueue.Proofs.NewestLines

/-!
# What an observer is told

An observer is told to append exactly if the snapshot is consistent, counts more lines than the
observer has seen, and shows all of these; they are what it gets.  To start over it gets the whole
snapshot.  With every sum, difference and cut checked, one step can fail on any input: numbering the
oldest line when the counter is the last one there is.
-/

namespace TaskQueue.Log

variable {seen : Nat} {s : Snapshot} {lines : List String}

/-! ## Steps within their range -/

def plus? (a b : Nat) : Option Nat :=
  if a + b < counterBound then some (a + b) else none

def minus? (a b : Nat) : Option Nat :=
  if b ≤ a then some (a - b) else none

/-- The lines from a place on, which is not beyond the end. -/
def linesFrom? (lines : List String) (place : Nat) : Option (List String) :=
  if place ≤ lines.length then some (lines.drop place) else none

/-- What `reconcile?` says, with each step checked. -/
def reconcileChecked? (seen : Nat) (s : Snapshot) : Option Delta :=
  if s.seq < s.lines.length then some (.resync s.lines s.seq)
  else if s.seq = seen then some .noop
  else if s.seq < seen then some (if s.isReset then .resync [] 0 else .noop)
  else if s.lines.isEmpty then some (.resync [] s.seq)
  else do
    let next ← plus? s.seq 1
    -- the one difference that stops at zero instead of failing
    let oldest := next - s.lines.length
    let needed ← plus? seen 1
    if needed < oldest then some (.resync s.lines s.seq)
    else do
      let place ← minus? needed oldest
      let fresh ← linesFrom? s.lines place
      some (.append fresh s.seq)

theorem plus_of_lt {a b : Nat} (h : a + b < counterBound) : plus? a b = some (a + b) :=
  if_pos h

theorem minus_of_le {a b : Nat} (h : b ≤ a) : minus? a b = some (a - b) :=
  if_pos h

theorem linesFrom_of_le {place : Nat} (h : place ≤ lines.length) :
    linesFrom? lines place = some (lines.drop place) :=
  if_pos h

/-! ## One case after the other -/

theorem Snapshot.isReset_iff : s.isReset = true ↔ s = .empty := by
  obtain ⟨shown, seq⟩ := s
  simp [isReset, empty, and_comm]

theorem reconcile_of_malformed (h : s.seq < s.lines.length) :
    reconcile? seen s = some (.resync s.lines s.seq) := by
  simp [reconcile?, Snapshot.isConsistent, h]

theorem reconcile_of_le (hconsistent : s.lines.length ≤ s.seq) (h : s.seq ≤ seen) :
    reconcile? seen s = some (if s.seq < seen ∧ s = .empty then .resync [] 0 else .noop) := by
  rcases h.eq_or_lt with heq | hlt
  · rw [heq] at hconsistent
    simp [reconcile?, Snapshot.isConsistent, hconsistent, heq]
  · simp [reconcile?, Snapshot.isConsistent, hconsistent, hlt.ne, hlt, Snapshot.isReset_iff]

theorem reconcile_empty (h : 0 < seen) : reconcile? seen .empty = some (.resync [] 0) := by
  have hconsistent : Snapshot.empty.lines.length ≤ Snapshot.empty.seq := Nat.le_refl 0
  rw [reconcile_of_le hconsistent h.le, if_pos ⟨h, rfl⟩]

theorem reconcile_of_blank (h : seen < s.seq) (hlines : s.lines = []) :
    reconcile? seen s = some (.resync s.lines s.seq) := by
  simp [reconcile?, Snapshot.isConsistent, hlines, h.ne', h.not_gt]

theorem reconcile_of_lt (hconsistent : s.lines.length ≤ s.seq) (h : seen < s.seq)
    (hlines : s.lines ≠ []) :
    reconcile? seen s =
      if s.seq + 1 < counterBound then
        some (if s.seq - seen ≤ s.lines.length
          then .append (newest (s.seq - seen) s.lines) s.seq else .resync s.lines s.seq)
      else none := by
  have hnumbered : reconcile? seen s = s.oldest?.map fun oldest =>
      if seen + 1 < oldest then .resync s.lines s.seq
      else .append (s.lines.drop (seen + 1 - oldest)) s.seq := by
    simp [reconcile?, Snapshot.isConsistent, hconsistent, h.ne', h.not_gt, hlines]
  rw [hnumbered]
  unfold Snapshot.oldest?
  split
  · by_cases hretained : s.seq - seen ≤ s.lines.length
    · have hplace : ¬seen + 1 < s.seq + 1 - s.lines.length := by omega
      have hcut : seen + 1 - (s.seq + 1 - s.lines.length) =
          s.lines.length - (s.seq - seen) := by omega
      simp [hretained, hplace, hcut, newest]
    · have hplace : seen + 1 < s.seq + 1 - s.lines.length := by omega
      simp [hretained, hplace]
  · rfl

/-- From the number of the oldest line on, all steps stay in range. -/
theorem reconcile_eq_checked (seen : Nat) (s : Snapshot) :
    reconcile? seen s = reconcileChecked? seen s := by
  unfold reconcileChecked?
  by_cases hmalformed : s.seq < s.lines.length
  · rw [if_pos hmalformed, reconcile_of_malformed hmalformed]
  have hconsistent : s.lines.length ≤ s.seq := Nat.not_lt.1 hmalformed
  rw [if_neg hmalformed]
  by_cases hle : s.seq ≤ seen
  · rw [reconcile_of_le hconsistent hle]
    rcases hle.eq_or_lt with heq | hlt
    · simp [heq]
    · simp [hlt, hlt.ne, Snapshot.isReset_iff]
  have hlt : seen < s.seq := Nat.not_le.1 hle
  rw [if_neg hlt.ne', if_neg hlt.not_gt]
  by_cases hlines : s.lines = []
  · simp [reconcile_of_blank hlt hlines, hlines]
  rw [if_neg (by simpa using hlines), reconcile_of_lt hconsistent hlt hlines]
  by_cases hbound : s.seq + 1 < counterBound
  · have hneeded : seen + 1 < counterBound := by omega
    rw [if_pos hbound, plus_of_lt hbound, plus_of_lt hneeded]
    simp only [Option.bind_eq_bind, Option.bind_some]
    by_cases hretained : s.seq - seen ≤ s.lines.length
    · have hplace : s.seq + 1 - s.lines.length ≤ seen + 1 := by omega
      have hcut : seen + 1 - (s.seq + 1 - s.lines.length) =
          s.lines.length - (s.seq - seen) := by omega
      have hwithin : s.lines.length - (s.seq - seen) ≤ s.lines.length := Nat.sub_le _ _
      rw [if_pos hretained, if_neg hplace.not_gt, minus_of_le hplace, hcut, Option.bind_some,
        linesFrom_of_le hwithin, Option.bind_some]
      rfl
    · have hgap : seen + 1 < s.seq + 1 - s.lines.length := by omega
      rw [if_neg hretained, if_pos hgap]
  · simp [hbound, plus?]

/-! ## Which answer is given -/

/-- The snapshot is consistent and shows all lines after number `seen`, of which there are some. -/
structure Snapshot.Retains (s : Snapshot) (seen : Nat) : Prop where
  consistent : s.lines.length ≤ s.seq
  newer : seen < s.seq
  retained : s.seq - seen ≤ s.lines.length

/-- The snapshot is consistent and has new lines, but its counter has no successor. -/
structure Snapshot.Overruns (s : Snapshot) (seen : Nat) : Prop where
  consistent : s.lines.length ≤ s.seq
  newer : seen < s.seq
  lines : s.lines ≠ []
  last : counterBound ≤ s.seq + 1

/-- The snapshot is consistent, has nothing new, and its log has not started over. -/
structure Snapshot.SeenBy (s : Snapshot) (seen : Nat) : Prop where
  consistent : s.lines.length ≤ s.seq
  old : s.seq ≤ seen
  goesOn : s = .empty → seen = 0

/-- The snapshot is malformed, its log has started over, or lines after number `seen` are gone. -/
def Snapshot.Restarts (s : Snapshot) (seen : Nat) : Prop :=
  s.seq < s.lines.length ∨ (s.seq < seen ∧ s = .empty) ∨ (seen < s.seq ∧ s.lines = []) ∨
    (s.lines.length < s.seq - seen ∧ s.seq + 1 < counterBound)

inductive Answers (seen : Nat) (s : Snapshot) : Option Delta → Prop
  | nothing : s.Overruns seen → Answers seen s none
  | noop : s.SeenBy seen → Answers seen s (some .noop)
  | append : s.Retains seen → s.seq + 1 < counterBound →
      Answers seen s (some (.append (newest (s.seq - seen) s.lines) s.seq))
  | resync : s.Restarts seen → Answers seen s (some (.resync s.lines s.seq))

theorem answers_reconcile (seen : Nat) (s : Snapshot) : Answers seen s (reconcile? seen s) := by
  by_cases hmalformed : s.seq < s.lines.length
  · rw [reconcile_of_malformed hmalformed]
    exact .resync (Or.inl hmalformed)
  have hconsistent : s.lines.length ≤ s.seq := Nat.not_lt.1 hmalformed
  by_cases hle : s.seq ≤ seen
  · rw [reconcile_of_le hconsistent hle]
    by_cases hreset : s.seq < seen ∧ s = .empty
    · have hanswer := Answers.resync (Or.inr (Or.inl hreset))
      rw [if_pos hreset]
      rwa [hreset.2] at hanswer ⊢
    · rw [if_neg hreset]
      refine .noop ⟨hconsistent, hle, fun hempty => ?_⟩
      subst hempty
      exact Nat.eq_zero_of_not_pos fun hpos => hreset ⟨hpos, rfl⟩
  have hlt : seen < s.seq := Nat.not_le.1 hle
  by_cases hlines : s.lines = []
  · rw [reconcile_of_blank hlt hlines]
    exact .resync (Or.inr (Or.inr (Or.inl ⟨hlt, hlines⟩)))
  rw [reconcile_of_lt hconsistent hlt hlines]
  by_cases hbound : s.seq + 1 < counterBound
  · rw [if_pos hbound]
    by_cases hretained : s.seq - seen ≤ s.lines.length
    · rw [if_pos hretained]
      exact .append ⟨hconsistent, hlt, hretained⟩ hbound
    · rw [if_neg hretained]
      exact .resync (Or.inr (Or.inr (Or.inr ⟨Nat.not_le.1 hretained, hbound⟩)))
  · rw [if_neg hbound]
    exact .nothing ⟨hconsistent, hlt, hlines, Nat.not_lt.1 hbound⟩

theorem Answers.eq {answer : Option Delta} (h : Answers seen s answer) :
    reconcile? seen s = answer := by
  cases h with
  | nothing h =>
      rw [reconcile_of_lt h.consistent h.newer h.lines, if_neg (Nat.not_lt.2 h.last)]
  | noop h =>
      have hgoes : ¬(s.seq < seen ∧ s = .empty) := fun ⟨hlt, hempty⟩ =>
        Nat.not_lt_zero _ (h.goesOn hempty ▸ hlt)
      rw [reconcile_of_le h.consistent h.old, if_neg hgoes]
  | append h hbound =>
      have hlines : s.lines ≠ [] := by
        have hnewer := h.newer
        have hretained := h.retained
        exact List.ne_nil_of_length_pos (by omega)
      rw [reconcile_of_lt h.consistent h.newer hlines, if_pos hbound, if_pos h.retained]
  | resync h =>
      rcases h with hmalformed | ⟨hlt, rfl⟩ | ⟨hlt, hlines⟩ | ⟨hgap, hbound⟩
      · exact reconcile_of_malformed hmalformed
      · exact reconcile_empty hlt
      · exact reconcile_of_blank hlt hlines
      · by_cases hlines : s.lines = []
        · exact reconcile_of_blank (by omega) hlines
        · rw [reconcile_of_lt (by omega) (by omega) hlines, if_pos hbound, if_neg hgap.not_ge]

theorem answers_iff {answer : Option Delta} :
    Answers seen s answer ↔ reconcile? seen s = answer :=
  ⟨Answers.eq, fun h => h ▸ answers_reconcile seen s⟩

/-- Apart from the last counter there is, every position and every snapshot is answered, and all
arithmetic stays in range.  Lines are appended exactly if those after the position are all shown,
and what is appended is these lines; starting over shows the snapshot as it is. -/
theorem reconcile_exact (seen : Nat) (s : Snapshot) :
    reconcile? seen s = reconcileChecked? seen s ∧
      (reconcile? seen s = none ↔ s.Overruns seen) ∧
      (reconcile? seen s = some .noop ↔ s.SeenBy seen) ∧
      (∀ lines next, reconcile? seen s = some (.append lines next) ↔
        (s.Retains seen ∧ s.seq + 1 < counterBound) ∧
          (lines <:+ s.lines ∧ lines.length = s.seq - seen ∧ lines ≠ []) ∧ next = s.seq) ∧
      ∀ lines next, reconcile? seen s = some (.resync lines next) ↔
        s.Restarts seen ∧ lines = s.lines ∧ next = s.seq := by
  refine ⟨reconcile_eq_checked seen s, ?_, ?_, fun lines next => ?_, fun lines next => ?_⟩ <;>
    rw [← answers_iff]
  · constructor
    · intro h
      cases h with
      | nothing h => exact h
    · exact .nothing
  · constructor
    · intro h
      cases h with
      | noop h => exact h
    · exact .noop
  · constructor
    · intro h
      cases h with
      | append h hbound =>
          obtain ⟨hsuffix, hlength⟩ := (eq_newest_iff h.retained).1 rfl
          have hpos : 0 < s.seq - seen := Nat.sub_pos_of_lt h.newer
          exact ⟨⟨h, hbound⟩, ⟨hsuffix, hlength, List.ne_nil_of_length_pos (by omega)⟩, rfl⟩
    · rintro ⟨⟨h, hbound⟩, ⟨hsuffix, hlength, -⟩, rfl⟩
      rw [(eq_newest_iff h.retained).2 ⟨hsuffix, hlength⟩]
      exact .append h hbound
  · constructor
    · intro h
      cases h with
      | resync h => exact ⟨h, rfl, rfl⟩
    · rintro ⟨h, rfl, rfl⟩
      exact .resync h

/-- The counter has reached the last number; the newest line is not told to an observer that has
seen all others. -/
theorem not_reconcile_total :
    (⟨["x"], counterBound - 1⟩ : Snapshot).Retains (counterBound - 2) ∧
      reconcile? (counterBound - 2) ⟨["x"], counterBound - 1⟩ = none :=
  ⟨⟨by decide, by decide, by decide⟩, by decide⟩

end TaskQueue.Log
