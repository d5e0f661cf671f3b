import Mathlib.Tactic
import TaskQueue.Proofs.Selection
import TaskQueue.Store.Memory

/-!
# The order in which tasks are served

A claim looks at the oldest waiting tasks, a limited number of them, and takes the first one whose
window is open.  At one hour of the day it is therefore known beforehand which tasks are claimed and
in which order: the waiting tasks are gone through by age, and every task whose window is closed
takes up one place of the limit for good.
-/

namespace TaskQueue.Store

/-- Whether the window of the task is open at the given hour. -/
def isOpenAt (hour : Nat) (t : Task) : Bool :=
  Schedule.admits t.payload hour

/-- The task that is claimed next, from tasks in the order of age. -/
def firstOpen (hour limit : Nat) (waiting : List Task) : Option Task :=
  (waiting.take limit).find? (isOpenAt hour)

/-- The task as a claim hands it out. -/
def marked (moment : Moment) (t : Task) : Task :=
  { t with status := .processing, updatedAt := moment.now }

/-- The tasks that are claimed one after the other, from tasks in the order of age. -/
def served (hour : Nat) : Nat → List Task → List Task
  | 0, _ => []
  | _ + 1, [] => []
  | limit + 1, t :: rest =>
    if isOpenAt hour t then t :: served hour (limit + 1) rest else served hour limit rest

variable {hour limit : Nat} {waiting : List Task} {t : Task}

theorem served_sublist (hour limit : Nat) (waiting : List Task) :
    (served hour limit waiting).Sublist waiting := by
  induction waiting generalizing limit with
  | nil => cases limit <;> exact List.Sublist.slnil
  | cons t rest ih =>
      cases limit with
      | zero => exact List.nil_sublist _
      | succ limit =>
          unfold served
          split
          · exact (ih (limit + 1)).cons_cons t
          · exact (ih limit).cons t

/-- Nothing is served if no window is open among the tasks that a claim looks at. -/
theorem served_eq_nil (h : firstOpen hour limit waiting = none) :
    served hour limit waiting = [] := by
  induction waiting generalizing limit with
  | nil => cases limit <;> rfl
  | cons t rest ih =>
      cases limit with
      | zero => rfl
      | succ limit =>
          unfold firstOpen at h
          rw [List.take_succ_cons, List.find?_cons] at h
          unfold served
          split at h
          · cases h
          · rename_i hclosed
            simp only [hclosed, Bool.false_eq_true, if_false]
            exact ih h

/-- The task that is claimed next is served first, and then those that would be served without
it. -/
theorem served_eq_cons (hnodup : (waiting.map Task.id).Nodup)
    (h : firstOpen hour limit waiting = some t) :
    served hour limit waiting =
      t :: served hour limit (waiting.filter fun u => u.id ≠ t.id) := by
  induction waiting generalizing limit with
  | nil => cases limit <;> cases h
  | cons u rest ih =>
      cases limit with
      | zero => cases h
      | succ limit =>
          obtain ⟨hu, hrest⟩ := List.nodup_cons.1 hnodup
          unfold firstOpen at h
          rw [List.take_succ_cons, List.find?_cons] at h
          split at h
          · rename_i hopen
            cases h
            have hkept : rest.filter (fun v => v.id ≠ t.id) = rest := by
              rw [List.filter_eq_self]
              intro v hv
              simpa using fun hid => hu (List.mem_map.2 ⟨v, hv, hid⟩)
            rw [List.filter_cons_of_neg (by simp), hkept, served, if_pos hopen]
          · rename_i hclosed
            have ht : t ∈ rest := List.mem_of_mem_take (List.mem_of_find?_eq_some h)
            have hne : u.id ≠ t.id := fun hid => hu (List.mem_map.2 ⟨t, ht, hid.symm⟩)
            rw [List.filter_cons_of_pos (by simpa using hne), served, served,
              if_neg (by simp [hclosed]), if_neg (by simp [hclosed])]
            exact ih hrest h

/-! ## What a store selects -/

/-- Tasks in the order of age, the oldest one first. -/
def Ordered (tasks : List Task) : Prop :=
  tasks.Pairwise fun a b => a.before b = true

theorem before_of_notYounger {a b : Task} (h : Task.NotYounger a b) (hid : a.id ≠ b.id) :
    a.before b = true := by
  by_contra hbefore
  exact hid (h.id_eq (Bool.eq_false_iff.2 hbefore))

theorem ordered_byAge {tasks : List Task} (hnodup : (tasks.map Task.id).Nodup) :
    Ordered (byAge tasks) := by
  have hids : ((byAge tasks).map Task.id).Nodup := ((perm_byAge tasks).map Task.id).nodup_iff.2 hnodup
  rw [List.Nodup, List.pairwise_map] at hids
  exact (pairwise_byAge tasks).imp₂ (fun _ _ => before_of_notYounger) hids

theorem ordered_unique {l l' : List Task} (hl : Ordered l) (hl' : l'.Pairwise Task.NotYounger)
    (hnodup : (l.map Task.id).Nodup) (hperm : l'.Perm l) : l' = l := by
  refine List.Perm.eq_of_pairwise ?_ hl' (hl.imp Task.notYounger_of_before) hperm
  intro a b ha hb hab hba
  exact List.inj_on_of_nodup_map hnodup (hperm.mem_iff.1 ha) hb (hab.id_eq hba)

/-- The oldest tasks that a store selects are the front of the tasks in the order of age. -/
theorem oldest_of_perm {tasks : List Task} {filter : TaskFilter}
    (hperm : (tasks.filter filter.matches).Perm waiting) (hordered : Ordered waiting)
    (hnodup : (waiting.map Task.id).Nodup) (limit : Nat) :
    oldest tasks filter limit = waiting.take limit := by
  rw [oldest_eq_take, ordered_unique hordered (pairwise_byAge _) hnodup
    ((perm_byAge _).trans hperm)]

/-- A claim takes the first task whose window is open. -/
theorem pick_eq_find (hour : Nat) (tasks : List Task) :
    (Memory.pick hour tasks).2 = tasks.find? (isOpenAt hour) := by
  induction tasks with
  | nil => rfl
  | cons t rest ih =>
      rw [Memory.pick, List.find?_cons]
      unfold isOpenAt at ih ⊢
      cases h : Schedule.admits t.payload hour with
      | true => rfl
      | false => simpa [h] using ih

end TaskQueue.Store
