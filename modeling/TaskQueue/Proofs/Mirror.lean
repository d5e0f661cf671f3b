import Mathlib.Tactic
import TaskQueue.Proofs.Records
import TaskQueue.Proofs.Selection
import TaskQueue.Store.Request

/-!
# A table that mirrors a store in memory

A table mirrors a store in memory if its rows are those of the store's tasks, in whatever order.
Looking up a task, replacing one, and selecting candidates for a claim then give the same on both
sides, and the two stores still mirror each other afterwards.
-/

namespace TaskQueue.Store

open Time (Instant)

structure Mirrors (m : Memory) (rows : List Row) : Prop where
  unlocked : m.poisoned = false
  tasks : Distinct m.tasks
  rows : rows.Perm (m.tasks.map Row.ofTask)

namespace Memory

theorem mem_of_find {m : Memory} {id : TaskId} {t : Task} (h : m.find? id = some t) :
    t ∈ m.tasks ∧ t.id = id := by
  refine ⟨List.mem_of_find?_eq_some h, ?_⟩
  simpa using List.find?_some h

theorem find_eq_none {m : Memory} {id : TaskId} :
    m.find? id = none ↔ ∀ t ∈ m.tasks, t.id ≠ id := by
  unfold find?
  rw [List.find?_eq_none]
  simp

theorem mem_replace {m : Memory} {t u : Task} (h : u ∈ (m.replace t).tasks) :
    u = t ∨ u ∈ m.tasks := by
  unfold replace at h
  obtain ⟨v, hv, rfl⟩ := List.mem_map.1 h
  split
  · exact Or.inl rfl
  · exact Or.inr hv

theorem ids_replace (m : Memory) (t : Task) :
    (m.replace t).tasks.map Task.id = m.tasks.map Task.id :=
  Records.keys_replace Task.id m.tasks t

theorem mem_of_pick {hour : Nat} {tasks : List Task} {notices : List Notice} {t : Task}
    (h : pick hour tasks = (notices, some t)) :
    t ∈ tasks ∧ Schedule.admits t.payload hour = true := by
  induction tasks generalizing notices with
  | nil => cases h
  | cons u rest ih =>
      rw [pick] at h
      simp only at h
      split at h
      · rename_i hadmits
        simp only [Prod.mk.injEq, Option.some.injEq] at h
        rw [← h.2]
        exact ⟨by simp, hadmits⟩
      · simp only [Prod.mk.injEq] at h
        have hrest := ih (Prod.ext rfl h.2)
        exact ⟨List.mem_cons_of_mem u hrest.1, hrest.2⟩

/-- Changes the result of a task, and its status if one is given, as a table does it. -/
def modify (m : Memory) (moment : Moment) (id : TaskId) (status : Option Status)
    (f : TaskResult → Option (TaskResult × α)) : Step Memory α :=
  m.withTask id (.error (.error (.taskNotFound id))) fun t =>
    match f t.result with
    | none => m.crash
    | some (result, a) =>
      .done
        (m.replace { t with
          result := result, status := status.getD t.status, updatedAt := moment.now })
        a

theorem patch_eq_modify (m : Memory) (moment : Moment) (id : TaskId) (p : ResultPatch) :
    m.patch moment id p = m.modify moment id none fun result => some (result.apply p, ()) :=
  rfl

theorem finalize_eq_modify (m : Memory) (moment : Moment) (id : TaskId) (p : ResultPatch)
    {status : Status} (hstatus : status.isTerminal = true) :
    m.finalize moment id p status =
      m.modify moment id (some status) fun result => some (result.applyFinal p, ()) := by
  unfold finalize
  rw [if_pos hstatus]
  rfl

theorem append_eq_modify (m : Memory) (moment : Moment) (id : TaskId) (lines : List String)
    (window : Nat) :
    m.append moment id lines window =
      m.modify moment id none fun result =>
        (result.snapshot.push? lines window).map fun s => (result.withLog s, s) := by
  unfold append modify
  congr 1
  funext t
  simp only
  cases t.result.snapshot.push? lines window <;> rfl

end Memory

namespace Mirrors

variable {m : Memory} {rows : List Row}

theorem find_row (h : Mirrors m rows) (id : TaskId) :
    Table.findRow? rows id.text = (m.find? id).map Row.ofTask := by
  cases hfind : m.find? id with
  | none =>
      rw [Option.map_none]
      unfold Table.findRow?
      rw [List.find?_eq_none]
      intro r hr
      obtain ⟨t, ht, rfl⟩ := List.mem_map.1 (h.rows.mem_iff.1 hr)
      have hne := Memory.find_eq_none.1 hfind t ht
      simpa [Row.ofTask, TaskId.text_inj] using hne
  | some t =>
      obtain ⟨ht, hid⟩ := Memory.mem_of_find hfind
      have hmem : Row.ofTask t ∈ rows := h.rows.mem_iff.2 (List.mem_map.2 ⟨t, ht, rfl⟩)
      cases hrow : Table.findRow? rows id.text with
      | none =>
          unfold Table.findRow? at hrow
          have hne := List.find?_eq_none.1 hrow _ hmem
          simp [Row.ofTask, hid] at hne
      | some r =>
          have hr := List.mem_of_find?_eq_some hrow
          have hrid : r.id = id.text := by simpa using List.find?_some hrow
          obtain ⟨u, hu, rfl⟩ := List.mem_map.1 (h.rows.mem_iff.1 hr)
          have huid : u.id = t.id := by
            rw [hid]
            exact TaskId.text_inj.1 hrid
          rw [h.tasks.eq_of_id hu ht huid, Option.map_some]

theorem storable_of_find (h : Mirrors m rows) {id : TaskId} {t : Task}
    (hfind : m.find? id = some t) : t.Storable :=
  h.tasks.storable t (Memory.mem_of_find hfind).1

theorem replace (h : Mirrors m rows) {t : Task} (ht : t.Storable) :
    Mirrors (m.replace t) (rows.map fun s => if s.id = t.id.text then Row.ofTask t else s) where
  unlocked := h.unlocked
  tasks := by
    constructor
    · intro u hu
      rcases Memory.mem_replace hu with hu | hu
      · rw [hu]
        exact ht
      · exact h.tasks.storable u hu
    · rw [Memory.ids_replace]
      exact h.tasks.nodup
  rows := by
    have hmap := h.rows.map fun s => if s.id = t.id.text then Row.ofTask t else s
    refine hmap.trans (List.Perm.of_eq ?_)
    unfold Memory.replace
    rw [List.map_map, List.map_map]
    apply List.map_congr_left
    intro u _
    by_cases hid : u.id = t.id
    · simp [Row.ofTask, hid]
    · have htext : ¬u.id.text = t.id.text := fun heq => hid (TaskId.text_inj.1 heq)
      simp [Row.ofTask, hid, htext]

theorem insert (h : Mirrors m rows) {t : Task} (ht : t.Storable) (hfresh : m.find? t.id = none) :
    Mirrors { m with tasks := t :: m.tasks.filter fun u => u.id ≠ t.id }
      (rows ++ [Row.ofTask t]) := by
  have hne := Memory.find_eq_none.1 hfresh
  have hfilter : (m.tasks.filter fun u => u.id ≠ t.id) = m.tasks := by
    rw [List.filter_eq_self]
    intro u hu
    simpa using hne u hu
  constructor
  · exact h.unlocked
  · simp only [hfilter]
    constructor
    · intro u hu
      rcases List.mem_cons.1 hu with hu | hu
      · rw [hu]
        exact ht
      · exact h.tasks.storable u hu
    · rw [List.map_cons, List.nodup_cons]
      refine ⟨?_, h.tasks.nodup⟩
      intro hmem
      obtain ⟨u, hu, hid⟩ := List.mem_map.1 hmem
      exact hne u hu hid
  · simp only [hfilter]
    rw [List.map_cons]
    exact (List.perm_append_singleton _ _).trans (h.rows.cons _)

theorem delete (h : Mirrors m rows) (id : TaskId) :
    Mirrors { m with tasks := m.tasks.filter fun t => t.id ≠ id }
      (rows.filter fun r => r.id ≠ id.text) := by
  constructor
  · exact h.unlocked
  · constructor
    · intro u hu
      exact h.tasks.storable u (List.mem_filter.1 hu).1
    · exact h.tasks.nodup.sublist (List.Sublist.map _ List.filter_sublist)
  · have hfilter := h.rows.filter fun r => r.id ≠ id.text
    have hsame : ((fun r : Row => decide (r.id ≠ id.text)) ∘ Row.ofTask) =
        fun t : Task => decide (t.id ≠ id) := by
      funext t
      simp [Row.ofTask, TaskId.text_inj]
    rw [List.filter_map, hsame] at hfilter
    exact hfilter

end Mirrors

end TaskQueue.Store
