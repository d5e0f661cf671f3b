import Mathlib.Data.Multiset.Sort
import Mathlib.Tactic
import TaskQueue.Proofs.MemoryLifecycle
import TaskQueue.Proofs.ServedOrder

/-!
# The scan for the oldest tasks

A store in memory goes through its tasks in no particular order.  It pushes the ages of those that a
filter admits into a heap, and lets a greatest one go whenever there are more than asked for.  However
the heap arranges what it holds, it holds the least ages that have been seen so far.  In the end these
are the front of all ages in increasing order, so neither a listing nor a claim depends on the order in
which the tasks are gone through.
-/

namespace TaskQueue

open Time (Instant ZonedTime)

/-! ## Ages -/

/-- What tasks are ordered by: the time of creation, and the identifier among tasks of one time. -/
structure Age where
  createdAt : Instant
  id : TaskId

namespace Age

/-- Second, nanosecond and identifier, in lexicographic order. -/
def rank (a : Age) : ℤ ×ₗ ℕ ×ₗ ℕ :=
  toLex (a.createdAt.seconds, toLex (a.createdAt.nanos, a.id.bits.toNat))

theorem rank_injective : Function.Injective rank := by
  rintro ⟨⟨s, n⟩, ⟨b⟩⟩ ⟨⟨s', n'⟩, ⟨b'⟩⟩ h
  simp only [rank, EmbeddingLike.apply_eq_iff_eq, Prod.mk.injEq] at h
  obtain ⟨rfl, rfl, hbits⟩ := h
  rw [BitVec.eq_of_toNat_eq hbits]

instance : LinearOrder Age :=
  LinearOrder.lift' rank rank_injective

end Age

def Task.age (t : Task) : Age :=
  ⟨t.createdAt, t.id⟩

theorem Task.notYounger_iff_age_le (a b : Task) : a.NotYounger b ↔ a.age ≤ b.age := by
  have hrank : a.age ≤ b.age ↔ a.age.rank ≤ b.age.rank := Iff.rfl
  rw [hrank, NotYounger, ← Bool.not_eq_true, before_iff]
  unfold Age.rank age
  simp only [Prod.Lex.toLex_le_toLex]
  omega

/-! ## Heaps -/

/-- A heap with its greatest entry on top, as far as its users rely on it: a push adds an entry, and a
pop takes out a greatest one.  How the entries are arranged is left open. -/
structure Heap (α : Type) [LinearOrder α] (η : Type) where
  empty : η
  push : α → η → η
  pop : η → η
  entries : η → Multiset α
  entries_empty : entries empty = 0
  entries_push : ∀ a h, entries (push a h) = a ::ₘ entries h
  entries_pop : ∀ h, entries h ≠ 0 →
    ∃ greatest, entries h = greatest ::ₘ entries (pop h) ∧ ∀ a ∈ entries h, a ≤ greatest

namespace Heap

section Scan

variable {α η : Type} [LinearOrder α]

/-- Takes in one more entry, and lets a greatest one go if there are too many. -/
def keep (H : Heap α η) (limit : ℕ) (h : η) (a : α) : η :=
  let next := H.push a h
  if limit < (H.entries next).card then H.pop next else next

/-- What is left in the heap when all entries have been taken in, in increasing order. -/
def scan (H : Heap α η) (limit : ℕ) (as : List α) : List α :=
  if limit = 0 then [] else (H.entries (as.foldl (H.keep limit) H.empty)).sort

/-- The heap that keeps its entries in no order and looks for a greatest one when it has to. -/
def unordered : Heap α (List α) where
  empty := []
  push a h := a :: h
  pop h := match h.max? with
    | none => []
    | some greatest => h.erase greatest
  entries h := ↑h
  entries_empty := rfl
  entries_push _ _ := rfl
  entries_pop h hne := by
    cases hmax : h.max? with
    | none => exact absurd (congrArg _ (List.max?_eq_none_iff.1 hmax)) hne
    | some greatest =>
        obtain ⟨hmem, hgreatest⟩ := List.max?_eq_some_iff.1 hmax
        exact ⟨greatest, Multiset.coe_eq_coe.2 (List.perm_cons_erase hmem), hgreatest⟩

/-- Two greatest entries are the same, so there is no choice which one a pop takes out. -/
theorem entries_pop_of_greatest (H : Heap α η) {h : η} {a : α} {rest : Multiset α}
    (hsplit : H.entries h = a ::ₘ rest) (ha : ∀ b ∈ rest, b ≤ a) :
    H.entries (H.pop h) = rest := by
  have hne : H.entries h ≠ 0 := by
    rw [hsplit]
    exact Multiset.cons_ne_zero
  obtain ⟨greatest, hpopped, hgreatest⟩ := H.entries_pop h hne
  rw [hsplit] at hpopped hgreatest
  have hmem : greatest ∈ a ::ₘ rest := by
    rw [hpopped]
    exact Multiset.mem_cons_self _ _
  have hle : greatest ≤ a := (Multiset.mem_cons.1 hmem).elim le_of_eq (ha greatest)
  have hsame : greatest = a := le_antisymm hle (hgreatest a (Multiset.mem_cons_self _ _))
  rw [hsame] at hpopped
  exact ((Multiset.cons_inj_right a).1 hpopped).symm

end Scan

end Heap

namespace Store

/-! ## What a heap holds on the way -/

variable {η : Type} {limit : ℕ} {kept : List Task}

theorem pairwise_keepOldest (limit : ℕ) (t : Task) (hkept : kept.Pairwise Task.NotYounger) :
    (keepOldest limit kept t).Pairwise Task.NotYounger := by
  have hinserted := pairwise_insertByAge t hkept
  unfold keepOldest
  simp only
  split
  · exact hinserted.sublist (List.dropLast_sublist _)
  · exact hinserted

/-- In tasks in the order of age, none is younger than the last one. -/
theorem age_le_getLast (hkept : kept.Pairwise Task.NotYounger) (hne : kept ≠ []) {t : Task}
    (ht : t ∈ kept.dropLast) : t.age ≤ (kept.getLast hne).age := by
  rw [← List.dropLast_append_getLast hne] at hkept
  rw [← Task.notYounger_iff_age_le]
  exact (List.pairwise_append.1 hkept).2.2 t ht _ (List.mem_singleton_self _)

/-- A heap that holds the ages of the tasks that are kept goes on to do so: what it lets go is the age
of the task that is let go. -/
theorem entries_keep (H : Heap Age η) (hkept : kept.Pairwise Task.NotYounger) {h : η}
    (hheld : H.entries h = ↑(kept.map Task.age)) (limit : ℕ) (t : Task) :
    H.entries (H.keep limit h t.age) = ↑((keepOldest limit kept t).map Task.age) := by
  have hpushed : H.entries (H.push t.age h) = ↑((insertByAge t kept).map Task.age) := by
    rw [H.entries_push, hheld, Multiset.cons_coe, ← List.map_cons]
    exact Multiset.coe_eq_coe.2 ((perm_insertByAge t kept).symm.map Task.age)
  have hcard : (H.entries (H.push t.age h)).card = (insertByAge t kept).length := by
    rw [hpushed, Multiset.coe_card, List.length_map]
  unfold Heap.keep keepOldest
  simp only [hcard]
  split
  · have hne : insertByAge t kept ≠ [] := List.ne_nil_of_length_pos (by omega)
    have hsplit : H.entries (H.push t.age h) =
        ((insertByAge t kept).getLast hne).age ::ₘ
          ↑((insertByAge t kept).dropLast.map Task.age) := by
      rw [hpushed, Multiset.cons_coe, Multiset.coe_eq_coe]
      conv_lhs => rw [← List.dropLast_append_getLast hne, List.map_append]
      exact List.perm_append_singleton _ _
    refine H.entries_pop_of_greatest hsplit ?_
    intro a ha
    obtain ⟨u, hu, rfl⟩ := List.mem_map.1 (Multiset.mem_coe.1 ha)
    exact age_le_getLast (pairwise_insertByAge t hkept) hne hu
  · exact hpushed

theorem entries_foldl_keep (H : Heap Age η) (limit : ℕ) (tasks : List Task)
    (hkept : kept.Pairwise Task.NotYounger) {h : η} (hheld : H.entries h = ↑(kept.map Task.age)) :
    H.entries ((tasks.map Task.age).foldl (H.keep limit) h) =
      ↑((tasks.foldl (keepOldest limit) kept).map Task.age) := by
  -- A step needs the kept tasks to be in order, which a step keeps as well.
  induction tasks generalizing kept h with
  | nil => exact hheld
  | cons t rest ih =>
      exact ih (pairwise_keepOldest limit t hkept) (entries_keep H hkept hheld limit t)

/-! ## Sorting by age -/

theorem ages_sorted (hkept : kept.Pairwise Task.NotYounger) :
    (kept.map Task.age).Pairwise (· ≤ ·) := by
  rw [List.pairwise_map]
  exact hkept.imp fun h => (Task.notYounger_iff_age_le _ _).1 h

/-- The ages of the tasks that the filter admits. -/
def ages (tasks : List Task) (filter : TaskFilter) : List Age :=
  (tasks.filter filter.matches).map Task.age

theorem map_age_byAge (tasks : List Task) :
    (byAge tasks).map Task.age = (tasks.map Task.age).mergeSort := by
  have hsort := Multiset.coe_sort (r := (· ≤ ·)) (l := (byAge tasks).map Task.age)
  rw [List.mergeSort_eq_self _ (ages_sorted (pairwise_byAge tasks))] at hsort
  rw [← hsort, Multiset.coe_eq_coe.2 ((perm_byAge tasks).map Task.age), Multiset.coe_sort]

theorem map_age_oldest (tasks : List Task) (filter : TaskFilter) (limit : ℕ) :
    (oldest tasks filter limit).map Task.age = (ages tasks filter).mergeSort.take limit := by
  rw [oldest_eq_take, List.map_take, map_age_byAge]
  rfl

/-- The heap is left with the ages of the oldest tasks. -/
theorem scan_ages (H : Heap Age η) (tasks : List Task) (filter : TaskFilter) (limit : ℕ) :
    H.scan limit (ages tasks filter) = (oldest tasks filter limit).map Task.age := by
  have hsorted : (oldest tasks filter limit).Pairwise Task.NotYounger := by
    rw [oldest_eq_take]
    exact (pairwise_byAge _).sublist (List.take_sublist _ _)
  unfold Heap.scan
  split
  · rename_i hzero
    rw [oldest_eq_take, hzero, List.take_zero, List.map_nil]
  · have hheld := entries_foldl_keep H limit (tasks.filter filter.matches) List.Pairwise.nil
      H.entries_empty
    unfold ages
    rw [hheld, Multiset.coe_sort]
    exact List.mergeSort_eq_self _ (ages_sorted hsorted)

/-! ## Tasks in another order -/

namespace Memory

variable {m m' : Memory}

/-- Whether two stores hold the same tasks, each in an order of its own. -/
structure Rearranges (m m' : Memory) : Prop where
  tasks : m'.tasks.Perm m.tasks
  poisoned : m'.poisoned = m.poisoned

theorem Rearranges.replace (h : m.Rearranges m') (t : Task) :
    (m.replace t).Rearranges (m'.replace t) :=
  ⟨h.tasks.map _, h.poisoned⟩

theorem Rearranges.oldest_eq (h : m.Rearranges m') (hunique : m.Unique) (filter : TaskFilter)
    (limit : ℕ) : oldest m'.tasks filter limit = oldest m.tasks filter limit := by
  have hnodup : ((m.tasks.filter filter.matches).map Task.id).Nodup :=
    hunique.sublist (List.filter_sublist.map _)
  rw [oldest_eq_take m.tasks]
  exact oldest_of_perm ((h.tasks.filter _).trans (perm_byAge _).symm) (ordered_byAge hnodup)
    (((perm_byAge _).map Task.id).nodup_iff.2 hnodup) limit

/-- Of a task that is selected by its age, the identifier is enough to find it again. -/
theorem Unique.find_oldest (hunique : m.Unique) (filter : TaskFilter) (limit : ℕ) :
    ((oldest m.tasks filter limit).map Task.id).filterMap m.find? =
      oldest m.tasks filter limit := by
  rw [List.filterMap_map]
  have hfind : ∀ t ∈ oldest m.tasks filter limit, (m.find? ∘ Task.id) t = some t :=
    fun t ht => hunique.find (mem_of_mem_oldest ht).1
  rw [List.filterMap_congr hfind, List.filterMap_some]

/-- Two claims answer and report the same, and leave stores with the same tasks. -/
structure SameClaim (s s' : Step Memory (Option Task)) : Prop where
  result : s'.result = s.result
  notices : s'.notices = s.notices
  store : s.store.Rearranges s'.store

theorem Rearranges.claim (h : m.Rearranges m') (hunique : m.Unique) (moment : Moment) (limit : ℕ)
    (time : ZonedTime) : SameClaim (m.claim moment limit time) (m'.claim moment limit time) := by
  unfold Memory.claim locked
  rw [h.poisoned, h.oldest_eq hunique]
  split
  · exact ⟨rfl, rfl, h⟩
  · rcases pick time.hour (oldest m.tasks .waiting limit) with ⟨notices, picked⟩
    cases picked with
    | none => exact ⟨rfl, rfl, h⟩
    | some t => exact ⟨rfl, rfl, h.replace _⟩

theorem Rearranges.list (h : m.Rearranges m') (hunique : m.Unique) (filter : TaskFilter)
    (limit : ℕ) : (m'.list filter limit).result = (m.list filter limit).result := by
  unfold Memory.list locked
  rw [h.poisoned, h.oldest_eq hunique]
  split
  · rfl
  · rfl

theorem list_open (hopen : m.poisoned = false) (filter : TaskFilter) (limit : ℕ) :
    (m.list filter limit).result = .ok (oldest m.tasks filter limit) := by
  unfold Memory.list
  rw [locked_open hopen]
  rfl

end Memory

/-- Whatever heap is used, and in whatever order the tasks are gone through, the scan selects the first
of the admitted tasks in the order of age, as many as asked for.  A listing shows the tasks with these
identifiers, so it does not depend on the order either, and asking for fewer tasks shows the first of
them; nor does a claim depend on the order. -/
theorem scan_selects_first (H : Heap Age η) {m m' : Memory} (hunique : m.Unique)
    (horder : m.Rearranges m') (filter : TaskFilter) :
    (∀ limit,
        H.scan limit (ages m'.tasks filter) = (ages m.tasks filter).mergeSort.take limit ∧
          (oldest m'.tasks filter limit).map Task.id =
            ((ages m.tasks filter).mergeSort.take limit).map Age.id ∧
          (m'.list filter limit).result = (m.list filter limit).result ∧
          (m.poisoned = false → (m.list filter limit).result =
            .ok ((((ages m.tasks filter).mergeSort.take limit).map Age.id).filterMap m.find?))) ∧
      (∀ moment limit time,
        Memory.SameClaim (m.claim moment limit time) (m'.claim moment limit time)) ∧
      ∀ small large, small ≤ large → m.poisoned = false →
        ∃ short long, (m.list filter small).result = .ok short ∧
          (m.list filter large).result = .ok long ∧ short <+: long := by
  have hids : ∀ limit, (oldest m.tasks filter limit).map Task.id =
      ((ages m.tasks filter).mergeSort.take limit).map Age.id := by
    intro limit
    rw [← map_age_oldest, List.map_map]
    rfl
  refine ⟨fun limit => ⟨?_, ?_, horder.list hunique filter limit, fun hopen => ?_⟩,
    horder.claim hunique, fun small large hle hopen => ?_⟩
  · rw [scan_ages, horder.oldest_eq hunique, map_age_oldest]
  · rw [horder.oldest_eq hunique, hids]
  · rw [Memory.list_open hopen, ← hids, hunique.find_oldest]
  · refine ⟨_, _, Memory.list_open hopen filter small, Memory.list_open hopen filter large, ?_⟩
    rw [oldest_eq_take, oldest_eq_take]
    exact List.take_prefix_take_left hle

/-- A task of the given identifier and time of creation. -/
def agedTask (bits : BitVec 128) (seconds : ℤ) : Task :=
  .ofNew ⟨none, "push", .object []⟩ ⟨bits⟩ ⟨seconds, 0⟩

/-- Of three tasks, two of one time and an earlier one, the earlier one is selected and then the one of
the smaller identifier. -/
theorem scan_selects_first_tied :
    let m : Memory := ⟨[agedTask 2 7, agedTask 1 7, agedTask 3 5], false⟩
    let m' : Memory := ⟨[agedTask 3 5, agedTask 2 7, agedTask 1 7], false⟩
    m.Unique ∧ m.Rearranges m' ∧
      (Heap.unordered.scan 2 (ages m'.tasks .all)).map Age.id = [⟨3⟩, ⟨1⟩] ∧
      (m'.list .all 2).result = .ok [agedTask 3 5, agedTask 1 7] ∧
      ∃ short long, (m.list .all 2).result = .ok short ∧ (m.list .all 7).result = .ok long ∧
        short <+: long := by
  intro m m'
  have hunique : m.Unique := by
    unfold Memory.Unique
    decide
  have horder : m.Rearranges m' := ⟨by decide, rfl⟩
  obtain ⟨hselects, -, hprefix⟩ := scan_selects_first Heap.unordered hunique horder .all
  obtain ⟨hscan, hids, -, -⟩ := hselects 2
  refine ⟨hunique, horder, ?_, rfl, hprefix 2 7 (by decide) rfl⟩
  rw [hscan, ← hids]
  decide

end Store

end TaskQueue
