import Mathlib.Data.String.Basic
import Mathlib.Tactic
import TaskQueue.Proofs.RowRoundTrip
import TaskQueue.Store.Selection
import TaskQueue.Store.Table

/-!
# The oldest tasks and the oldest rows

Keeping the oldest tasks while going through a list gives the same as sorting the list by age and
taking its front.  A table sorts the texts of its rows instead.  As long as the rows are those of
storable tasks with distinct identifiers, both select the same tasks in the same order.
-/

namespace TaskQueue

/-! ## Age -/

namespace Task

theorem before_iff (a b : Task) :
    a.before b = true ↔
      a.createdAt.seconds < b.createdAt.seconds ∨
        (a.createdAt.seconds = b.createdAt.seconds ∧
          (a.createdAt.nanos < b.createdAt.nanos ∨
            (a.createdAt.nanos = b.createdAt.nanos ∧ a.id.bits.toNat < b.id.bits.toNat))) := by
  have hsame : a.createdAt = b.createdAt ↔
      a.createdAt.seconds = b.createdAt.seconds ∧ a.createdAt.nanos = b.createdAt.nanos := by
    cases a.createdAt
    cases b.createdAt
    simp
  unfold before Time.Instant.before TaskId.before
  simp only [decide_eq_true_eq, hsame]
  tauto

/-- Whether `a` is not younger than `b`. -/
def NotYounger (a b : Task) : Prop :=
  b.before a = false

theorem notYounger_of_before {a b : Task} (h : a.before b = true) : NotYounger a b := by
  unfold NotYounger
  rw [← Bool.not_eq_true, before_iff]
  rw [before_iff] at h
  omega

theorem NotYounger.trans {a b c : Task} (hab : NotYounger a b) (hbc : NotYounger b c) :
    NotYounger a c := by
  unfold NotYounger at *
  rw [← Bool.not_eq_true, before_iff] at *
  omega

/-- Of two tasks neither of which is younger the identifiers agree. -/
theorem NotYounger.id_eq {a b : Task} (hab : NotYounger a b) (hba : NotYounger b a) :
    a.id = b.id := by
  unfold NotYounger at *
  rw [← Bool.not_eq_true, before_iff] at *
  have hbits : a.id.bits = b.id.bits := BitVec.eq_of_toNat_eq (by omega)
  cases ha : a.id
  cases hb : b.id
  simpa [ha, hb] using hbits

end Task

namespace Store

/-! ## Selecting while going through a list -/

theorem perm_insertByAge (t : Task) (ts : List Task) : (insertByAge t ts).Perm (t :: ts) := by
  induction ts with
  | nil => exact List.Perm.refl _
  | cons u rest ih =>
      unfold insertByAge
      split
      · exact (ih.cons u).trans (List.Perm.swap t u rest)
      · exact List.Perm.refl _

theorem pairwise_insertByAge (t : Task) {ts : List Task} (hts : ts.Pairwise Task.NotYounger) :
    (insertByAge t ts).Pairwise Task.NotYounger := by
  induction ts with
  | nil => simp [insertByAge]
  | cons u rest ih =>
      obtain ⟨hu, hrest⟩ := List.pairwise_cons.1 hts
      unfold insertByAge
      split
      · rename_i hbefore
        refine List.pairwise_cons.2 ⟨?_, ih hrest⟩
        intro v hv
        rcases List.mem_cons.1 ((perm_insertByAge t rest).mem_iff.1 hv) with hv | hv
        · rw [hv]
          exact Task.notYounger_of_before hbefore
        · exact hu v hv
      · rename_i hnot
        have htu : Task.NotYounger t u := by simpa [Task.NotYounger] using hnot
        refine List.pairwise_cons.2 ⟨?_, hts⟩
        intro v hv
        rcases List.mem_cons.1 hv with hv | hv
        · rw [hv]
          exact htu
        · exact htu.trans (hu v hv)

/-- Dropping the youngest ones early does not change who is kept in the end. -/
theorem take_insertByAge (limit : Nat) (t : Task) (ts : List Task) :
    (insertByAge t (ts.take limit)).take limit = (insertByAge t ts).take limit := by
  induction ts generalizing limit with
  | nil => simp
  | cons u rest ih =>
      cases limit with
      | zero => simp
      | succ limit =>
          rw [List.take_succ_cons]
          unfold insertByAge
          split
          · rw [List.take_succ_cons, List.take_succ_cons, ih]
          · rw [List.take_succ_cons, List.take_succ_cons]
            cases limit with
            | zero => rfl
            | succ limit => simp [List.take_take]

theorem keepOldest_eq (limit : Nat) (t : Task) (ts : List Task) :
    keepOldest limit (ts.take limit) t = (insertByAge t ts).take limit := by
  have hlength : (insertByAge t (ts.take limit)).length = (ts.take limit).length + 1 :=
    (perm_insertByAge t _).length_eq
  have htake : (ts.take limit).length ≤ limit := List.length_take_le limit ts
  rw [← take_insertByAge]
  unfold keepOldest
  simp only
  split
  · rw [List.dropLast_eq_take]
    congr 1
    omega
  · exact (List.take_of_length_le (by omega)).symm

/-- The tasks sorted by age. -/
def byAge (tasks : List Task) : List Task :=
  tasks.foldl (fun sorted t => insertByAge t sorted) []

theorem perm_byAge (tasks : List Task) : (byAge tasks).Perm tasks := by
  have hfold : ∀ (tasks sorted : List Task),
      (tasks.foldl (fun sorted t => insertByAge t sorted) sorted).Perm (sorted ++ tasks) := by
    intro tasks
    induction tasks with
    | nil => simp
    | cons t rest ih =>
        intro sorted
        have hinsert : (insertByAge t sorted ++ rest).Perm (sorted ++ t :: rest) :=
          ((perm_insertByAge t sorted).append_right rest).trans List.perm_middle.symm
        exact (ih _).trans hinsert
  exact hfold tasks []

theorem pairwise_byAge (tasks : List Task) : (byAge tasks).Pairwise Task.NotYounger := by
  have hfold : ∀ (tasks sorted : List Task), sorted.Pairwise Task.NotYounger →
      (tasks.foldl (fun sorted t => insertByAge t sorted) sorted).Pairwise Task.NotYounger := by
    intro tasks
    induction tasks with
    | nil => exact fun _ h => h
    | cons t rest ih => exact fun sorted h => ih _ (pairwise_insertByAge t h)
  exact hfold tasks [] List.Pairwise.nil

/-- Keeping the oldest tasks on the way is sorting first and taking the front. -/
theorem oldest_eq_take (tasks : List Task) (filter : TaskFilter) (limit : Nat) :
    oldest tasks filter limit = (byAge (tasks.filter filter.matches)).take limit := by
  have hfold : ∀ tasks sorted : List Task,
      tasks.foldl (keepOldest limit) (sorted.take limit) =
        (tasks.foldl (fun sorted t => insertByAge t sorted) sorted).take limit := by
    intro tasks
    induction tasks with
    | nil => exact fun _ => rfl
    | cons t rest ih =>
        intro sorted
        rw [List.foldl_cons, keepOldest_eq, ih, List.foldl_cons]
  have h := hfold (tasks.filter filter.matches) []
  rwa [List.take_nil] at h

theorem mem_of_mem_oldest {tasks : List Task} {filter : TaskFilter} {limit : Nat} {t : Task}
    (ht : t ∈ oldest tasks filter limit) : t ∈ tasks ∧ filter.matches t = true := by
  rw [oldest_eq_take] at ht
  have hmem := (perm_byAge _).mem_iff.1 (List.mem_of_mem_take ht)
  exact List.mem_filter.1 hmem

/-! ## Selecting from sorted rows -/

namespace Row

/-- Rows are compared by the texts of time and identifier. -/
theorem before_eq (a b : Row) :
    a.before b = decide (toLex (a.createdAt, a.id) < toLex (b.createdAt, b.id)) := by
  unfold before
  rw [decide_eq_decide, Prod.Lex.toLex_lt_toLex]

/-- Whether `a` is not younger than `b`, going by their texts. -/
def notYounger (a b : Row) : Bool :=
  !b.before a

theorem notYounger_trans (a b c : Row) (hab : notYounger a b = true)
    (hbc : notYounger b c = true) : notYounger a c = true := by
  simp only [notYounger, before_eq, Bool.not_eq_true', decide_eq_false_iff_not, not_lt] at *
  exact hab.trans hbc

theorem notYounger_antisymm {a b : Row} (hab : notYounger a b = true)
    (hba : notYounger b a = true) : a.id = b.id := by
  simp only [notYounger, before_eq, Bool.not_eq_true', decide_eq_false_iff_not, not_lt] at *
  exact congrArg (fun key => (ofLex key).2) (hab.antisymm hba)

theorem notYounger_total (a b : Row) : (notYounger a b || notYounger b a) = true := by
  simp only [notYounger, before_eq, Bool.or_eq_true, Bool.not_eq_true', decide_eq_false_iff_not,
    not_lt]
  exact le_total _ _

end Row

/-- Whether every task can be written as a row, and no two have the same identifier. -/
structure Distinct (tasks : List Task) : Prop where
  storable : ∀ t ∈ tasks, t.Storable
  nodup : (tasks.map Task.id).Nodup

theorem Distinct.eq_of_id {tasks : List Task} (h : Distinct tasks) {a b : Task} (ha : a ∈ tasks)
    (hb : b ∈ tasks) (hid : a.id = b.id) : a = b :=
  List.inj_on_of_nodup_map h.nodup ha hb hid

theorem nodup_texts {tasks : List Task} (h : (tasks.map Task.id).Nodup) :
    (tasks.map fun t => t.id.text).Nodup := by
  have htexts := h.map fun a b hab => TaskId.text_inj.1 hab
  rw [List.map_map] at htexts
  exact htexts

theorem perm_filter_rows {rows : List Row} {tasks : List Task}
    (hrows : rows.Perm (tasks.map Row.ofTask)) (filter : TaskFilter) :
    (rows.filter (·.isAdmitted filter)).Perm
      ((byAge (tasks.filter filter.matches)).map Row.ofTask) := by
  have hfilter := hrows.filter (·.isAdmitted filter)
  rw [List.filter_map] at hfilter
  have hsame : ((fun r : Row => r.isAdmitted filter) ∘ Row.ofTask) = filter.matches := by
    funext t
    exact Row.isAdmitted_ofTask t filter
  rw [hsame] at hfilter
  exact hfilter.trans ((perm_byAge _).map Row.ofTask).symm

/-- The oldest rows that a table selects are the front of the rows in the order of their texts. -/
theorem oldestRows_of_perm {rows selected : List Row} {filter : TaskFilter}
    (hids : (rows.map Row.id).Nodup) (hperm : (rows.filter (·.isAdmitted filter)).Perm selected)
    (hsorted : selected.Pairwise fun a b => Row.notYounger a b = true) (limit : Nat) :
    Table.oldestRows rows filter limit = selected.take limit := by
  have hsort := (List.mergeSort_perm (rows.filter (·.isAdmitted filter)) Row.notYounger).trans hperm
  have hmem : ∀ {r : Row}, r ∈ selected → r ∈ rows :=
    fun hr => List.mem_of_mem_filter (hperm.mem_iff.2 hr)
  -- Both are sorted lists of the same rows, and no tie is left that identifiers do not break.
  have heq : (rows.filter (·.isAdmitted filter)).mergeSort Row.notYounger = selected := by
    refine List.Perm.eq_of_pairwise ?_
      (List.pairwise_mergeSort Row.notYounger_trans Row.notYounger_total _) hsorted hsort
    intro r s hr hs hrs hsr
    exact List.inj_on_of_nodup_map hids (hmem (hsort.mem_iff.1 hr)) (hmem hs)
      (Row.notYounger_antisymm hrs hsr)
  unfold Table.oldestRows
  rw [← heq]
  rfl

/-- The rows that a table selects are those of the tasks that a store in memory selects. -/
theorem oldestRows_eq {rows : List Row} {tasks : List Task} (htasks : Distinct tasks)
    (hrows : rows.Perm (tasks.map Row.ofTask)) (filter : TaskFilter) (limit : Nat) :
    Table.oldestRows rows filter limit = (oldest tasks filter limit).map Row.ofTask := by
  have hids : (rows.map Row.id).Nodup := by
    rw [(hrows.map Row.id).nodup_iff, List.map_map]
    exact nodup_texts htasks.nodup
  have hstorable : ∀ t ∈ byAge (tasks.filter filter.matches), t.Storable :=
    fun t ht => htasks.storable t (List.mem_of_mem_filter ((perm_byAge _).mem_iff.1 ht))
  have hsorted : ((byAge (tasks.filter filter.matches)).map Row.ofTask).Pairwise
      fun a b => Row.notYounger a b = true := by
    rw [List.pairwise_map]
    refine (pairwise_byAge _).imp_of_mem ?_
    intro a b ha hb hab
    unfold Row.notYounger
    rw [Row.before_ofTask (hstorable b hb) (hstorable a ha), hab]
    rfl
  rw [oldestRows_of_perm hids (perm_filter_rows hrows filter) hsorted, oldest_eq_take, List.map_take]

end Store

end TaskQueue
