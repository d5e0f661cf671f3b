import Mathlib.Tactic
import TaskQueue.Proofs.FailedRequests
import TaskQueue.Proofs.MemoryLifecycle
import TaskQueue.Proofs.ServedOrder

/-!
# Stores that keep a queue

For a drain a store is a queue of waiting tasks in the order of age, and perhaps the one task that
is being processed.  What a drain asks of the store moves a task out of the queue, changes it while
it is processed and ends it, and leaves all other tasks alone.  Both kinds of store keep such a
queue.
-/

namespace TaskQueue.Store

open Log (counterBound)
open Time (ZonedTime)

variable {σ ρ ω : Type}

/-- Whether the request edits nothing but the result of the task, in a way that can be stored. -/
def Request.Edits (id : TaskId) : Request → Prop
  | .append j _ _ => j = id
  | .patch j p =>
    j = id ∧ p.extra.AllReadable TaskResult.maxExtraHeight ∧ ∀ n, p.seq = some n → n < counterBound
  | _ => False

theorem edits_runReset (id : TaskId) : (Request.patch id .runReset).Edits id := by
  refine ⟨rfl, Json.Object.allReadable_empty _, ?_⟩
  rintro n ⟨⟩
  decide

/-- Whether the records of all other tasks stay as they are. -/
def View.SparesOthers (V : View σ ρ ω) (id : TaskId) (s s' : σ) : Prop :=
  ∀ j, j ≠ id → V.find? s' j = V.find? s j

/-- What a drain relies on.  `Holds s waiting current` says that the tasks `waiting` wait in the
store, in the order of age, and that the task `current` is being processed. -/
structure KeepsQueue (V : View σ ρ ω) (perform : σ → Moment → (r : Request) → Step σ r.Answer)
    (Ready : Moment → Prop) (Holds : σ → List Task → Option TaskId → Prop) : Prop where
  nodup : ∀ {s waiting current}, Holds s waiting current → (waiting.map Task.id).Nodup
  reads : ∀ s moment r, r.IsRead → (perform s moment r).store = s
  lists : ∀ {s waiting current} moment limit, Holds s waiting current →
    (perform s moment (.list .waiting limit)).result = .ok (waiting.take limit)
  looks : ∀ {s waiting id} moment, Holds s waiting (some id) →
    ∃ archived, (perform s moment (.control id)).result = .ok (some ⟨.processing, archived⟩)
  passes : ∀ {s waiting} moment limit (time : ZonedTime), Holds s waiting none →
    firstOpen time.hour limit waiting = none →
    (perform s moment (.claim limit time)).result = .ok none ∧
      (perform s moment (.claim limit time)).store = s
  claims : ∀ {s waiting moment t} limit (time : ZonedTime), Holds s waiting none → Ready moment →
    firstOpen time.hour limit waiting = some t →
    ∃ t', (perform s moment (.claim limit time)).result = .ok (some t') ∧ t'.id = t.id ∧
      Holds (perform s moment (.claim limit time)).store (waiting.filter fun u => u.id ≠ t.id)
        (some t.id) ∧
      V.SparesOthers t.id s (perform s moment (.claim limit time)).store
  patches : ∀ {s waiting id} moment p, Holds s waiting (some id) →
    (perform s moment (.patch id p)).result = (.ok () : Except Fault Unit)
  edits : ∀ {s waiting id moment r a}, Holds s waiting (some id) → r.Edits id →
    (perform s moment r).result = .ok a →
    Holds (perform s moment r).store waiting (some id) ∧
      V.SparesOthers id s (perform s moment r).store
  ends : ∀ {s waiting id status} moment p, Holds s waiting (some id) → status.isTerminal = true →
    (perform s moment (.finalize id p status)).result = (.ok () : Except Fault Unit) ∧
      Holds (perform s moment (.finalize id p status)).store waiting none ∧
      V.SparesOthers id s (perform s moment (.finalize id p status)).store ∧
      ∃ a, V.find? (perform s moment (.finalize id p status)).store id = some a ∧
        V.status a = some status

/-! ## The queue in memory -/

namespace Memory

structure Holds (m : Memory) (waiting : List Task) (current : Option TaskId) : Prop where
  unlocked : m.poisoned = false
  unique : m.Unique
  selected : (m.tasks.filter TaskFilter.waiting.matches).Perm waiting
  ordered : Ordered waiting
  current : ∀ id, current = some id → ∃ t, m.find? id = some t ∧ t.status = .processing

variable {m : Memory} {waiting : List Task} {current : Option TaskId} {id : TaskId}
  {moment : Moment}

namespace Holds

theorem nodup (h : m.Holds waiting current) : (waiting.map Task.id).Nodup :=
  (h.selected.map Task.id).nodup_iff.1 (h.unique.sublist (List.filter_sublist.map _))

theorem oldest_eq (h : m.Holds waiting current) (limit : Nat) :
    oldest m.tasks .waiting limit = waiting.take limit :=
  oldest_of_perm h.selected h.ordered h.nodup limit

/-- A task that does not wait is not in the queue. -/
theorem filter_eq (h : m.Holds waiting current) {t : Task} (hfind : m.find? id = some t)
    (ht : t.status ≠ .queued) : (waiting.filter fun u => u.id ≠ id) = waiting := by
  rw [List.filter_eq_self]
  intro u hu
  obtain ⟨hmem, hmatches⟩ := List.mem_filter.1 (h.selected.mem_iff.2 hu)
  have hqueued := (matches_waiting.1 hmatches).1
  have hne : u.id ≠ id := by
    intro hid
    have hfound := h.unique.find hmem
    rw [hid, hfind] at hfound
    cases hfound
    exact ht hqueued
  simpa using hne

/-- A task is replaced by one that does not wait. -/
theorem replace (h : m.Holds waiting current) {t u : Task} (hfind : m.find? u.id = some t)
    (hu : u.status ≠ .queued) (next : Option TaskId)
    (hnext : ∀ id, next = some id → u.id = id ∧ u.status = .processing) :
    (m.replace u).Holds (waiting.filter fun v => v.id ≠ u.id) next ∧
      Memory.view.SparesOthers u.id m (m.replace u) ∧ (m.replace u).find? u.id = some u := by
  have hmatches : TaskFilter.waiting.matches u = false := by
    rw [Bool.eq_false_iff]
    exact fun hwaits => hu (matches_waiting.1 hwaits).1
  have hfound : (m.replace u).find? u.id = some u := find_replace_self hfind rfl
  refine ⟨⟨h.unlocked, unique_replace h.unique u, ?_, h.ordered.filter _, ?_⟩, ?_, hfound⟩
  · show ((m.tasks.map _).filter _).Perm _
    rw [Records.filter_replace Task.id m.tasks hmatches]
    exact h.selected.filter _
  · intro id hid
    obtain ⟨hu, hstatus⟩ := hnext id hid
    rw [← hu]
    exact ⟨u, hfound, hstatus⟩
  · intro j hj
    show (m.replace u).find? j = _
    rw [find_replace, if_neg hj]
    rfl

/-- The result of the current task is replaced. -/
theorem update (h : m.Holds waiting (some id)) {t : Task} (hfind : m.find? id = some t)
    (ht : t.status = .processing) (result : TaskResult) (now : Time.Instant) :
    (m.replace { t with result := result, updatedAt := now }).Holds waiting (some id) ∧
      Memory.view.SparesOthers id m (m.replace { t with result := result, updatedAt := now }) := by
  have hid := (mem_of_find hfind).2
  have hqueued : t.status ≠ .queued := by
    rw [ht]
    decide
  have hkept := h.filter_eq hfind hqueued
  subst hid
  obtain ⟨hholds, hspares, -⟩ := h.replace (u := { t with result := result, updatedAt := now })
    hfind hqueued (some t.id) fun j hj => ⟨Option.some.inj hj, ht⟩
  rw [hkept] at hholds
  exact ⟨hholds, hspares⟩

theorem claim (h : m.Holds waiting none) (moment : Moment) {limit : Nat} {time : ZonedTime} {t : Task}
    (hsome : firstOpen time.hour limit waiting = some t) :
    (m.claim moment limit time).result = .ok (some (marked moment t)) ∧
      (m.claim moment limit time).store.Holds (waiting.filter fun u => u.id ≠ t.id) (some t.id) ∧
      Memory.view.SparesOthers t.id m (m.claim moment limit time).store ∧
      (m.claim moment limit time).store.find? t.id = some (marked moment t) := by
  rcases hpick : pick time.hour (oldest m.tasks .waiting limit) with ⟨notices, picked⟩
  have hpicked : picked = some t := by
    rw [← hsome, firstOpen, ← pick_eq_find, ← h.oldest_eq, hpick]
  subst hpicked
  have hfind := h.unique.find (mem_of_mem_oldest (mem_of_pick hpick).1).1
  rw [claim_of_pick h.unlocked hpick]
  exact ⟨rfl, h.replace (u := marked moment t) hfind Status.noConfusion (some t.id)
    fun j hj => ⟨Option.some.inj hj, rfl⟩⟩

end Holds

theorem keepsQueue : KeepsQueue view perform (fun _ => True) Holds where
  nodup h := h.nodup
  reads m moment _ hread := store_read m moment hread
  lists {m waiting current} moment limit h := by
    show (m.list .waiting limit).result = _
    unfold list
    rw [locked_open h.unlocked, h.oldest_eq]
    rfl
  looks {m waiting id} moment h := by
    obtain ⟨t, hfind, hstatus⟩ := h.current id rfl
    refine ⟨t.archived, ?_⟩
    show (m.control id).result = _
    unfold control
    rw [locked_open h.unlocked, hfind, ← hstatus]
    rfl
  passes {m waiting} moment limit time h hnone := by
    rcases hpick : pick time.hour (oldest m.tasks .waiting limit) with ⟨notices, picked⟩
    have hpicked : picked = none := by
      rw [← hnone, firstOpen, ← pick_eq_find, ← h.oldest_eq, hpick]
    subst hpicked
    show (m.claim moment limit time).result = _ ∧ (m.claim moment limit time).store = m
    rw [claim_of_none h.unlocked hpick]
    exact ⟨rfl, rfl⟩
  claims {m waiting moment t} limit time h _ hsome := by
    obtain ⟨hresult, hholds, hspares, -⟩ := h.claim moment hsome
    exact ⟨marked moment t, hresult, rfl, hholds, hspares⟩
  patches {m waiting id} moment p h := by
    obtain ⟨t, hfind, hstatus⟩ := h.current id rfl
    show (m.patch moment id p).result = _
    rw [patch_eq_modify, modify_of_find h.unlocked hfind rfl]
    rfl
  edits {m waiting id moment r a} h hedits hok := by
    obtain ⟨t, hfind, hstatus⟩ := h.current id rfl
    cases r with
    | append j lines window =>
        cases hedits
        change (m.append moment id lines window).result = _ at hok
        show (m.append moment id lines window).store.Holds _ _ ∧
          view.SparesOthers id m (m.append moment id lines window).store
        cases hpush : t.result.snapshot.push? lines window with
        | none =>
            unfold append withTask at hok
            rw [locked_open h.unlocked, hfind] at hok
            simp only [hpush] at hok
            cases hok
        | some next =>
            rw [append_of_push h.unlocked hfind hpush]
            exact h.update hfind hstatus _ moment.now
    | patch j p =>
        obtain ⟨rfl, -⟩ := hedits
        show (m.patch moment j p).store.Holds _ _ ∧
          view.SparesOthers j m (m.patch moment j p).store
        rw [patch_eq_modify, modify_of_find h.unlocked hfind rfl]
        exact h.update hfind hstatus _ moment.now
    | _ => exact hedits.elim
  ends {m waiting id status} moment p h hterminal := by
    obtain ⟨t, hfind, hstatus⟩ := h.current id rfl
    have hid := (mem_of_find hfind).2
    have hkept := h.filter_eq hfind (by rw [hstatus]; decide)
    have hended : status ≠ .queued := by
      rintro rfl
      cases hterminal
    subst hid
    obtain ⟨hholds, hspares, hfound⟩ := h.replace
      (u := { t with
        result := t.result.applyFinal p, status := status, updatedAt := moment.now })
      hfind hended none (by simp)
    rw [hkept] at hholds
    show (m.finalize moment t.id p status).result = _ ∧
      (m.finalize moment t.id p status).store.Holds _ _ ∧
      view.SparesOthers t.id m (m.finalize moment t.id p status).store ∧
      ∃ a, (m.finalize moment t.id p status).store.find? t.id = some a ∧ _
    rw [finalize_eq_modify _ _ _ _ hterminal, modify_of_find h.unlocked hfind rfl]
    exact ⟨rfl, hholds, hspares, _, hfound, rfl⟩

end Memory

/-! ## The queue in a table -/

namespace Table

/-- The waiting rows are those of storable tasks; other rows may hold anything. -/
structure HoldsRows (rows : List Row) (waiting : List Task) (current : Option TaskId) : Prop where
  keyed : Keyed rows
  storable : ∀ t ∈ waiting, t.Storable
  selected : (rows.filter (·.isAdmitted .waiting)).Perm (waiting.map Row.ofTask)
  ordered : Ordered waiting
  current : ∀ id, current = some id → ∃ row result, findRow? rows id.text = some row ∧
    row.status = Status.processing.name ∧ Row.resultOf? row.result = some result ∧ result.Storable

def Holds (t : Table) (waiting : List Task) (current : Option TaskId) : Prop :=
  ∃ rows, t = ⟨some rows⟩ ∧ HoldsRows rows waiting current

/-- Whether the clock shows a time that can be stamped, apart from what a stamp cuts off. -/
def Ready (moment : Moment) : Prop :=
  moment.now.truncated.Stampable

variable {rows : List Row} {waiting : List Task} {current : Option TaskId} {id : TaskId}
  {moment : Moment}

theorem Keyed.nodup_of_selected (h : Keyed rows) {tasks : List Task}
    (hselected : (rows.filter (·.isAdmitted .waiting)).Perm (tasks.map Row.ofTask)) :
    (tasks.map Task.id).Nodup := by
  have hrows := h.nodup.sublist
    ((List.filter_sublist (p := (·.isAdmitted .waiting)) (l := rows)).map Row.id)
  have htexts := (hselected.map Row.id).nodup_iff.1 hrows
  rw [List.map_map] at htexts
  have hids : ((tasks.map Task.id).map TaskId.text).Nodup := by
    rw [List.map_map]
    exact htexts
  exact hids.of_map

namespace HoldsRows

theorem nodup (h : HoldsRows rows waiting current) : (waiting.map Task.id).Nodup :=
  h.keyed.nodup_of_selected h.selected

theorem admitted (h : HoldsRows rows waiting current) {t : Task} (ht : t ∈ waiting) :
    TaskFilter.waiting.matches t = true := by
  have hrow := h.selected.mem_iff.2 (List.mem_map_of_mem ht)
  rw [← Row.isAdmitted_ofTask]
  exact (List.mem_filter.1 hrow).2

theorem oldestRows_eq (h : HoldsRows rows waiting current) (limit : Nat) :
    oldestRows rows .waiting limit = (waiting.take limit).map Row.ofTask := by
  have hfilter : oldestRows rows .waiting limit =
      oldestRows (rows.filter (·.isAdmitted .waiting)) .waiting limit := by
    unfold oldestRows
    rw [List.filter_filter]
    simp
  have hself : waiting.filter TaskFilter.waiting.matches = waiting :=
    List.filter_eq_self.2 fun t ht => h.admitted ht
  rw [hfilter, Store.oldestRows_eq ⟨h.storable, h.nodup⟩ h.selected,
    oldest_of_perm (.of_eq hself) h.ordered h.nodup]

theorem pick_eq (h : HoldsRows rows waiting current) (hour limit : Nat) :
    (pick hour (oldestRows rows .waiting limit)).2 =
      (firstOpen hour limit waiting).map Row.ofTask := by
  rw [h.oldestRows_eq, Mirrors.pick_ofTask hour fun t ht => h.storable t (List.mem_of_mem_take ht),
    Store.pick_eq_find]
  rfl

/-- A row that does not wait is not in the queue. -/
theorem filter_eq (h : HoldsRows rows waiting current) {row : Row}
    (hfind : findRow? rows id.text = some row) (hrow : row.status ≠ Status.queued.name) :
    (waiting.filter fun u => u.id ≠ id) = waiting := by
  rw [List.filter_eq_self]
  intro u hu
  obtain ⟨hmem, hadmitted⟩ := List.mem_filter.1 (h.selected.mem_iff.2 (List.mem_map_of_mem hu))
  have hqueued := (isAdmitted_waiting.1 hadmitted).1
  have hne : u.id ≠ id := by
    intro hid
    have hfound := h.keyed.find hmem
    rw [show (Row.ofTask u).id = id.text by rw [← hid]; rfl, hfind] at hfound
    exact hrow ((congrArg Row.status (Option.some.inj hfound)).trans hqueued)
  simpa using hne

/-- A row is replaced by one that does not wait. -/
theorem replace (h : HoldsRows rows waiting current) {a b : Row}
    (hfind : findRow? rows id.text = some a) (hid : b.id = id.text)
    (hb : b.status ≠ Status.queued.name) (next : Option TaskId)
    (hnext : ∀ j, next = some j → j = id ∧ b.status = Status.processing.name ∧
      ∃ result, Row.resultOf? b.result = some result ∧ result.Storable) :
    Holds (replaceRow rows b) (waiting.filter fun u => u.id ≠ id) next ∧
      view.SparesOthers id ⟨some rows⟩ (replaceRow rows b) ∧
      view.find? (replaceRow rows b) id = some b := by
  have hadmitted : b.isAdmitted .waiting = false := by
    rw [Bool.eq_false_iff]
    exact fun hwaits => hb (isAdmitted_waiting.1 hwaits).1
  have hfound : view.find? (replaceRow rows b) id = some b := find_replaceRow_self hfind hid
  have hsame : b.id = a.id := hid.trans (id_of_find hfind).2.symm
  refine ⟨⟨_, rfl, h.keyed.replaceRow hfind hsame _ rfl, ?_, ?_, h.ordered.filter _, ?_⟩, ?_, hfound⟩
  · exact fun t ht => h.storable t (List.mem_of_mem_filter ht)
  · rw [Records.filter_replace Row.id rows hadmitted]
    have hselected := h.selected.filter fun s => s.id ≠ b.id
    rw [List.filter_map] at hselected
    have htext : ((fun s : Row => decide (s.id ≠ b.id)) ∘ Row.ofTask) =
        fun u : Task => decide (u.id ≠ id) := by
      funext u
      rw [hid]
      simp [Row.ofTask, TaskId.text_inj]
    rw [htext] at hselected
    exact hselected
  · intro j hj
    obtain ⟨rfl, hstatus, result, hread, hstorable⟩ := hnext j hj
    exact ⟨b, result, hfound, hstatus, hread, hstorable⟩
  · intro j hj
    rw [find_replaceRow, if_neg (fun htext => hj (TaskId.text_inj.1 (htext.trans hid)))]
    rfl

/-- The result of the current row is replaced. -/
theorem update (h : HoldsRows rows waiting (some id)) {row : Row}
    (hfind : findRow? rows id.text = some row) (hrow : row.status = Status.processing.name)
    {result : TaskResult} (hstorable : result.Storable) (stamp : String) :
    Holds (replaceRow rows { row with result := result.encode.compact, updatedAt := stamp })
        waiting (some id) ∧
      view.SparesOthers id ⟨some rows⟩
        (replaceRow rows { row with result := result.encode.compact, updatedAt := stamp }) := by
  have hqueued : row.status ≠ Status.queued.name := by
    rw [hrow]
    decide
  obtain ⟨hholds, hspares, -⟩ := h.replace
    (b := { row with result := result.encode.compact, updatedAt := stamp }) hfind
    (id_of_find hfind).2 hqueued (some id) fun j hj =>
      ⟨(Option.some.inj hj).symm, hrow, result, Row.resultOf_compact hstorable, hstorable⟩
  rw [h.filter_eq hfind hqueued] at hholds
  exact ⟨hholds, hspares⟩

theorem claim (h : HoldsRows rows waiting none) (hready : Ready moment) (limit : Nat)
    (time : ZonedTime) {t : Task} (hsome : firstOpen time.hour limit waiting = some t) :
    ∃ t', (Table.claim ⟨some rows⟩ moment limit time).result = .ok (some t') ∧ t'.id = t.id ∧
      Holds (Table.claim ⟨some rows⟩ moment limit time).store
        (waiting.filter fun u => u.id ≠ t.id) (some t.id) ∧
      view.SparesOthers t.id ⟨some rows⟩ (Table.claim ⟨some rows⟩ moment limit time).store := by
  rcases hpick : pick time.hour (oldestRows rows .waiting limit) with ⟨notices, picked⟩
  have hpicked : picked = some (Row.ofTask t) := by
    have hrow := h.pick_eq time.hour limit
    rw [hpick, hsome] at hrow
    exact hrow
  subst hpicked
  have ht : t ∈ waiting := List.mem_of_mem_take (List.mem_of_find?_eq_some hsome)
  have hstored := h.storable t ht
  have hrow : Row.ofTask t ∈ rows :=
    (mem_of_mem_oldestRows (mem_of_pick (congrArg Prod.snd hpick))).1
  -- The clock may be finer than a stamp, so the task comes back with its time cut off.
  have htaken : taken moment (Row.ofTask t) =
      Row.ofTask { t with status := .processing, updatedAt := moment.now.truncated } := by
    rw [taken, ← Time.Instant.stamp_truncated]
    rfl
  have htask := Row.task_ofTask (hstored.update .processing t.archived hstored.result hready)
  rw [← htaken] at htask
  have hfind := h.keyed.find hrow
  rw [show (Row.ofTask t).id = t.id.text from rfl] at hfind
  have hread : Row.resultOf? (taken moment (Row.ofTask t)).result = some t.result :=
    Row.resultOf_compact hstored.result
  have hmarked : (taken moment (Row.ofTask t)).status = Status.processing.name := rfl
  have hqueued : (taken moment (Row.ofTask t)).status ≠ Status.queued.name := by
    rw [hmarked]
    decide
  obtain ⟨hholds, hspares, -⟩ := h.replace hfind (b := taken moment (Row.ofTask t)) rfl hqueued
    (some t.id) fun j hj =>
      ⟨(Option.some.inj hj).symm, hmarked, t.result, hread, hstored.result⟩
  rw [claim_of_pick rfl hpick, htask]
  exact ⟨_, rfl, rfl, hholds, hspares⟩

theorem append (h : HoldsRows rows waiting (some id)) {lines : List String} {window : Nat}
    {a : Log.Snapshot} (hok : (Table.append ⟨some rows⟩ moment id lines window).result = .ok a) :
    Holds (Table.append ⟨some rows⟩ moment id lines window).store waiting (some id) ∧
      view.SparesOthers id ⟨some rows⟩ (Table.append ⟨some rows⟩ moment id lines window).store := by
  obtain ⟨row, result, hfind, hstatus, hread, hstorable⟩ := h.current id rfl
  cases hpush : result.snapshot.push? lines window with
  | none =>
      rw [append_of_full rfl hfind hread hpush] at hok
      cases hok
  | some next =>
      have hupdate := h.update hfind hstatus (hstorable.push hpush) moment.now.stamp
      rw [append_of_push rfl hfind hread hpush]
      exact hupdate

theorem patch (h : HoldsRows rows waiting (some id)) {p : ResultPatch}
    (hextra : p.extra.AllReadable TaskResult.maxExtraHeight)
    (hseq : ∀ n, p.seq = some n → n < counterBound) :
    Holds (Table.patch ⟨some rows⟩ moment id p).store waiting (some id) ∧
      view.SparesOthers id ⟨some rows⟩ (Table.patch ⟨some rows⟩ moment id p).store := by
  obtain ⟨row, result, hfind, hstatus, hread, hstorable⟩ := h.current id rfl
  have hnext : (result.apply p).seq < counterBound := by
    show p.seq.getD result.seq < counterBound
    cases hp : p.seq with
    | none => exact hstorable.seq
    | some n => exact hseq n hp
  have hupdate := h.update hfind hstatus (hstorable.apply hextra hnext) moment.now.stamp
  rw [Table.patch, modify_of_find rfl hfind hread rfl]
  exact hupdate

theorem finalize (h : HoldsRows rows waiting (some id)) (p : ResultPatch) {status : Status}
    (hterminal : status.isTerminal = true) :
    (Table.finalize ⟨some rows⟩ moment id p status).result = .ok () ∧
      Holds (Table.finalize ⟨some rows⟩ moment id p status).store waiting none ∧
      view.SparesOthers id ⟨some rows⟩ (Table.finalize ⟨some rows⟩ moment id p status).store ∧
      ∃ a, view.find? (Table.finalize ⟨some rows⟩ moment id p status).store id = some a ∧
        view.status a = some status := by
  obtain ⟨row, result, hfind, hstatus, hread, -⟩ := h.current id rfl
  have hended : status.name ≠ Status.queued.name := by
    intro hname
    rw [Row.name_inj.1 hname] at hterminal
    cases hterminal
  obtain ⟨hholds, hspares, hfound⟩ := h.replace
    (b := { row with
      result := (result.applyFinal p).encode.compact
      status := status.name
      updatedAt := moment.now.stamp })
    hfind (id_of_find hfind).2 hended none (by simp)
  rw [h.filter_eq hfind (by rw [hstatus]; decide)] at hholds
  rw [Table.finalize, if_pos hterminal, modify_of_find rfl hfind hread rfl]
  exact ⟨rfl, hholds, hspares, _, hfound, Status.ofName?_name status⟩

end HoldsRows

theorem keepsQueue : KeepsQueue view perform Ready Holds where
  nodup := by
    rintro _ waiting current ⟨rows, rfl, h⟩
    exact h.nodup
  reads t moment _ hread := store_read t moment hread
  lists := by
    rintro _ waiting current moment limit ⟨rows, rfl, h⟩
    show (list ⟨some rows⟩ .waiting limit).result = _
    unfold list withRows answer
    simp only
    rw [h.oldestRows_eq, Mirrors.mapM_task fun t ht => h.storable t (List.mem_of_mem_take ht)]
    rfl
  looks := by
    rintro _ waiting id moment ⟨rows, rfl, h⟩
    obtain ⟨row, result, hfind, hstatus, -⟩ := h.current id rfl
    refine ⟨row.archived, ?_⟩
    show (control ⟨some rows⟩ id).result = _
    unfold control withRows answer
    simp only [hfind]
    rw [hstatus, Row.statusOf_name]
    rfl
  passes := by
    rintro _ waiting moment limit time ⟨rows, rfl, h⟩ hnone
    rcases hpick : pick time.hour (oldestRows rows .waiting limit) with ⟨notices, picked⟩
    have hpicked : picked = none := by
      have hrow := h.pick_eq time.hour limit
      rw [hpick, hnone] at hrow
      exact hrow
    subst hpicked
    show (claim ⟨some rows⟩ moment limit time).result = _ ∧
      (claim ⟨some rows⟩ moment limit time).store = _
    rw [claim_of_none rfl hpick]
    exact ⟨rfl, rfl⟩
  claims := by
    rintro _ waiting moment t limit time ⟨rows, rfl, h⟩ hready hsome
    exact h.claim hready limit time hsome
  patches := by
    rintro _ waiting id moment p ⟨rows, rfl, h⟩
    obtain ⟨row, result, hfind, -, hread, -⟩ := h.current id rfl
    show (patch ⟨some rows⟩ moment id p).result = _
    rw [patch, modify_of_find rfl hfind hread rfl]
    rfl
  edits := by
    rintro _ waiting id moment r a ⟨rows, rfl, h⟩ hedits hok
    cases r with
    | append j lines window =>
        cases hedits
        exact h.append hok
    | patch j p =>
        obtain ⟨rfl, hextra, hseq⟩ := hedits
        exact h.patch hextra hseq
    | _ => exact hedits.elim
  ends := by
    rintro _ waiting id status moment p ⟨rows, rfl, h⟩ hterminal
    exact h.finalize p hterminal

end Table

end TaskQueue.Store
