import Mathlib.Tactic
import TaskQueue.Proofs.MemoryLifecycle
import TaskQueue.Proofs.TableLifecycle

/-!
# What a request does to a log

A request rewrites the result that it finds, or leaves all results as they are.  The log that a
store shows for a task afterwards is the log from before, the one in the rewritten result, or the
empty log of a new task; or there is no log any more.  `recorded_perform` says so for both kinds of
store, whatever the request and its answer, and also when an operation crashes halfway.
-/

namespace TaskQueue.Store

open Log (Snapshot)

namespace Request

/-- Whether the request leaves every log as it is. -/
def KeepsLogs : Request → Prop
  | .get _ | .list _ _ | .claim _ _ | .control _ | .snapshot _ | .pause _ | .archive _ _ => True
  | _ => False

/-- What the request makes of a result; none if the lines cannot be counted any further. -/
def rewritten? : Request → TaskResult → Option TaskResult
  | .patch _ p, result => some (result.apply p)
  | .finalize _ p _, result => some (result.applyFinal p)
  | .append _ lines window, result => (result.snapshot.push? lines window).map result.withLog
  | .retry _, result => some (result.apply .runReset)
  | _, result => some result

end Request

/-- The log of a task after a request, given the one before. -/
inductive Recorded (moment : Moment) (r : Request) (id : TaskId) (before : Option Snapshot) :
    Option Snapshot → Prop where
  | kept : Recorded moment r id before before
  | gone (hwrites : ¬r.KeepsLogs) : Recorded moment r id before none
  | changed {a b : TaskResult} (htarget : r.target? = some id)
    (hbefore : before = some a.snapshot) (hchange : r.rewritten? a = some b) :
    Recorded moment r id before (some b.snapshot)
  | created {new : NewTask} (hrequest : r = .enqueue new) (hid : r.newId? moment = some id) :
    Recorded moment r id before (some .empty)
  | inserted {task : Task} (hrequest : r = .insert task) (hid : r.newId? moment = some id) :
    Recorded moment r id before (some task.result.snapshot)

variable {r : Request} {moment : Moment} {id j : TaskId}

theorem Recorded.same {before after : Option Snapshot} (h : Recorded moment r id before after)
    (hkeeps : r.KeepsLogs) : after = before := by
  cases h with
  | kept => rfl
  | gone hwrites => exact absurd hkeeps hwrites
  | changed htarget hbefore hchange =>
      cases r with
      | get id | list filter limit | claim limit time | control id | snapshot id | pause id
      | archive id archived =>
          rw [hbefore, Option.some.inj hchange]
      | _ => exact hkeeps.elim
  | created hrequest hid | inserted hrequest hid =>
      rw [hrequest] at hkeeps
      exact hkeeps.elim

/-- A request that deals with other tasks does nothing to the log, unless it takes the whole store
down. -/
theorem Recorded.other {before after : Option Snapshot} (h : Recorded moment r id before after)
    (htarget : r.target? ≠ some id) (hnew : r.newId? moment ≠ some id) :
    after = before ∨ after = none := by
  cases h with
  | kept => exact Or.inl rfl
  | gone hwrites => exact Or.inr rfl
  | changed hsame hbefore hchange => exact absurd hsame htarget
  | created hrequest hid | inserted hrequest hid => exact absurd hid hnew

/-! ## In memory -/

namespace Memory

variable {m : Memory}

/-- The log that the store shows for a task. -/
def log? (m : Memory) (id : TaskId) : Option Snapshot :=
  (m.find? id).map fun t => t.result.snapshot

theorem log_replace {t u : Task} (hfind : m.find? id = some t) (hid : u.id = id) (j : TaskId) :
    (m.replace u).log? j = if j = id then some u.result.snapshot else m.log? j := by
  unfold log?
  rw [find_replace, hid]
  by_cases hj : j = id
  · simp [hj, hfind]
  · simp [hj]

theorem recorded_replace {s : Memory} {t u : Task} (hstore : s.tasks = (m.replace u).tasks)
    (hfind : m.find? id = some t) (hid : u.id = t.id)
    (hresult : u.result = t.result ∨
      r.target? = some id ∧ r.rewritten? t.result = some u.result) :
    Recorded moment r j (m.log? j) (s.log? j) := by
  have hafter : s.log? j = (m.replace u).log? j := by
    unfold log? find?
    rw [hstore]
  rw [hafter, log_replace hfind (hid.trans (mem_of_find hfind).2)]
  by_cases hj : j = id
  · have hbefore : m.log? j = some t.result.snapshot := by simp [log?, hj, hfind]
    rw [if_pos hj]
    rcases hresult with hsame | ⟨htarget, hchange⟩
    · rw [hsame, ← hbefore]
      exact .kept
    · exact .changed (hj ▸ htarget) hbefore hchange
  · rw [if_neg hj]
    exact .kept

theorem recorded_read {s : Memory} (hstore : s = m) :
    Recorded moment r j (m.log? j) (s.log? j) := by
  rw [hstore]
  exact .kept

variable (hopen : m.poisoned = false)
include hopen

theorem recorded_withTask {missing : Except Fault r.Answer} {f : Task → Step Memory r.Answer}
    (hf : ∀ t, m.find? id = some t → Recorded moment r j (m.log? j) ((f t).store.log? j)) :
    Recorded moment r j (m.log? j) ((m.withTask id missing f).store.log? j) := by
  unfold withTask
  rw [locked_open hopen]
  cases hfind : m.find? id with
  | none => exact .kept
  | some t => exact hf t hfind

theorem recorded_insert {step : Step Memory r.Answer} {t : Task}
    (hstore : step.store = (m.insert t).store)
    (hnew : ∀ before, Recorded moment r t.id before (some t.result.snapshot)) :
    Recorded moment r j (m.log? j) (step.store.log? j) := by
  have hafter := find_insert m t j
  rw [hstore, insert, locked_open hopen]
  unfold log?
  simp only [Step.done]
  rw [hafter]
  by_cases hj : j = t.id
  · rw [if_pos hj, hj]
    exact hnew _
  · rw [if_neg hj]
    exact .kept

omit hopen

theorem recorded_perform (hunique : m.Unique) (moment : Moment) (r : Request) (j : TaskId) :
    Recorded moment r j (m.log? j) ((m.perform moment r).store.log? j) := by
  cases hopen : m.poisoned with
  | true =>
      rw [(perform_poisoned hopen r).1]
      exact .kept
  | false =>
      cases r with
      | enqueue new =>
          exact recorded_insert hopen (t := Task.ofNew new moment.freshId moment.created) rfl
            (fun _ => .created rfl rfl)
      | insert task => exact recorded_insert hopen rfl (fun _ => .inserted rfl rfl)
      | claim limit time =>
          rcases hpick : pick time.hour (oldest m.tasks .waiting limit) with ⟨notices, picked⟩
          cases picked with
          | none =>
              rw [perform, claim_of_none hopen hpick]
              exact .kept
          | some t =>
              have ht := (mem_of_mem_oldest (mem_of_pick hpick).1).1
              rw [perform, claim_of_pick hopen hpick]
              exact recorded_replace rfl (hunique.find ht) rfl (Or.inl rfl)
      | patch id p =>
          exact recorded_withTask hopen
            (fun t hfind => recorded_replace rfl hfind rfl (Or.inr ⟨rfl, rfl⟩))
      | finalize id p status =>
          rw [perform, finalize]
          split
          · exact recorded_withTask hopen
              (fun t hfind => recorded_replace rfl hfind rfl (Or.inr ⟨rfl, rfl⟩))
          · exact .kept
      | append id lines window =>
          apply recorded_withTask hopen
          intro t hfind
          cases hpush : t.result.snapshot.push? lines window with
          | none => exact .kept
          | some s =>
              have hchange : (Request.append id lines window).rewritten? t.result =
                  some (t.result.withLog s) := congrArg (Option.map t.result.withLog) hpush
              exact recorded_replace rfl hfind rfl (Or.inr ⟨rfl, hchange⟩)
      | pause id =>
          apply recorded_withTask hopen
          intro t hfind
          split
          · exact recorded_replace rfl hfind rfl (Or.inl rfl)
          · exact .kept
      | retry id =>
          apply recorded_withTask hopen
          intro t hfind
          split
          · split
            · exact recorded_replace rfl hfind rfl (Or.inr ⟨rfl, rfl⟩)
            · -- The crash comes after the change of the status.
              exact recorded_replace (u := { t with status := .queued }) rfl hfind rfl (Or.inl rfl)
          · exact .kept
      | archive id archived =>
          exact recorded_withTask hopen
            (fun t hfind => recorded_replace rfl hfind rfl (Or.inl rfl))
      | delete id =>
          have hafter := find_delete m id j
          rw [perform, delete, locked_open hopen]
          unfold log?
          simp only [Step.done]
          rw [hafter]
          split
          · exact .gone not_false
          · exact .kept
      | get id | list filter limit | control id | snapshot id =>
          exact recorded_read (store_read m moment trivial)

end Memory

/-! ## In a table -/

namespace Table

variable {t : Table} {rows : List Row}

/-- The log that the table shows for a task, if there is a row whose result can be read. -/
def log? (t : Table) (id : TaskId) : Option Snapshot :=
  (view.find? t id).bind fun row => (Row.resultOf? row.result).map TaskResult.snapshot

theorem log_of_rows (hrows : t.rows = some rows) (id : TaskId) :
    t.log? id =
      (findRow? rows id.text).bind fun row => (Row.resultOf? row.result).map TaskResult.snapshot := by
  unfold log?
  rw [find_of_rows hrows]

theorem log_replaceRow {a b : Row} (hrows : t.rows = some rows)
    (hfind : findRow? rows id.text = some a) (hid : b.id = id.text) (j : TaskId) :
    (replaceRow rows b).log? j =
      if j = id then (Row.resultOf? b.result).map TaskResult.snapshot else t.log? j := by
  rw [log_of_rows hrows]
  unfold log?
  rw [find_replaceRow, hid]
  by_cases hj : j = id
  · simp [hj, hfind]
  · simp [hj, TaskId.text_inj]

theorem recorded_replaceRow {s : Table} {a b : Row} (hstore : s = replaceRow rows b)
    (hrows : t.rows = some rows)
    (hfind : findRow? rows id.text = some a) (hid : b.id = id.text)
    (hresult : b.result = a.result ∨
      ¬r.KeepsLogs ∧ r.target? = some id ∧ ∃ old new, Row.resultOf? a.result = some old ∧
        r.rewritten? old = some new ∧ b.result = new.encode.compact) :
    Recorded moment r j (t.log? j) (s.log? j) := by
  rw [hstore, log_replaceRow hrows hfind hid]
  by_cases hj : j = id
  · have hbefore : t.log? j = (Row.resultOf? a.result).map TaskResult.snapshot := by
      rw [log_of_rows hrows, hj, hfind]
      rfl
    rw [if_pos hj]
    rcases hresult with hsame | ⟨hwrites, htarget, old, new, hread, hchange, htext⟩
    · rw [hsame, ← hbefore]
      exact .kept
    · rw [htext]
      cases hback : Row.resultOf? new.encode.compact with
      | none => exact .gone hwrites
      | some shown =>
          rw [Option.map_some, TaskResult.snapshot_of_read hback]
          exact .changed (hj ▸ htarget) (by rw [hbefore, hread]; rfl) hchange
  · rw [if_neg hj]
    exact .kept

theorem recorded_read {s : Table} (hstore : s = t) :
    Recorded moment r j (t.log? j) (s.log? j) := by
  rw [hstore]
  exact .kept

/-- A change to a result, of which the new text may turn out to be unreadable. -/
theorem recorded_modify {status : Option Status}
    {f : TaskResult → Option (TaskResult × r.Answer)} (hwrites : ¬r.KeepsLogs)
    (htarget : r.target? = some id)
    (hf : ∀ old new a, f old = some (new, a) → r.rewritten? old = some new) :
    Recorded moment r j (t.log? j) ((t.modify moment id status f).store.log? j) := by
  apply store_withRows (P := fun s => Recorded moment r j (t.log? j) (s.log? j)) .kept
  intro rows hrows
  cases hfind : findRow? rows id.text with
  | none => exact .kept
  | some row =>
      dsimp only
      cases hread : Row.resultOf? row.result with
      | none => exact .kept
      | some old =>
          dsimp only
          cases hchange : f old with
          | none => exact .gone hwrites
          | some next =>
              obtain ⟨new, a⟩ := next
              exact recorded_replaceRow rfl hrows hfind (id_of_find hfind).2
                (Or.inr ⟨hwrites, htarget, old, new, hread, hf old new a hchange, rfl⟩)

theorem recorded_insert {step : Step Table r.Answer} {u : Task}
    (hstore : step.store = (t.insert u).store) (hwrites : ¬r.KeepsLogs)
    (hnew : ∀ before, Recorded moment r u.id before (some u.result.snapshot)) :
    Recorded moment r j (t.log? j) (step.store.log? j) := by
  rw [hstore]
  apply store_withRows (P := fun s => Recorded moment r j (t.log? j) (s.log? j)) .kept
  intro rows hrows
  split
  · exact .kept
  · have hadd := find_append rows (Row.ofTask u) j
    have hbefore := log_of_rows hrows j
    simp only [Step.done]
    cases hfind : findRow? rows j.text with
    | some row =>
        rw [hfind] at hadd hbefore
        have hsame : log? ⟨some (rows ++ [Row.ofTask u])⟩ j = t.log? j := by
          rw [hbefore]
          unfold log?
          rw [hadd]
          rfl
        rw [hsame]
        exact .kept
    | none =>
        rw [hfind, Option.none_or] at hadd
        unfold log?
        rw [hadd]
        split
        · rename_i hid
          have hj : u.id = j := TaskId.text_inj.1 hid
          rw [Option.bind_some]
          cases hback : Row.resultOf? (Row.ofTask u).result with
          | none => exact .gone hwrites
          | some shown =>
              rw [Option.map_some, TaskResult.snapshot_of_read hback, ← hj]
              exact hnew _
        · exact .gone hwrites

theorem recorded_perform (hunique : t.Unique) (moment : Moment) (r : Request) (j : TaskId) :
    Recorded moment r j (t.log? j) ((t.perform moment r).store.log? j) := by
  have hwithRows : ∀ {f : List Row → Step Table r.Answer},
      (∀ rows, t.rows = some rows → Recorded moment r j (t.log? j) ((f rows).store.log? j)) →
      Recorded moment r j (t.log? j) ((t.withRows f).store.log? j) := fun hf =>
    store_withRows (P := fun s => Recorded moment r j (t.log? j) (s.log? j)) .kept hf
  cases r with
  | enqueue new =>
      exact recorded_insert
        (u := Task.ofNew new moment.freshId moment.created) rfl not_false
        (fun _ => .created rfl rfl)
  | insert task =>
      exact recorded_insert rfl not_false (fun _ => .inserted rfl rfl)
  | claim limit time =>
      apply hwithRows
      intro rows hrows
      rcases hpick : pick time.hour (oldestRows rows .waiting limit) with ⟨notices, picked⟩
      cases picked with
      | none => exact .kept
      | some row =>
          have hrow := (mem_of_mem_oldestRows (mem_of_pick (congrArg Prod.snd hpick))).1
          obtain ⟨id, hid⟩ := (hunique rows hrows).text row hrow
          have hfind := (hunique rows hrows).find hrow
          rw [hid] at hfind
          exact recorded_replaceRow rfl hrows hfind hid (Or.inl rfl)
  | patch id p =>
      apply recorded_modify (r := .patch id p) not_false rfl
      intro old new a hchange
      cases hchange
      rfl
  | finalize id p status =>
      rw [perform, finalize]
      split
      · apply recorded_modify (r := .finalize id p status) not_false rfl
        intro old new a hchange
        cases hchange
        rfl
      · exact .kept
  | append id lines window =>
      apply recorded_modify (r := .append id lines window) not_false rfl
      intro old new a hchange
      obtain ⟨s, hpush, hnew⟩ := Option.map_eq_some_iff.1 hchange
      cases hnew
      show (old.snapshot.push? lines window).map old.withLog = _
      rw [hpush]
      rfl
  | pause id =>
      apply hwithRows
      intro rows hrows
      cases hfind : findRow? rows id.text with
      | none => exact .kept
      | some row =>
          dsimp only
          split
          · exact recorded_replaceRow rfl hrows hfind (id_of_find hfind).2 (Or.inl rfl)
          · exact .kept
  | retry id =>
      apply hwithRows
      intro rows hrows
      cases hfind : findRow? rows id.text with
      | none => exact .kept
      | some row =>
          dsimp only
          split
          · exact .kept
          · split
            · cases hread : Row.resultOf? row.result with
              | none => exact .kept
              | some old =>
                  exact recorded_replaceRow rfl hrows hfind (id_of_find hfind).2
                    (Or.inr ⟨not_false, rfl, old, _, hread, rfl, rfl⟩)
            · exact .kept
  | archive id archived =>
      apply hwithRows
      intro rows hrows
      cases hfind : findRow? rows id.text with
      | none => exact .kept
      | some row => exact recorded_replaceRow rfl hrows hfind (id_of_find hfind).2 (Or.inl rfl)
  | delete id =>
      apply hwithRows
      intro rows hrows
      have hafter := find_delete rows id j
      simp only [Step.done]
      rw [log_of_rows hrows]
      unfold log?
      rw [hafter]
      split
      · exact .gone not_false
      · exact .kept
  | get id | list filter limit | control id | snapshot id =>
      exact recorded_read (store_read t moment trivial)

end Table

end TaskQueue.Store
