import Mathlib.Tactic
import TaskQueue.Proofs.LogChanges
import TaskQueue.Proofs.ObservedLog

/-!
# The status and the log of a task in any backend

Both kinds of store, and a table in which nothing may be written, answer for one task with its
status and its log.  What a look shows is what is there; what an answered request has done is what
its answer says; and the status changes only as the effect of a request allows.
-/

namespace TaskQueue.Store

open Log (Resets Snapshot)

variable {id : TaskId} {moment : Moment}

/-! ## Effects on a status -/

/-- What an effect does to the status of a task.  A task that the effect is not on keeps its status,
unless the whole store is lost. -/
def Effect.Moves (e : Effect) (id : TaskId) (before after : Option Status) : Prop :=
  match e.on id with
  | .claimed _ => before = some .queued ∧ after = some .processing
  | .finalized _ status => status.isTerminal = true ∧ after = some status
  | .paused _ => before.any Status.isPausable = true ∧ after = some .paused
  | .requeued _ => before.any Status.isRetryable = true ∧ after = some .queued
  | .deleted _ => after = none
  | _ => after = before ∨ after = none

theorem Effect.Moves.kept {e : Effect} {id : TaskId} {before after : Option Status}
    (h : e.Moves id before after) (he : e = .nothing ∨ ∃ j, e = .edited j) :
    after = before ∨ after = none := by
  rcases he with rfl | ⟨j, rfl⟩
  · exact h
  · by_cases hj : j = id
    · simpa [Effect.Moves, Effect.on, Effect.subject?, hj] using h
    · simpa [Effect.Moves, Effect.on, Effect.subject?, hj] using h

theorem View.Lawful.moves {σ ρ ω : Type} {V : View σ ρ ω} {e : Event σ} {id : TaskId}
    (h : V.Lawful e) (hnew : e.effect ≠ .created id) :
    e.effect.Moves id ((V.find? e.before id).bind V.status)
      ((V.find? e.after id).bind V.status) := by
  unfold Effect.Moves
  by_cases hsubject : e.effect.subject? = some id
  · obtain ⟨a, ha⟩ := h.found id hsubject hnew
    rw [Effect.on_self hsubject, ha]
    by_cases hdeleted : e.effect = .deleted id
    · rw [hdeleted, h.gone id hdeleted]
      rfl
    · obtain ⟨b, hb⟩ := h.kept id a ha hsubject hdeleted
      have hchange := (h.change id a b ha hb).2
      rw [Effect.on_self hsubject] at hchange
      rw [hb]
      cases heffect : e.effect with
      | claimed j =>
          rw [heffect] at hchange
          exact ⟨hchange.1, hchange.2.2.1⟩
      | finalized j status | paused j | requeued j =>
          rw [heffect] at hchange
          exact ⟨hchange.1, hchange.2.1⟩
      | deleted j =>
          rw [heffect] at hsubject hdeleted
          cases hsubject
          exact absurd rfl hdeleted
      | nothing | created j | edited j | archived j flag =>
          rw [heffect] at hchange
          exact Or.inl hchange.1
  · rw [Effect.on_other hsubject]
    cases hb : V.find? e.after id with
    | none => exact Or.inr rfl
    | some b =>
        cases ha : V.find? e.before id with
        | none => exact absurd (h.appears id b ha hb) hnew
        | some a =>
            have hchange := (h.change id a b ha hb).2
            rw [Effect.on_other hsubject] at hchange
            exact Or.inl hchange.1

/-- Whether a request creates no task and, whatever the answer, moves a status only as its effect
says. -/
def Request.Steady : (r : Request) → Except Fault r.Answer → Prop
  | .enqueue _, _ | .insert _, _ | .retry _, _ => False
  | .claim _ _, (result : Except Fault (Option Task)) => ∃ t, result = .ok t
  | _, _ => True

theorem Request.Steady.newId {r : Request} {result : Except Fault r.Answer}
    (h : r.Steady result) (moment : Moment) : r.newId? moment = none := by
  cases r with
  | enqueue new | insert task => exact h.elim
  | _ => rfl

theorem answered_of_resets {r : Request} {result : Except Fault r.Answer}
    (h : Resets id r result) : ∃ a, result = .ok a := by
  cases r with
  | patch j p => exact ⟨(), h.2.2⟩
  | retry j => exact ⟨true, h.2⟩
  | _ => exact h.elim

theorem push_of_change {old new : TaskResult} {lines : List String} {window : Nat} {next : Snapshot}
    (h : (old.snapshot.push? lines window).map (fun s => (old.withLog s, s)) = some (new, next)) :
    old.snapshot.push? lines window = some next ∧ new.snapshot = next := by
  obtain ⟨s, hs, hpair⟩ := Option.map_eq_some_iff.1 h
  cases hpair
  exact ⟨hs, rfl⟩

/-! ## In memory -/

namespace Memory

variable {m : Memory}

def status? (m : Memory) (id : TaskId) : Option Status :=
  (view.find? m id).bind view.status

theorem moves_perform (hunique : m.Unique) {r : Request}
    (hr : r.Steady (m.perform moment r).result) :
    (r.effect (m.perform moment r).result).Moves id (m.status? id)
      ((m.perform moment r).store.status? id) := by
  have hslips : ¬m.Slips r := by
    intro hslips
    cases r with
    | retry j => exact hr
    | _ => exact hslips
  have hnew := hr.newId moment
  have hlaw : view.Lawful (.ofStep m moment r (m.perform moment r)) :=
    lawful_perform hunique (by simp [hnew]) hslips
  exact hlaw.moves fun hcreated => by simpa [hnew] using created_perform hcreated

theorem modify_answered {status : Option Status} {f : TaskResult → Option (TaskResult × α)} {a : α}
    (h : (m.modify moment id status f).result = .ok a) :
    ∃ old new, m.log? id = some old.snapshot ∧ f old = some (new, a) ∧
      (m.modify moment id status f).store.log? id = some new.snapshot := by
  cases hopen : m.poisoned with
  | true =>
      unfold modify withTask locked at h
      simp [hopen, Step.fail] at h
  | false =>
      cases hfind : m.find? id with
      | none =>
          unfold modify withTask at h
          rw [locked_open hopen, hfind] at h
          cases h
      | some t =>
          cases hchange : f t.result with
          | none =>
              unfold modify withTask at h
              rw [locked_open hopen, hfind] at h
              simp [hchange, crash, Step.crash] at h
          | some next =>
              obtain ⟨new, a'⟩ := next
              rw [modify_of_find hopen hfind hchange] at h ⊢
              cases h
              refine ⟨t.result, new, by simp [log?, hfind], hchange, ?_⟩
              refine (log_replace hfind ?_ id).trans (if_pos rfl)
              exact (mem_of_find hfind).2

theorem retry_answered (h : (m.retry moment id).result = .ok true) :
    (m.retry moment id).store.log? id = some .empty := by
  cases hopen : m.poisoned with
  | true =>
      unfold retry withTask locked at h
      simp [hopen, Step.fail] at h
  | false =>
      unfold retry withTask at h ⊢
      rw [locked_open hopen] at h ⊢
      cases hfind : m.find? id with
      | none => simp [hfind] at h
      | some t =>
          simp only [hfind] at h ⊢
          split at h
          · split at h
            · rename_i hretryable hfits
              rw [if_pos hretryable, if_pos hfits]
              refine (log_replace hfind ?_ id).trans (if_pos rfl)
              exact (mem_of_find hfind).2
            · cases h
          · cases h

theorem reset_answered {r : Request} {s : Snapshot} (h : Resets id r (m.perform moment r).result)
    (hs : (m.perform moment r).store.log? id = some s) : s = .empty := by
  cases r with
  | patch j p =>
      obtain ⟨rfl, rfl, hok⟩ := h
      rw [perform, patch_eq_modify] at hok hs
      obtain ⟨old, new, -, hchange, hafter⟩ := modify_answered hok
      cases hchange
      exact Option.some.inj (hs.symm.trans hafter)
  | retry j =>
      obtain ⟨rfl, hok⟩ := h
      exact Option.some.inj (hs.symm.trans (retry_answered hok))
  | _ => exact h.elim

theorem append_answered {lines : List String} {window : Nat} {next : Snapshot}
    (h : (m.append moment id lines window).result = .ok next) :
    ∃ s, m.log? id = some s ∧ s.push? lines window = some next ∧
      ∀ after, (m.append moment id lines window).store.log? id = some after → after = next := by
  rw [append_eq_modify] at h ⊢
  obtain ⟨old, new, hlog, hchange, hafter⟩ := modify_answered h
  obtain ⟨hpush, hnew⟩ := push_of_change hchange
  refine ⟨_, hlog, hpush, fun after hs => ?_⟩
  rw [hafter, hnew] at hs
  exact (Option.some.inj hs).symm

theorem status_of_control {state : ControlState}
    (h : (m.control id).result = .ok (some state)) : m.status? id = some state.status := by
  unfold control locked at h
  split at h
  · cases h
  · have hfind : (m.find? id).map Task.control = some state := Except.ok.inj h
    obtain ⟨t, ht, rfl⟩ := Option.map_eq_some_iff.1 hfind
    simp [status?, view, ht, Task.control]

theorem log_of_snapshot {s : Snapshot} (h : (m.snapshot id).result = .ok (some s)) :
    m.log? id = some s := by
  unfold snapshot locked at h
  split at h
  · cases h
  · exact Except.ok.inj h

end Memory

/-! ## In a table -/

namespace Table

variable {t : Table}

def status? (t : Table) (id : TaskId) : Option Status :=
  (view.find? t id).bind view.status

theorem moves_perform (hunique : t.Unique) {r : Request}
    (hr : r.Steady (t.perform moment r).result) :
    (r.effect (t.perform moment r).result).Moves id (t.status? id)
      ((t.perform moment r).store.status? id) := by
  by_cases hslips : t.Slips moment r
  · cases r with
    | claim limit time =>
        obtain ⟨rows, row, e, notices, -, -, -, hstep⟩ := claim_of_slip hslips
        obtain ⟨answer, hanswer⟩ := hr
        rw [perform, hstep] at hanswer
        cases hanswer
    | append j lines window =>
        obtain ⟨rows, other, -, -, -, hstep⟩ := append_of_slip hslips
        rw [perform, hstep]
        exact Or.inr rfl
    | _ => exact hslips.elim
  · have hnew := hr.newId moment
    have hlaw := lawful_perform hunique (r := r) (by simp [hnew]) hslips
    exact hlaw.moves fun hcreated => by simpa [hnew] using created_perform hcreated

theorem modify_answered {status : Option Status} {f : TaskResult → Option (TaskResult × α)} {a : α}
    (h : (t.modify moment id status f).result = .ok a) :
    ∃ old new, t.log? id = some old.snapshot ∧ f old = some (new, a) ∧
      ∀ s, (t.modify moment id status f).store.log? id = some s → s = new.snapshot := by
  unfold modify withRows at h
  cases hrows : t.rows with
  | none => simp [hrows, Step.fail] at h
  | some rows =>
      cases hfind : findRow? rows id.text with
      | none => simp [hrows, hfind, Step.fail] at h
      | some row =>
          cases hread : Row.resultOf? row.result with
          | none => simp [hrows, hfind, hread, Step.fail] at h
          | some old =>
              cases hchange : f old with
              | none => simp [hrows, hfind, hread, hchange, crash, Step.fail] at h
              | some next =>
                  obtain ⟨new, a'⟩ := next
                  simp only [hrows, hfind, hread, hchange] at h
                  cases h
                  have hlog : t.log? id = some old.snapshot := by
                    simp [log_of_rows hrows, hfind, hread]
                  refine ⟨old, new, hlog, hchange, fun s hs => ?_⟩
                  rw [modify_of_find hrows hfind hread hchange] at hs
                  have hafter := log_replaceRow hrows hfind (b := { row with
                    result := new.encode.compact
                    status := (status.map Status.name).getD row.status
                    updatedAt := moment.now.stamp }) (id_of_find hfind).2 id
                  rw [if_pos rfl] at hafter
                  obtain ⟨shown, hshown, rfl⟩ := Option.map_eq_some_iff.1 (hafter.symm.trans hs)
                  exact TaskResult.snapshot_of_read hshown

theorem retry_answered (h : (t.retry moment id).result = .ok true) :
    ∀ s, (t.retry moment id).store.log? id = some s → s = .empty := by
  unfold retry withRows at h ⊢
  cases hrows : t.rows with
  | none => simp [hrows, Step.fail] at h
  | some rows =>
      cases hfind : findRow? rows id.text with
      | none => simp [hrows, hfind, Step.done] at h
      | some row =>
          cases hstatus : Row.statusOf row.status with
          | error e => simp [hrows, hfind, hstatus, Step.fail] at h
          | ok status =>
              cases hread : Row.resultOf? row.result with
              | none =>
                  simp only [hrows, hfind, hstatus, hread] at h
                  split at h <;> cases h
              | some old =>
                  simp only [hrows, hfind, hstatus, hread] at h ⊢
                  split at h
                  · rename_i hretryable
                    intro s hs
                    rw [if_pos hretryable] at hs
                    have hafter := log_replaceRow hrows hfind (b := { row with
                      status := Status.queued.name
                      retries := row.retries + 1
                      result := (old.apply .runReset).encode.compact
                      updatedAt := moment.now.stamp }) (id_of_find hfind).2 id
                    rw [if_pos rfl] at hafter
                    obtain ⟨shown, hshown, rfl⟩ :=
                      Option.map_eq_some_iff.1 (hafter.symm.trans hs)
                    exact TaskResult.snapshot_of_read hshown
                  · cases h

theorem reset_answered {r : Request} {s : Snapshot} (h : Resets id r (t.perform moment r).result)
    (hs : (t.perform moment r).store.log? id = some s) : s = .empty := by
  cases r with
  | patch j p =>
      obtain ⟨rfl, rfl, hok⟩ := h
      obtain ⟨old, new, -, hchange, hafter⟩ := modify_answered hok
      cases hchange
      exact hafter s hs
  | retry j =>
      obtain ⟨rfl, hok⟩ := h
      exact retry_answered hok s hs
  | _ => exact h.elim

theorem append_answered {lines : List String} {window : Nat} {next : Snapshot}
    (h : (t.append moment id lines window).result = .ok next) :
    ∃ s, t.log? id = some s ∧ s.push? lines window = some next ∧
      ∀ after, (t.append moment id lines window).store.log? id = some after → after = next := by
  obtain ⟨old, new, hlog, hchange, hafter⟩ := modify_answered h
  obtain ⟨hpush, hnew⟩ := push_of_change hchange
  exact ⟨_, hlog, hpush, fun after hs => (hafter after hs).trans hnew⟩

theorem status_of_control {state : ControlState}
    (h : (t.control id).result = .ok (some state)) : t.status? id = some state.status := by
  unfold control withRows at h
  cases hrows : t.rows with
  | none => simp [hrows, Step.fail] at h
  | some rows =>
      cases hfind : findRow? rows id.text with
      | none => simp [hrows, hfind, Step.done] at h
      | some row =>
          cases hname : Status.ofName? row.status with
          | none => simp [hrows, hfind, Row.statusOf, hname, answer, Except.map, Except.mapError] at h
          | some status =>
              simp only [hrows, hfind, Row.statusOf, hname, answer, Except.map, Except.mapError,
                Except.ok.injEq, Option.some.injEq] at h
              rw [← h]
              unfold status?
              rw [find_of_rows hrows, hfind]
              exact hname

theorem log_of_snapshot {s : Snapshot} (h : (t.snapshot id).result = .ok (some s)) :
    t.log? id = some s := by
  unfold snapshot withRows at h
  cases hrows : t.rows with
  | none => simp [hrows, Step.fail] at h
  | some rows =>
      cases hfind : findRow? rows id.text with
      | none => simp [hrows, hfind, Step.done] at h
      | some row =>
          cases hread : Row.resultOf? row.result with
          | none => simp [hrows, hfind, hread, Step.fail] at h
          | some result =>
              simp only [hrows, hfind, hread, Step.done, Except.ok.injEq, Option.some.injEq] at h
              rw [log_of_rows hrows, hfind, ← h]
              simp [hread]

theorem performReadOnly_of_ok {r : Request} {a : r.Answer}
    (h : (t.performReadOnly moment r).result = .ok a) :
    t.performReadOnly moment r = t.perform moment r := by
  unfold performReadOnly at h ⊢
  simp only at h ⊢
  split at h
  · cases h
  · rename_i hallowed
    rw [if_neg hallowed]

/-- Nothing is written by a request that is not answered, unless the database is lost. -/
theorem performReadOnly_cases (t : Table) (moment : Moment) (r : Request) :
    (t.performReadOnly moment r).store = t ∨
      t.performReadOnly moment r = t.perform moment r := by
  unfold performReadOnly
  simp only
  split
  · exact Or.inl rfl
  · exact Or.inr rfl

end Table

/-! ## In any backend -/

namespace Backend

variable {b : Backend}

def Unique : Backend → Prop
  | .memory m => m.Unique
  | .table t | .readOnly t => t.Unique

def status? : Backend → TaskId → Option Status
  | .memory m => m.status?
  | .table t | .readOnly t => t.status?

def log? : Backend → TaskId → Option Snapshot
  | .memory m => m.log?
  | .table t | .readOnly t => t.log?

theorem unique_perform (h : b.Unique) (moment : Moment) (r : Request) :
    (b.perform moment r).store.Unique := by
  cases b with
  | memory m => exact Memory.unique_perform h r
  | table t => exact Table.unique_perform h r
  | readOnly t =>
      show (t.performReadOnly moment r).store.Unique
      rcases t.performReadOnly_cases moment r with hsame | hsame
      · rw [hsame]
        exact h
      · rw [hsame]
        exact Table.unique_perform h r

theorem recorded_perform (h : b.Unique) (moment : Moment) (r : Request) (id : TaskId) :
    Recorded moment r id (b.log? id) ((b.perform moment r).store.log? id) := by
  cases b with
  | memory m => exact Memory.recorded_perform h moment r id
  | table t => exact Table.recorded_perform h moment r id
  | readOnly t =>
      show Recorded moment r id (t.log? id) ((t.performReadOnly moment r).store.log? id)
      rcases t.performReadOnly_cases moment r with hsame | hsame
      · rw [hsame]
        exact .kept
      · rw [hsame]
        exact Table.recorded_perform h moment r id

theorem moves_perform (h : b.Unique) (moment : Moment) {r : Request} (id : TaskId)
    (hr : r.Steady (b.perform moment r).result) :
    (r.effect (b.perform moment r).result).Moves id (b.status? id)
      ((b.perform moment r).store.status? id) := by
  cases b with
  | memory m => exact Memory.moves_perform h hr
  | table t => exact Table.moves_perform h hr
  | readOnly t =>
      have hr' : r.Steady (t.performReadOnly moment r).result := hr
      show (r.effect (t.performReadOnly moment r).result).Moves id (t.status? id)
        ((t.performReadOnly moment r).store.status? id)
      cases hresult : (t.performReadOnly moment r).result with
      | ok a =>
          have hsame := Table.performReadOnly_of_ok hresult
          rw [← hresult, hsame]
          rw [hsame] at hr'
          exact Table.moves_perform h hr'
      | error f =>
          rw [Request.effect_error]
          rcases t.performReadOnly_cases moment r with hsame | hsame
          · rw [hsame]
            exact Or.inl rfl
          · rw [hsame] at hresult hr' ⊢
            have hmoves : Effect.Moves _ id _ _ := Table.moves_perform h hr'
            rwa [hresult, Request.effect_error] at hmoves

theorem store_read (b : Backend) (moment : Moment) {r : Request} (h : r.IsRead) :
    (b.perform moment r).store = b := by
  cases b with
  | memory m => exact congrArg Backend.memory (Memory.store_read m moment h)
  | table t => exact congrArg Backend.table (Table.store_read t moment h)
  | readOnly t =>
      refine congrArg Backend.readOnly ?_
      rcases t.performReadOnly_cases moment r with hsame | hsame
      · exact hsame
      · rw [hsame]
        exact Table.store_read t moment h

theorem status_of_control {state : ControlState}
    (h : (b.perform moment (.control id)).result = (.ok (some state) : Except Fault _)) :
    b.status? id = some state.status := by
  cases b with
  | memory m => exact Memory.status_of_control h
  | table t => exact Table.status_of_control h
  | readOnly t =>
      have hok : (t.performReadOnly moment (.control id)).result = (.ok (some state) : Except Fault _) := h
      rw [Table.performReadOnly_of_ok hok] at hok
      exact Table.status_of_control hok

theorem log_of_snapshot {s : Snapshot}
    (h : (b.perform moment (.snapshot id)).result = (.ok (some s) : Except Fault _)) :
    b.log? id = some s := by
  cases b with
  | memory m => exact Memory.log_of_snapshot h
  | table t => exact Table.log_of_snapshot h
  | readOnly t =>
      have hok : (t.performReadOnly moment (.snapshot id)).result = (.ok (some s) : Except Fault _) := h
      rw [Table.performReadOnly_of_ok hok] at hok
      exact Table.log_of_snapshot hok

theorem reset_answered {r : Request} {s : Snapshot} (h : Resets id r (b.perform moment r).result)
    (hs : (b.perform moment r).store.log? id = some s) : s = .empty := by
  cases b with
  | memory m => exact Memory.reset_answered h hs
  | table t => exact Table.reset_answered h hs
  | readOnly t =>
      have hreset : Resets id r (t.performReadOnly moment r).result := h
      have hafter : (t.performReadOnly moment r).store.log? id = some s := hs
      obtain ⟨a, ha⟩ := answered_of_resets hreset
      rw [Table.performReadOnly_of_ok ha] at hreset hafter
      exact Table.reset_answered hreset hafter

/-- An answered addition has found a log that takes it, and leaves the log with it. -/
theorem append_answered {lines : List String} {window : Nat} {next : Snapshot}
    (h : (b.perform moment (.append id lines window)).result = (.ok next : Except Fault Snapshot)) :
    ∃ s, b.log? id = some s ∧ s.push? lines window = some next ∧
      ∀ after, (b.perform moment (.append id lines window)).store.log? id = some after →
        after = next := by
  cases b with
  | memory m => exact Memory.append_answered h
  | table t => exact Table.append_answered h
  | readOnly t =>
      have hok : (t.performReadOnly moment (.append id lines window)).result =
        (.ok next : Except Fault Snapshot) := h
      have hsame := Table.performReadOnly_of_ok hok
      show ∃ s, t.log? id = some s ∧ _ ∧ ∀ after,
        (t.performReadOnly moment (.append id lines window)).store.log? id = some after → _
      rw [hsame] at hok ⊢
      exact Table.append_answered hok

end Backend

end TaskQueue.Store
