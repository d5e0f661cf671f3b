import Mathlib.Tactic
import TaskQueue.Proofs.MemoryLifecycle
import TaskQueue.Proofs.StoreAgreement

/-!
# Crashes under the lock

A call of the store in memory crashes only if it takes a counter out of its range.  The task may be
half changed then, but the lock stays poisoned: from then on every call is refused, whatever it
asks for, and nothing changes any more.  A call that is refused without a crash has changed nothing.
-/

namespace TaskQueue.Store

/-- Whether a step ends without a result and without an error of the store. -/
def Step.Crashes (s : Step σ α) : Prop :=
  ∃ detail, s.result = .error (.crash detail)

namespace Memory

/-- A call of the store: a request, or a question about the number of tasks. -/
inductive Call where
  | request (r : Request)
  | size
  | isEmpty

namespace Call

def Answer : Call → Type
  | .request r => r.Answer
  | .size => Nat
  | .isEmpty => Bool

/-- What a call is told when the lock is poisoned. -/
def refusal : Call → StoreError
  | .request r => Memory.refusal r
  | .size | .isEmpty => .lockPoisoned

end Call

def call (m : Memory) (moment : Moment) : (c : Call) → Step Memory c.Answer
  | .request r => m.perform moment r
  | .size => m.size
  | .isEmpty => m.isEmpty

/-- The store after some calls. -/
def after (m : Memory) : List (Moment × Call) → Memory
  | [] => m
  | (moment, c) :: rest => (m.call moment c).store.after rest

/-- Whether a call takes a counter out of its range: the lines of a log, or the retries of a task. -/
inductive Overflows (m : Memory) : Call → Prop where
  | append {t : Task} {id : TaskId} {lines : List String} {window : Nat}
      (hfind : m.find? id = some t) (hlines : lines ≠ [])
      (hfull : 2 ^ 64 ≤ t.result.seq + lines.length) :
      Overflows m (.request (.append id lines window))
  | retry {t : Task} {id : TaskId} (hfind : m.find? id = some t)
      (hretryable : t.status.isRetryable = true) (hfull : 2 ^ 31 ≤ t.retries + 1) :
      Overflows m (.request (.retry id))

/-- How a step of a store can end: a refusal leaves the store as it was, a crash leaves the lock
poisoned. -/
inductive Ends (m : Memory) : Step Memory α → Prop where
  | answered (store : Memory) (a : α) (notices : List Notice) : Ends m ⟨.ok a, store, notices⟩
  | refused (e : StoreError) (notices : List Notice) : Ends m ⟨.error (.error e), m, notices⟩
  | crashed (store : Memory) (detail : String) (notices : List Notice)
      (hpoisoned : store.poisoned = true) : Ends m ⟨.error (.crash detail), store, notices⟩

variable {m : Memory} {moment : Moment} {id : TaskId}

/-! ## The end of each call -/

theorem Ends.store_eq {s : Step Memory α} {e : StoreError} (h : Ends m s)
    (hresult : s.result = .error (.error e)) : s.store = m := by
  cases h with
  | refused e notices => rfl
  | answered store a notices => cases hresult
  | crashed store detail notices hpoisoned => cases hresult

theorem Ends.poisoned {s : Step Memory α} (h : Ends m s) (hcrash : s.Crashes) :
    s.store.poisoned = true := by
  obtain ⟨detail, hresult⟩ := hcrash
  cases h with
  | crashed store detail notices hpoisoned => exact hpoisoned
  | answered store a notices => cases hresult
  | refused e notices => cases hresult

/-- A step whose answer is replaced by another one ends as before. -/
theorem Ends.map {s : Step Memory α} (h : Ends m s) (f : α → β) :
    Ends m ⟨s.result.map f, s.store, s.notices⟩ := by
  cases h with
  | answered store a notices => exact .answered store (f a) notices
  | refused e notices => exact .refused e notices
  | crashed store detail notices hpoisoned => exact .crashed store detail notices hpoisoned

theorem ends_locked {f : Unit → Step Memory α} (hf : Ends m (f ())) : Ends m (m.locked f) := by
  unfold locked
  split
  · exact .refused _ _
  · exact hf

theorem ends_withTask {missing : Except Fault α} {f : Task → Step Memory α}
    (hmissing : Ends m ⟨missing, m, []⟩) (hf : ∀ t, Ends m (f t)) :
    Ends m (m.withTask id missing f) := by
  apply ends_locked
  cases m.find? id with
  | none => exact hmissing
  | some t => exact hf t

theorem ends_insert (t : Task) : Ends m (m.insert t) :=
  ends_locked (.answered _ _ _)

theorem ends_claim (limit : Nat) (time : Time.ZonedTime) : Ends m (m.claim moment limit time) := by
  apply ends_locked
  split
  · exact .answered _ _ _
  · exact .answered _ _ _

theorem ends_append (lines : List String) (window : Nat) :
    Ends m (m.append moment id lines window) := by
  apply ends_withTask (.refused _ _)
  intro t
  split
  · exact .crashed _ _ _ rfl
  · exact .answered _ _ _

theorem ends_retry : Ends m (m.retry moment id) := by
  apply ends_withTask (.answered _ _ _)
  intro t
  split
  · split
    · exact .answered _ _ _
    · exact .crashed _ _ _ rfl
  · exact .answered _ _ _

theorem ends_perform (r : Request) : Ends m (m.perform moment r) := by
  cases r with
  | enqueue new => exact (ends_insert _).map _
  | insert task => exact ends_insert task
  | get id | list filter limit | control id | snapshot id | delete id =>
      simp only [perform, get, list, control, snapshot, delete]
      exact ends_locked (.answered _ _ _)
  | claim limit time => exact ends_claim limit time
  | patch id p => exact ends_withTask (.refused _ _) fun t => .answered _ _ _
  | finalize id p status =>
      rw [perform, finalize]
      split
      · exact ends_withTask (.refused _ _) fun t => .answered _ _ _
      · exact .refused _ _
  | append id lines window => exact ends_append lines window
  | pause id =>
      apply ends_withTask (.answered _ _ _)
      intro t
      split
      · exact .answered _ _ _
      · exact .answered _ _ _
  | retry id => exact ends_retry
  | archive id archived => exact ends_withTask (.answered _ _ _) fun t => .answered _ _ _

theorem ends_call (c : Call) : Ends m (m.call moment c) := by
  have hsize : Ends m m.size := ends_locked (.answered _ _ _)
  cases c with
  | request r => exact ends_perform r
  | size => exact hsize
  | isEmpty => exact hsize.map _

/-! ## Which calls crash -/

theorem not_crashes_ok {store : Memory} {a : α} {notices : List Notice} :
    ¬(⟨.ok a, store, notices⟩ : Step Memory α).Crashes := by
  rintro ⟨detail, hresult⟩
  cases hresult

theorem not_crashes_error {store : Memory} {e : StoreError} {notices : List Notice} :
    ¬(⟨.error (.error e), store, notices⟩ : Step Memory α).Crashes := by
  rintro ⟨detail, hresult⟩
  cases hresult

theorem crashes_crash (m : Memory) : (m.crash : Step Memory α).Crashes :=
  ⟨_, rfl⟩

theorem crashes_map {s : Step Memory α} (f : α → β) :
    (⟨s.result.map f, s.store, s.notices⟩ : Step Memory β).Crashes ↔ s.Crashes := by
  unfold Step.Crashes
  cases s.result <;> simp [Except.map]

theorem crashes_locked {f : Unit → Step Memory α} :
    (m.locked f).Crashes ↔ m.poisoned = false ∧ (f ()).Crashes := by
  unfold locked
  cases m.poisoned with
  | true =>
      simp only [if_true, reduceCtorEq, false_and, iff_false]
      exact not_crashes_error
  | false => simp

theorem crashes_withTask {missing : Except Fault α} {f : Task → Step Memory α}
    (hmissing : ¬(⟨missing, m, []⟩ : Step Memory α).Crashes) :
    (m.withTask id missing f).Crashes ↔
      m.poisoned = false ∧ ∃ t, m.find? id = some t ∧ (f t).Crashes := by
  unfold withTask
  rw [crashes_locked]
  cases m.find? id with
  | none => simp [hmissing]
  | some t => simp

/-- Lines are refused exactly if they are some lines that the counter has no room for. -/
theorem push_eq_none_iff {r : TaskResult} {lines : List String} {window : Nat} :
    r.snapshot.push? lines window = none ↔ lines ≠ [] ∧ 2 ^ 64 ≤ r.seq + lines.length := by
  have hbound : Log.counterBound = 2 ^ 64 := rfl
  have hseq : r.snapshot.seq = r.seq := rfl
  unfold Log.Snapshot.push?
  rw [hbound, hseq]
  split
  · rename_i hfits
    simp only [reduceCtorEq, false_iff, not_and, not_le]
    intro hlines
    exact hfits.resolve_left hlines
  · rename_i hfull
    rw [not_or, not_lt] at hfull
    exact iff_of_true rfl hfull

theorem crashes_append_iff {lines : List String} {window : Nat} :
    (m.append moment id lines window).Crashes ↔
      m.poisoned = false ∧ m.Overflows (.request (.append id lines window)) := by
  unfold append
  rw [crashes_withTask not_crashes_error]
  refine and_congr_right fun _ => ?_
  constructor
  · rintro ⟨t, hfind, hcrash⟩
    split at hcrash
    · rename_i hpush
      obtain ⟨hlines, hfull⟩ := push_eq_none_iff.1 hpush
      exact .append hfind hlines hfull
    · exact absurd hcrash not_crashes_ok
  · rintro ⟨hfind, hlines, hfull⟩
    refine ⟨_, hfind, ?_⟩
    rw [push_eq_none_iff.2 ⟨hlines, hfull⟩]
    exact crashes_crash m

theorem crashes_retry_iff :
    (m.retry moment id).Crashes ↔ m.poisoned = false ∧ m.Overflows (.request (.retry id)) := by
  have hbound : retryBound = 2 ^ 31 := rfl
  unfold retry
  rw [crashes_withTask not_crashes_ok]
  refine and_congr_right fun _ => ?_
  constructor
  · rintro ⟨t, hfind, hcrash⟩
    split at hcrash
    · rename_i hretryable
      split at hcrash
      · exact absurd hcrash not_crashes_ok
      · exact .retry hfind hretryable (by omega)
    · exact absurd hcrash not_crashes_ok
  · intro hoverflow
    cases hoverflow with
    | @retry t id hfind hretryable hfull =>
        refine ⟨t, hfind, ?_⟩
        rw [if_pos hretryable]
        simp only
        rw [if_neg (by omega)]
        exact crashes_crash _

/-- A request on one task that answers whatever the task is does not crash. -/
theorem not_crashes_withTask {missing : Except Fault α} {f : Task → Step Memory α}
    (hmissing : ¬(⟨missing, m, []⟩ : Step Memory α).Crashes) (hf : ∀ t, ¬(f t).Crashes) :
    ¬(m.withTask id missing f).Crashes := by
  rw [crashes_withTask hmissing]
  rintro ⟨-, t, -, hcrash⟩
  exact hf t hcrash

theorem not_crashes_locked {f : Unit → Step Memory α} (hf : ¬(f ()).Crashes) :
    ¬(m.locked f).Crashes := by
  rw [crashes_locked]
  exact fun h => hf h.2

theorem not_crashes_insert (t : Task) : ¬(m.insert t).Crashes :=
  not_crashes_locked not_crashes_ok

theorem not_crashes_size : ¬m.size.Crashes :=
  not_crashes_locked not_crashes_ok

theorem crashes_perform_iff (r : Request) :
    (m.perform moment r).Crashes ↔ m.poisoned = false ∧ m.Overflows (.request r) := by
  cases r with
  | append id lines window => exact crashes_append_iff
  | retry id => exact crashes_retry_iff
  | enqueue new =>
      refine iff_of_false ?_ (by rintro ⟨-, h⟩; cases h)
      exact fun h => not_crashes_insert _ ((crashes_map _).1 h)
  | insert task => exact iff_of_false (not_crashes_insert task) (by rintro ⟨-, h⟩; cases h)
  | get id | list filter limit | control id | snapshot id | delete id =>
      exact iff_of_false (not_crashes_locked not_crashes_ok) (by rintro ⟨-, h⟩; cases h)
  | claim limit time =>
      refine iff_of_false (not_crashes_locked ?_) (by rintro ⟨-, h⟩; cases h)
      split
      · exact not_crashes_ok
      · exact not_crashes_ok
  | patch id p =>
      refine iff_of_false ?_ (by rintro ⟨-, h⟩; cases h)
      exact not_crashes_withTask not_crashes_error fun t => not_crashes_ok
  | finalize id p status =>
      refine iff_of_false ?_ (by rintro ⟨-, h⟩; cases h)
      rw [perform, finalize]
      split
      · exact not_crashes_withTask not_crashes_error fun t => not_crashes_ok
      · exact not_crashes_error
  | pause id =>
      refine iff_of_false (not_crashes_withTask not_crashes_ok ?_) (by rintro ⟨-, h⟩; cases h)
      intro t
      split
      · exact not_crashes_ok
      · exact not_crashes_ok
  | archive id archived =>
      refine iff_of_false ?_ (by rintro ⟨-, h⟩; cases h)
      exact not_crashes_withTask not_crashes_ok fun t => not_crashes_ok

/-- A call crashes exactly if the lock is not poisoned and a counter leaves its range. -/
theorem crashes_call_iff (c : Call) :
    (m.call moment c).Crashes ↔ m.poisoned = false ∧ m.Overflows c := by
  cases c with
  | request r => exact crashes_perform_iff r
  | size => exact iff_of_false not_crashes_size (by rintro ⟨-, h⟩; cases h)
  | isEmpty =>
      refine iff_of_false ?_ (by rintro ⟨-, h⟩; cases h)
      exact fun h => not_crashes_size ((crashes_map _).1 h)

/-! ## Behind a poisoned lock -/

theorem call_poisoned (h : m.poisoned = true) (moment : Moment) (c : Call) :
    (m.call moment c).store = m ∧ (m.call moment c).result = .error (.error c.refusal) := by
  cases c with
  | request r => exact perform_poisoned h r
  | size =>
      simp only [call, size, locked_poisoned h]
      exact ⟨rfl, rfl⟩
  | isEmpty =>
      simp only [call, isEmpty, size, locked_poisoned h]
      exact ⟨rfl, rfl⟩

theorem after_poisoned (h : m.poisoned = true) (history : List (Moment × Call)) :
    m.after history = m := by
  induction history with
  | nil => rfl
  | cons entry rest ih =>
      obtain ⟨moment, c⟩ := entry
      rw [after, (call_poisoned h moment c).1, ih]

/-- In every history a call crashes exactly if it takes a counter out of its range while the lock is
not poisoned.  From the first crash on every call is refused, and the store stays as the crash has
left it.  A call that is refused without a crash leaves the store as it was. -/
theorem crash_is_final (m : Memory) (earlier : List (Moment × Call)) (moment : Moment) (c : Call) :
    (((m.after earlier).call moment c).Crashes ↔
        (m.after earlier).poisoned = false ∧ (m.after earlier).Overflows c) ∧
      (((m.after earlier).call moment c).Crashes →
        ∀ (later : List (Moment × Call)) (moment' : Moment) (c' : Call),
          let left := ((m.after earlier).call moment c).store
          left.after later = left ∧ ((left.after later).call moment' c').store = left ∧
            ((left.after later).call moment' c').result = .error (.error c'.refusal)) ∧
      ∀ e, ((m.after earlier).call moment c).result = .error (.error e) →
        ((m.after earlier).call moment c).store = m.after earlier := by
  refine ⟨crashes_call_iff c, ?_, fun e => (ends_call c).store_eq⟩
  intro hcrash later moment' c' left
  have hpoisoned : left.poisoned = true := (ends_call c).poisoned hcrash
  have hleft := after_poisoned hpoisoned later
  rw [hleft]
  exact ⟨rfl, call_poisoned hpoisoned moment' c'⟩

/-- A failed task that has been retried as often as can be counted. -/
def wornTask : Task :=
  { Task.ofNew ⟨none, "push", .object []⟩ ⟨1⟩ firstMoment.created with
    status := .failed
    retries := 2 ^ 31 - 1 }

/-- The next retry of the task queues it and crashes, and nobody sees it in the queue. -/
theorem crash_is_final_wornTask :
    let queued := empty.after [(firstMoment, .request (.insert wornTask))]
    let left := (queued.call firstMoment (.request (.retry ⟨1⟩))).store
    (queued.call firstMoment (.request (.retry ⟨1⟩))).Crashes ∧
      left.tasks = [{ wornTask with status := .queued }] ∧
      (left.call firstMoment (.request (.get ⟨1⟩))).result = .error (.error .lockPoisoned) ∧
      (left.call firstMoment (.request (.finalize ⟨1⟩ .empty .queued))).result =
        .error (.error (.invalidStatus "queued")) := by
  intro queued left
  obtain ⟨hcrashes, hfinal, -⟩ :=
    crash_is_final empty [(firstMoment, .request (.insert wornTask))] firstMoment
      (.request (.retry ⟨1⟩))
  have hcrash : (queued.call firstMoment (.request (.retry ⟨1⟩))).Crashes :=
    hcrashes.2 ⟨rfl, .retry (t := wornTask) rfl rfl (by decide)⟩
  exact ⟨hcrash, rfl, (hfinal hcrash [] firstMoment (.request (.get ⟨1⟩))).2.2,
    (hfinal hcrash [] firstMoment (.request (.finalize ⟨1⟩ .empty .queued))).2.2⟩

end Memory

end TaskQueue.Store
