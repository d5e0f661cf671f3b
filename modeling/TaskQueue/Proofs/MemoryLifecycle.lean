import Mathlib.Tactic
import TaskQueue.Proofs.LawfulHistory
import TaskQueue.Proofs.Mirror

/-!
# The lifecycle of tasks in memory

Every step of a store in memory is lawful but one: a retry of a task whose retries cannot be
counted any further changes the status and then crashes.
-/

namespace TaskQueue.Store.Memory

open Time (Instant ZonedTime)

def view : View Memory Task (TaskId × Option String × String × Json × Instant) where
  find? := find?
  origin t := (t.id, t.group, t.eventType, t.payload, t.createdAt)
  status t := some t.status
  archived := Task.archived
  retries := Task.retries

/-- Whether a request leaves a task changed although it is not answered. -/
def Slips (m : Memory) : Request → Prop
  | .retry id =>
    m.poisoned = false ∧
      ∃ t, m.find? id = some t ∧ t.status.isRetryable = true ∧ retryBound ≤ t.retries + 1
  | _ => False

def Unique (m : Memory) : Prop :=
  (m.tasks.map Task.id).Nodup

variable {m : Memory} {moment : Moment} {id : TaskId}

/-! ## Looking up after a change -/

theorem find_replace (m : Memory) (t : Task) (j : TaskId) :
    (m.replace t).find? j = if j = t.id then (m.find? j).map fun _ => t else m.find? j :=
  Records.find_replace Task.id m.tasks t j

/-- A task that takes the place of the one with its identifier is the one that is found. -/
theorem find_replace_self {t u : Task} (hfind : m.find? id = some t) (hid : u.id = id) :
    (m.replace u).find? id = some u := by
  rw [find_replace, if_pos hid.symm, hfind]
  rfl

theorem find_insert (m : Memory) (t : Task) (j : TaskId) :
    ({ m with tasks := t :: m.tasks.filter fun u => u.id ≠ t.id } : Memory).find? j =
      if j = t.id then some t else m.find? j := by
  have herase := Records.find_erase Task.id m.tasks t.id j
  unfold find?
  simp only
  rw [List.find?_cons]
  by_cases hj : j = t.id
  · simp [hj]
  · have hne : ¬t.id = j := fun h => hj h.symm
    rw [if_neg hj] at herase ⊢
    simpa [hne] using herase

theorem find_delete (m : Memory) (id j : TaskId) :
    ({ m with tasks := m.tasks.filter fun t => t.id ≠ id } : Memory).find? j =
      if j = id then none else m.find? j :=
  Records.find_erase Task.id m.tasks id j

theorem Unique.find (h : m.Unique) {t : Task} (ht : t ∈ m.tasks) : m.find? t.id = some t :=
  Records.find_of_mem h ht

theorem matches_waiting {t : Task} :
    TaskFilter.waiting.matches t = true ↔ t.status = .queued ∧ t.archived = false := by
  unfold TaskFilter.matches TaskFilter.admits TaskFilter.waiting
  simp only [Option.all_some, decide_eq_true_eq]
  rw [eq_comm, @eq_comm _ false]

/-! ## Lawful steps -/

theorem locked_poisoned (h : m.poisoned = true) (f : Unit → Step Memory α) :
    m.locked f = .fail m .lockPoisoned := by
  unfold locked
  rw [if_pos h]

/-- What a request is told when the lock is poisoned.  A status that ends nothing is refused before
the lock is taken. -/
def refusal : Request → StoreError
  | .finalize _ _ status => if status.isTerminal then .lockPoisoned else .invalidStatus status.name
  | _ => .lockPoisoned

theorem perform_poisoned (h : m.poisoned = true) (r : Request) :
    (m.perform moment r).store = m ∧
      (m.perform moment r).result = .error (.error (refusal r)) := by
  have hlocked : ∀ {α : Type} (f : Unit → Step Memory α), m.locked f = .fail m .lockPoisoned :=
    locked_poisoned h
  cases r with
  | enqueue new =>
      simp only [perform, enqueue, insert, hlocked]
      exact ⟨rfl, rfl⟩
  | finalize id p status =>
      simp only [perform, finalize, withTask, hlocked, refusal]
      split
      · exact ⟨rfl, rfl⟩
      · exact ⟨rfl, rfl⟩
  | _ =>
      simp only [perform, insert, get, list, claim, control, patch, append, snapshot, pause, retry,
        archive, delete, withTask, hlocked]
      exact ⟨rfl, rfl⟩

theorem lawful_poisoned (h : m.poisoned = true) (r : Request) :
    view.Lawful (.ofStep m moment r (m.perform moment r)) := by
  obtain ⟨hstore, hresult⟩ := @perform_poisoned m moment h r
  apply View.Lawful.of_same
  · intro j
    exact congrArg (fun s => find? s j) hstore
  · show r.effect (m.perform moment r).result = .nothing
    rw [hresult, Request.effect_error]

theorem lawful_same {e : Event Memory} (hafter : e.after = e.before)
    (heffect : e.effect = .nothing) : view.Lawful e := by
  refine View.Lawful.of_same ?_ heffect
  intro j
  rw [hafter]

theorem store_locked {f : Unit → Step Memory α} (h : (f ()).store = m) :
    (m.locked f).store = m := by
  unfold locked
  split
  · rfl
  · exact h

theorem store_read (m : Memory) (moment : Moment) {r : Request} (h : r.IsRead) :
    (m.perform moment r).store = m := by
  cases r with
  | get id | list filter limit | control id | snapshot id => exact store_locked rfl
  | _ => exact h.elim

theorem lawful_read {r : Request} (h : r.IsRead) :
    view.Lawful (.ofStep m moment r (m.perform moment r)) :=
  lawful_same (store_read m moment h) (h.effect_eq _)

theorem lawful_replace {e : Event Memory} {t u : Task} (hfind : e.before.find? id = some t)
    (hafter : e.after = e.before.replace u) (hsubject : e.effect.subject? = some id)
    (hdeleted : e.effect ≠ .deleted id) (horigin : view.origin t = view.origin u)
    (hchange : view.Change t u e.effect) : view.Lawful e := by
  have hid : u.id = id := by
    rw [← (mem_of_find hfind).2]
    exact (congrArg Prod.fst horigin).symm
  refine View.Lawful.of_replace hfind ?_ hsubject hdeleted horigin hchange
  intro j
  show find? e.after j = if j = id then some u else find? e.before j
  rw [hafter, find_replace, hid]
  by_cases hj : j = id
  · rw [if_pos hj, if_pos hj, hj, hfind]
    rfl
  · rw [if_neg hj, if_neg hj]

variable (hopen : m.poisoned = false)
include hopen

theorem locked_open (f : Unit → Step Memory α) : m.locked f = f () := by
  unfold locked
  rw [hopen]
  rfl

theorem insert_of_fresh {t : Task} (hfresh : m.find? t.id = none) :
    m.insert t = .done { m with tasks := t :: m.tasks } () := by
  have hkept : (m.tasks.filter fun u => u.id ≠ t.id) = m.tasks := by
    rw [List.filter_eq_self]
    intro u hu
    simpa using find_eq_none.1 hfresh u hu
  unfold insert
  rw [locked_open hopen, hkept]

theorem lawful_insert {r : Request} {t : Task} (hfresh : m.find? t.id = none)
    {step : Step Memory r.Answer} (hstore : step.store = (m.insert t).store)
    (heffect : (Event.ofStep m moment r step).effect = .created t.id) :
    view.Lawful (.ofStep m moment r step) := by
  have hafter : ∀ j, find? step.store j = if j = t.id then some t else m.find? j := by
    intro j
    rw [hstore, insert, locked_open hopen]
    exact find_insert m t j
  exact View.Lawful.of_create hfresh hafter heffect

theorem lawful_enqueue {new : NewTask} (hfresh : m.find? moment.freshId = none) :
    view.Lawful (.ofStep m moment (.enqueue new) (m.enqueue moment new)) := by
  apply lawful_insert hopen (t := Task.ofNew new moment.freshId moment.created) hfresh rfl
  rw [enqueue, insert, locked_open hopen]
  rfl

theorem claim_of_none {limit : Nat} {time : ZonedTime} {notices : List Notice}
    (hpick : pick time.hour (oldest m.tasks .waiting limit) = (notices, none)) :
    m.claim moment limit time = ⟨.ok none, m, notices⟩ := by
  rw [claim, locked_open hopen, hpick]

theorem claim_of_pick {limit : Nat} {time : ZonedTime} {notices : List Notice} {t : Task}
    (hpick : pick time.hour (oldest m.tasks .waiting limit) = (notices, some t)) :
    m.claim moment limit time =
      ⟨.ok (some { t with status := .processing, updatedAt := moment.now }),
        m.replace { t with status := .processing, updatedAt := moment.now }, notices⟩ := by
  rw [claim, locked_open hopen, hpick]

/-- A change to a result that can be changed. -/
theorem modify_of_find {t : Task} {result : TaskResult} {status : Option Status}
    {f : TaskResult → Option (TaskResult × α)} {a : α} (hfind : m.find? id = some t)
    (hf : f t.result = some (result, a)) :
    m.modify moment id status f =
      .done
        (m.replace { t with
          result := result, status := status.getD t.status, updatedAt := moment.now })
        a := by
  unfold modify withTask
  rw [locked_open hopen, hfind]
  simp only [hf]

theorem append_of_push {t : Task} {lines : List String} {window : Nat} {next : Log.Snapshot}
    (hfind : m.find? id = some t) (hpush : t.result.snapshot.push? lines window = some next) :
    m.append moment id lines window =
      .done (m.replace { t with result := t.result.withLog next, updatedAt := moment.now })
        next := by
  have hchange : (t.result.snapshot.push? lines window).map (fun s => (t.result.withLog s, s)) =
      some (t.result.withLog next, next) := by
    rw [hpush]
    rfl
  rw [append_eq_modify, modify_of_find hopen hfind hchange]
  rfl

theorem lawful_claim (hunique : m.Unique) (limit : Nat) (time : ZonedTime) :
    view.Lawful (.ofStep m moment (.claim limit time) (m.claim moment limit time)) := by
  rcases hpick : pick time.hour (oldest m.tasks .waiting limit) with ⟨notices, picked⟩
  cases picked with
  | none =>
      rw [claim_of_none hopen hpick]
      exact lawful_same rfl rfl
  | some t =>
      obtain ⟨ht, hwaiting⟩ := mem_of_mem_oldest (mem_of_pick hpick).1
      have hstatus := matches_waiting.1 hwaiting
      rw [claim_of_pick hopen hpick]
      exact lawful_replace (hunique.find ht) rfl rfl Effect.noConfusion rfl
        ⟨congrArg some hstatus.1, hstatus.2, rfl, rfl, rfl⟩

/-- An operation on one task is lawful if it is so when the task is there. -/
theorem lawful_withTask {r : Request} {missing : Except Fault r.Answer}
    {f : Task → Step Memory r.Answer} (hmissing : r.effect missing = .nothing)
    (hf : ∀ t, m.find? id = some t → view.Lawful (.ofStep m moment r (f t))) :
    view.Lawful (.ofStep m moment r (m.withTask id missing f)) := by
  unfold withTask
  rw [locked_open hopen]
  cases hfind : m.find? id with
  | none => exact lawful_same rfl hmissing
  | some t => exact hf t hfind

theorem lawful_patch (id : TaskId) (p : ResultPatch) :
    view.Lawful (.ofStep m moment (.patch id p) (m.patch moment id p)) := by
  apply lawful_withTask hopen rfl
  intro t hfind
  exact lawful_replace hfind rfl rfl Effect.noConfusion rfl ⟨rfl, rfl, rfl⟩

theorem lawful_finalize (id : TaskId) (p : ResultPatch) (status : Status) :
    view.Lawful (.ofStep m moment (.finalize id p status) (m.finalize moment id p status)) := by
  unfold finalize
  split
  · rename_i hterminal
    apply lawful_withTask hopen rfl
    intro t hfind
    exact lawful_replace hfind rfl rfl Effect.noConfusion rfl ⟨hterminal, rfl, rfl, rfl⟩
  · exact lawful_same rfl rfl

/-- A log that cannot be counted any further leaves the lock poisoned, but every task as it is. -/
theorem lawful_append (id : TaskId) (lines : List String) (window : Nat) :
    view.Lawful (.ofStep m moment (.append id lines window) (m.append moment id lines window)) := by
  apply lawful_withTask hopen rfl
  intro t hfind
  cases t.result.snapshot.push? lines window with
  | none => exact View.Lawful.of_same (fun _ => rfl) rfl
  | some s => exact lawful_replace hfind rfl rfl Effect.noConfusion rfl ⟨rfl, rfl, rfl⟩

theorem lawful_pause (id : TaskId) :
    view.Lawful (.ofStep m moment (.pause id) (m.pause moment id)) := by
  apply lawful_withTask hopen rfl
  intro t hfind
  split
  · rename_i hpausable
    exact lawful_replace hfind rfl rfl Effect.noConfusion rfl ⟨hpausable, rfl, rfl, rfl⟩
  · exact lawful_same rfl rfl

theorem lawful_retry (id : TaskId) (hslips : ¬m.Slips (.retry id)) :
    view.Lawful (.ofStep m moment (.retry id) (m.retry moment id)) := by
  apply lawful_withTask hopen rfl
  intro t hfind
  split
  · rename_i hretryable
    have hfits : t.retries + 1 < retryBound := by
      by_contra hfull
      exact hslips ⟨hopen, t, hfind, hretryable, Int.not_lt.1 hfull⟩
    rw [if_pos hfits]
    exact lawful_replace hfind rfl rfl Effect.noConfusion rfl
      ⟨hretryable, rfl, rfl, fun _ => rfl⟩
  · exact lawful_same rfl rfl

theorem lawful_archive (id : TaskId) (archived : Bool) :
    view.Lawful (.ofStep m moment (.archive id archived) (m.archive moment id archived)) := by
  apply lawful_withTask hopen rfl
  intro t hfind
  exact lawful_replace hfind rfl rfl Effect.noConfusion rfl ⟨rfl, rfl, rfl⟩

theorem lawful_delete (id : TaskId) :
    view.Lawful (.ofStep m moment (.delete id) (m.delete id)) := by
  unfold delete
  rw [locked_open hopen]
  have hafter := find_delete m id
  cases hfind : m.find? id with
  | none =>
      apply View.Lawful.of_same
      · intro j
        refine (hafter j).trans ?_
        split
        · rename_i hj
          rw [hj]
          exact hfind.symm
        · rfl
      · rfl
  | some t => exact View.Lawful.of_delete hfind hafter rfl

omit hopen

/-- Every step is lawful in which no retry crashes. -/
theorem lawful_perform (hunique : m.Unique) {r : Request}
    (hfresh : ∀ id, r.newId? moment = some id → m.find? id = none) (hslips : ¬m.Slips r) :
    view.Lawful (.ofStep m moment r (m.perform moment r)) := by
  cases hopen : m.poisoned with
  | true => exact lawful_poisoned hopen r
  | false =>
      cases r with
      | enqueue new => exact lawful_enqueue hopen (hfresh _ rfl)
      | insert task =>
          apply lawful_insert hopen (hfresh task.id rfl) rfl
          rw [perform, insert, locked_open hopen]
          rfl
      | claim limit time => exact lawful_claim hopen hunique limit time
      | patch id p => exact lawful_patch hopen id p
      | finalize id p status => exact lawful_finalize hopen id p status
      | append id lines window => exact lawful_append hopen id lines window
      | pause id => exact lawful_pause hopen id
      | retry id => exact lawful_retry hopen id hslips
      | archive id archived => exact lawful_archive hopen id archived
      | delete id => exact lawful_delete hopen id
      | get id | list filter limit | control id | snapshot id => exact lawful_read trivial

/-! ## What every step keeps -/

theorem unique_replace (hunique : m.Unique) (t : Task) : (m.replace t).Unique := by
  unfold Unique
  rw [ids_replace]
  exact hunique

theorem unique_insert (hunique : m.Unique) (t : Task) :
    ({ m with tasks := t :: m.tasks.filter fun u => u.id ≠ t.id } : Memory).Unique := by
  unfold Unique
  rw [List.map_cons, List.nodup_cons]
  refine ⟨?_, hunique.sublist (List.filter_sublist.map _)⟩
  intro hmem
  obtain ⟨u, hu, hid⟩ := List.mem_map.1 hmem
  simp [hid] at hu

theorem unique_read (hunique : m.Unique) {r : Request} (h : r.IsRead) :
    (m.perform moment r).store.Unique := by
  rw [store_read m moment h]
  exact hunique

theorem unique_perform (hunique : m.Unique) (r : Request) :
    (m.perform moment r).store.Unique := by
  cases hopen : m.poisoned with
  | true =>
      rw [(perform_poisoned hopen r).1]
      exact hunique
  | false =>
      have htask : ∀ {α : Type} (id : TaskId) (missing : Except Fault α) (f : Task → Step Memory α),
          (∀ t, (f t).store.Unique) → (m.withTask id missing f).store.Unique := by
        intro α id missing f hf
        unfold withTask
        rw [locked_open hopen]
        cases m.find? id with
        | none => exact hunique
        | some t => exact hf t
      cases r with
      | enqueue new =>
          rw [perform, enqueue, insert, locked_open hopen]
          exact unique_insert hunique _
      | insert task =>
          rw [perform, insert, locked_open hopen]
          exact unique_insert hunique task
      | claim limit time =>
          rw [perform, claim, locked_open hopen]
          split
          · exact hunique
          · exact unique_replace hunique _
      | patch id p => exact htask id _ _ fun t => unique_replace hunique _
      | finalize id p status =>
          rw [perform, finalize]
          split
          · exact htask id _ _ fun t => unique_replace hunique _
          · exact hunique
      | append id lines window =>
          apply htask id
          intro t
          split
          · exact hunique
          · exact unique_replace hunique _
      | pause id =>
          apply htask id
          intro t
          split
          · exact unique_replace hunique _
          · exact hunique
      | retry id =>
          apply htask id
          intro t
          split
          · split
            · exact unique_replace hunique _
            · exact unique_replace hunique _
          · exact hunique
      | archive id archived => exact htask id _ _ fun t => unique_replace hunique _
      | delete id =>
          rw [perform, delete, locked_open hopen]
          exact hunique.sublist (List.filter_sublist.map _)
      | get id | list filter limit | control id | snapshot id => exact unique_read hunique trivial

theorem created_perform {r : Request}
    (h : (Event.ofStep m moment r (m.perform moment r)).effect = .created id) :
    r.newId? moment = some id := by
  apply Request.newId_of_created h
  intro new hr
  subst hr
  exact Request.effect_enqueue h

theorem retry_of_slip (hslips : m.Slips (.retry id)) :
    ∃ t, m.find? id = some t ∧ t.status.isRetryable = true ∧
      m.retry moment id = (m.replace { t with status := .queued }).crash := by
  obtain ⟨hopen, t, hfind, hretryable, hfull⟩ := hslips
  refine ⟨t, hfind, hretryable, ?_⟩
  unfold retry withTask
  rw [locked_open hopen, hfind]
  simp only [hretryable, if_true]
  rw [if_neg (Int.not_lt.2 hfull)]

theorem effect_of_slip {r : Request} (hslips : m.Slips r) :
    (Event.ofStep m moment r (m.perform moment r)).effect = .nothing := by
  cases r with
  | retry id =>
      obtain ⟨t, _, _, hstep⟩ := @retry_of_slip m moment id hslips
      show (Request.retry id).effect (m.retry moment id).result = .nothing
      rw [hstep]
      rfl
  | _ => exact hslips.elim

/-- A retry that crashes changes a status without being accepted. -/
theorem not_sound_of_slip {r : Request} (hslips : m.Slips r) :
    ¬view.Sound (.ofStep m moment r (m.perform moment r)) := by
  intro hsound
  have heffect := @effect_of_slip m moment r hslips
  cases r with
  | retry id =>
      obtain ⟨t, hfind, hretryable, hstep⟩ := @retry_of_slip m moment id hslips
      have hid := (mem_of_find hfind).2
      have hafter : (m.retry moment id).store.find? id = some { t with status := .queued } := by
        rw [hstep]
        exact find_replace_self hfind hid
      have hne : some t.status ≠ some Status.queued := by
        intro hqueued
        rw [Option.some.inj hqueued] at hretryable
        cases hretryable
      have htransition := hsound.status id t _ hfind hafter hne
      rw [heffect] at htransition
      exact View.not_transition_nothing htransition
  | _ => exact hslips

/-- The store in memory keeps the lifecycle as long as no retry crashes. -/
theorem behaves : view.Behaves perform Unique fun m _ r => m.Slips r where
  keeps _ _ r hunique _ := unique_perform hunique r
  creates _ _ _ _ := created_perform
  lawful _ _ _ hunique hfresh hslips := lawful_perform hunique hfresh hslips
  breaks _ _ _ _ := not_sound_of_slip
  silent _ _ _ := effect_of_slip

end TaskQueue.Store.Memory
