import Mathlib.Tactic
import TaskQueue.Proofs.LawfulHistory
import TaskQueue.Proofs.Mirror

/-!
# The lifecycle of tasks in a table

Every step of a store in a table is lawful but two.  A claim changes the row that it picks before
it reads the other columns, so a row that cannot be read is left as if it were being processed.  A
log that cannot be counted any further takes the connection down, and all rows with it.
-/

namespace TaskQueue.Store.Table

open Time (ZonedTime)

def view : View Table Row (String × Option String × String × String × String) where
  find? t id := t.rows.bind fun rows => findRow? rows id.text
  origin r := (r.id, r.group, r.eventType, r.payload, r.createdAt)
  status r := Status.ofName? r.status
  archived := Row.archived
  retries r := r.retries.bmod (2 ^ 32)

/-- The row as it is while its task is being processed. -/
def taken (moment : Moment) (r : Row) : Row :=
  { r with status := Status.processing.name, updatedAt := moment.now.stamp }

/-- Whether a request leaves rows changed although it is not answered. -/
def Slips (t : Table) (moment : Moment) : Request → Prop
  | .claim limit time =>
    ∃ rows r, t.rows = some rows ∧
      (pick time.hour (oldestRows rows .waiting limit)).2 = some r ∧
        ∀ task, (taken moment r).task ≠ .ok task
  | .append id lines window =>
    ∃ rows r result other, t.rows = some rows ∧ findRow? rows id.text = some r ∧
      Row.resultOf? r.result = some result ∧ result.snapshot.push? lines window = none ∧
        other ∈ rows ∧ other.id ≠ id.text
  | _ => False

/-- Rows whose identifiers are texts of identifiers, no two of them the same. -/
structure Keyed (rows : List Row) : Prop where
  nodup : (rows.map Row.id).Nodup
  text : ∀ r ∈ rows, ∃ id : TaskId, r.id = id.text

/-- Whether the rows of a table, if there are any, are keyed. -/
def Unique (t : Table) : Prop :=
  ∀ rows, t.rows = some rows → Keyed rows

variable {t : Table} {rows : List Row} {moment : Moment} {id : TaskId}

/-! ## Looking up after a change -/

theorem id_of_find {r : Row} {name : String} (h : findRow? rows name = some r) :
    r ∈ rows ∧ r.id = name := by
  refine ⟨List.mem_of_find?_eq_some h, ?_⟩
  simpa using List.find?_some h

theorem find_replaceRow (rows : List Row) (r : Row) (j : TaskId) :
    view.find? (replaceRow rows r) j =
      if j.text = r.id then (findRow? rows j.text).map fun _ => r else findRow? rows j.text :=
  Records.find_replace Row.id rows r j.text

/-- A row that takes the place of the one with its identifier is the one that is found. -/
theorem find_replaceRow_self {a b : Row} (hfind : findRow? rows id.text = some a)
    (hid : b.id = id.text) : view.find? (replaceRow rows b) id = some b := by
  rw [find_replaceRow, if_pos hid.symm, hfind]
  rfl

theorem find_append (rows : List Row) (r : Row) (j : TaskId) :
    view.find? ⟨some (rows ++ [r])⟩ j =
      (findRow? rows j.text).or (if r.id = j.text then some r else none) := by
  show (rows ++ [r]).find? _ = _
  rw [List.find?_append, List.find?_singleton]
  unfold findRow?
  simp

theorem find_delete (rows : List Row) (id j : TaskId) :
    view.find? ⟨some (rows.filter fun r => r.id ≠ id.text)⟩ j =
      if j = id then none else findRow? rows j.text := by
  have herase := Records.find_erase Row.id rows id.text j.text
  simp only [TaskId.text_inj] at herase
  exact herase

theorem Keyed.find (h : Keyed rows) {r : Row} (hr : r ∈ rows) : findRow? rows r.id = some r :=
  Records.find_of_mem h.nodup hr

theorem Keyed.replaceRow (h : Keyed rows) {a b : Row} {name : String}
    (hfind : findRow? rows name = some a) (hid : b.id = a.id) :
    Unique (replaceRow rows b) := by
  intro rows' hrows
  cases hrows
  constructor
  · rw [Records.keys_replace Row.id]
    exact h.nodup
  · intro r hr
    obtain ⟨s, hs, rfl⟩ := List.mem_map.1 hr
    split
    · rw [hid]
      exact h.text a (id_of_find hfind).1
    · exact h.text s hs

theorem Keyed.append (h : Keyed rows) {id : TaskId} {r : Row} (hid : r.id = id.text)
    (hfresh : findRow? rows r.id = none) : Unique ⟨some (rows ++ [r])⟩ := by
  intro rows' hrows
  cases hrows
  have hne : ∀ s ∈ rows, s.id ≠ r.id := by
    unfold findRow? at hfresh
    rw [List.find?_eq_none] at hfresh
    intro s hs
    simpa using hfresh s hs
  constructor
  · rw [List.map_append, List.nodup_append]
    refine ⟨h.nodup, by simp, ?_⟩
    intro a ha b hb
    obtain ⟨s, hs, rfl⟩ := List.mem_map.1 ha
    rw [List.mem_singleton.1 hb]
    exact hne s hs
  · intro s hs
    rcases List.mem_append.1 hs with hs | hs
    · exact h.text s hs
    · rw [List.mem_singleton.1 hs]
      exact ⟨id, hid⟩

theorem Keyed.filter (h : Keyed rows) (p : Row → Bool) : Unique ⟨some (rows.filter p)⟩ := by
  intro rows' hrows
  cases hrows
  exact ⟨h.nodup.sublist (List.filter_sublist.map _),
    fun r hr => h.text r (List.mem_of_mem_filter hr)⟩

/-! ## What an operation leaves -/

theorem store_withRows {P : Table → Prop} {f : List Row → Step Table α} (hself : P t)
    (hf : ∀ rows, t.rows = some rows → P (f rows).store) : P (t.withRows f).store := by
  unfold withRows
  split
  · exact hself
  · rename_i rows hrows
    exact hf rows hrows

theorem store_read (t : Table) (moment : Moment) {r : Request} (h : r.IsRead) :
    (t.perform moment r).store = t := by
  cases r with
  | get id =>
      apply store_withRows (P := (· = t)) rfl
      intro rows _
      split <;> rfl
  | list filter limit => exact store_withRows (P := (· = t)) rfl fun _ _ => rfl
  | control id =>
      apply store_withRows (P := (· = t)) rfl
      intro rows _
      split <;> rfl
  | snapshot id =>
      apply store_withRows (P := (· = t)) rfl
      intro rows _
      split
      · rfl
      · split <;> rfl
  | _ => exact h.elim

/-- A change to a result that can be read and changed. -/
theorem modify_of_find {row : Row} {result next : TaskResult} {status : Option Status}
    {f : TaskResult → Option (TaskResult × α)} {a : α} (hrows : t.rows = some rows)
    (hfind : findRow? rows id.text = some row) (hread : Row.resultOf? row.result = some result)
    (hf : f result = some (next, a)) :
    t.modify moment id status f =
      .done
        (replaceRow rows
          { row with
            result := next.encode.compact
            status := (status.map Status.name).getD row.status
            updatedAt := moment.now.stamp })
        a := by
  unfold modify withRows
  simp only [hrows, hfind, hread, hf]

theorem append_of_push {row : Row} {result : TaskResult} {lines : List String} {window : Nat}
    {next : Log.Snapshot} (hrows : t.rows = some rows) (hfind : findRow? rows id.text = some row)
    (hread : Row.resultOf? row.result = some result)
    (hpush : result.snapshot.push? lines window = some next) :
    t.append moment id lines window =
      .done
        (replaceRow rows
          { row with
            result := (result.withLog next).encode.compact
            updatedAt := moment.now.stamp })
        next := by
  have hchange : (result.snapshot.push? lines window).map (fun s => (result.withLog s, s)) =
      some (result.withLog next, next) := by
    rw [hpush]
    rfl
  rw [append, modify_of_find hrows hfind hread hchange]
  rfl

/-- A log that cannot be counted any further takes the connection down. -/
theorem append_of_full {row : Row} {result : TaskResult} {lines : List String} {window : Nat}
    (hrows : t.rows = some rows) (hfind : findRow? rows id.text = some row)
    (hread : Row.resultOf? row.result = some result)
    (hpush : result.snapshot.push? lines window = none) :
    t.append moment id lines window = crash := by
  unfold append modify withRows
  simp only [hrows, hfind, hread, hpush, Option.map_none]

theorem insert_of_fresh {task : Task} (hrows : t.rows = some rows)
    (hfresh : findRow? rows task.id.text = none) :
    t.insert task = .done ⟨some (rows ++ [.ofTask task])⟩ () := by
  have hnone : findRow? rows (Row.ofTask task).id = none := hfresh
  have hknown : Status.ofName? (Row.ofTask task).status = some task.status :=
    Status.ofName?_name task.status
  unfold insert insertRow withRows
  simp only [hrows, hnone, hknown]
  rfl

/-! ## Picking a row -/

theorem claim_of_none {limit : Nat} {time : ZonedTime} {notices : List Notice}
    (hrows : t.rows = some rows)
    (hpick : pick time.hour (oldestRows rows .waiting limit) = (notices, none)) :
    t.claim moment limit time = ⟨.ok none, t, notices⟩ := by
  unfold claim withRows
  rw [hrows]
  simp only [hpick]

theorem claim_of_pick {limit : Nat} {time : ZonedTime} {notices : List Notice} {r : Row}
    (hrows : t.rows = some rows)
    (hpick : pick time.hour (oldestRows rows .waiting limit) = (notices, some r)) :
    t.claim moment limit time =
      ⟨((taken moment r).task.map some).mapError .error, replaceRow rows (taken moment r),
        notices⟩ := by
  unfold claim withRows
  rw [hrows]
  simp only [hpick]
  rfl

/-- Whether a claim at the given hour may take the row: its payload can be read and its window is
open. -/
def claimable (hour : Nat) (r : Row) : Bool :=
  (Json.parse? r.payload).any fun payload => Schedule.admits payload hour

theorem pick_eq_find (hour : Nat) (candidates : List Row) :
    (pick hour candidates).2 = candidates.find? (claimable hour) := by
  induction candidates with
  | nil => rfl
  | cons r rest ih =>
      rw [pick, List.find?_cons]
      unfold claimable at ih ⊢
      cases Json.parse? r.payload with
      | none => exact ih
      | some payload =>
          cases hadmits : Schedule.admits payload hour with
          | true => simp [hadmits]
          | false => simpa [hadmits] using ih

theorem mem_of_pick {hour : Nat} {r : Row} (h : (pick hour rows).2 = some r) : r ∈ rows := by
  rw [pick_eq_find] at h
  exact List.mem_of_find?_eq_some h

theorem mem_of_mem_oldestRows {filter : TaskFilter} {limit : Nat} {r : Row}
    (h : r ∈ oldestRows rows filter limit) : r ∈ rows ∧ r.isAdmitted filter = true :=
  List.mem_filter.1 ((List.mergeSort_perm _ _).mem_iff.1 (List.mem_of_mem_take h))

theorem isAdmitted_waiting {r : Row} :
    r.isAdmitted .waiting = true ↔ r.status = Status.queued.name ∧ r.archived = false := by
  unfold Row.isAdmitted TaskFilter.waiting
  simp only [Option.all_some, decide_eq_true_eq]
  rw [@eq_comm _ false]

theorem id_of_task {r : Row} {task : Task} (h : r.task = .ok task) (hid : r.id = id.text) :
    task.id = id := by
  have hread := (Row.task_eq_ok_iff.1 h).id
  rw [hid, TaskId.ofText_text] at hread
  exact (Option.some.inj hread).symm

/-! ## Lawful steps -/

theorem lawful_same {e : Event Table} (hafter : e.after = e.before)
    (heffect : e.effect = .nothing) : view.Lawful e := by
  refine View.Lawful.of_same ?_ heffect
  intro j
  rw [hafter]

theorem find_of_rows (hrows : t.rows = some rows) (j : TaskId) :
    view.find? t j = findRow? rows j.text := by
  show t.rows.bind _ = _
  rw [hrows]
  rfl

theorem lawful_replace {e : Event Table} {a b : Row} (hrows : e.before.rows = some rows)
    (hfind : findRow? rows id.text = some a) (hafter : e.after = replaceRow rows b)
    (hsubject : e.effect.subject? = some id) (hdeleted : e.effect ≠ .deleted id)
    (horigin : view.origin a = view.origin b) (hchange : view.Change a b e.effect) :
    view.Lawful e := by
  have hid : b.id = id.text := by
    rw [← (id_of_find hfind).2]
    exact (congrArg Prod.fst horigin).symm
  refine View.Lawful.of_replace (find_of_rows hrows id |>.trans hfind) ?_ hsubject hdeleted
    horigin hchange
  intro j
  rw [hafter, find_replaceRow, find_of_rows hrows, hid]
  by_cases hj : j = id
  · rw [if_pos hj, if_pos (by rw [hj]), hj, hfind]
    rfl
  · rw [if_neg hj, if_neg (fun h => hj (TaskId.text_inj.1 h))]

/-- An operation on the rows is lawful if it is so when the table is there. -/
theorem lawful_withRows {r : Request} {f : List Row → Step Table r.Answer}
    (hf : ∀ rows, t.rows = some rows → view.Lawful (.ofStep t moment r (f rows))) :
    view.Lawful (.ofStep t moment r (t.withRows f)) := by
  unfold withRows
  split
  · exact lawful_same rfl (Request.effect_error r _)
  · rename_i rows hrows
    exact hf rows hrows

theorem lawful_claim (hunique : t.Unique) {limit : Nat} {time : ZonedTime}
    (hslips : ¬t.Slips moment (.claim limit time)) :
    view.Lawful (.ofStep t moment (.claim limit time) (t.claim moment limit time)) := by
  apply lawful_withRows
  intro rows hrows
  rcases hpick : pick time.hour (oldestRows rows .waiting limit) with ⟨notices, picked⟩
  cases picked with
  | none => exact lawful_same rfl rfl
  | some r =>
      obtain ⟨hr, hwaiting⟩ := mem_of_mem_oldestRows (mem_of_pick (congrArg Prod.snd hpick))
      obtain ⟨hstatus, harchived⟩ := isAdmitted_waiting.1 hwaiting
      obtain ⟨id, hid⟩ := (hunique rows hrows).text r hr
      have hfind := (hunique rows hrows).find hr
      rw [hid] at hfind
      show view.Lawful (.ofStep t moment (.claim limit time)
        ⟨((taken moment r).task.map some).mapError .error, replaceRow rows (taken moment r), notices⟩)
      cases htask : (taken moment r).task with
      | error e =>
          refine absurd ⟨rows, r, hrows, congrArg Prod.snd hpick, ?_⟩ hslips
          intro task hok
          rw [htask] at hok
          cases hok
      | ok task =>
          have htaskid := id_of_task htask hid
          subst htaskid
          refine lawful_replace hrows hfind rfl rfl Effect.noConfusion rfl
            ⟨?_, harchived, rfl, rfl, rfl⟩
          show Status.ofName? r.status = _
          rw [hstatus]
          rfl

/-- A change to the result of a row, with a status in the last patch of a run. -/
theorem lawful_modify {r : Request} {status : Option Status}
    {f : TaskResult → Option (TaskResult × r.Answer)}
    (hsubject : ∀ a, (r.effect (.ok a)).subject? = some id)
    (hdeleted : ∀ a, r.effect (.ok a) ≠ .deleted id)
    (hchange : ∀ (row : Row) (result : String) (a : r.Answer),
      view.Change row { row with
        result := result
        status := (status.map Status.name).getD row.status
        updatedAt := moment.now.stamp } (r.effect (.ok a)))
    (hcrash : ∀ rows row result, t.rows = some rows → findRow? rows id.text = some row →
      Row.resultOf? row.result = some result → f result = none →
      view.Lawful (.ofStep t moment r crash)) :
    view.Lawful (.ofStep t moment r (t.modify moment id status f)) := by
  apply lawful_withRows
  intro rows hrows
  cases hfind : findRow? rows id.text with
  | none => exact lawful_same rfl (Request.effect_error r _)
  | some row =>
      simp only
      cases hread : Row.resultOf? row.result with
      | none => exact lawful_same rfl (Request.effect_error r _)
      | some result =>
          simp only
          cases hf : f result with
          | none => exact hcrash rows row result hrows hfind hread hf
          | some next =>
              obtain ⟨result', a⟩ := next
              exact lawful_replace hrows hfind rfl (hsubject a) (hdeleted a) rfl
                (hchange row _ a)

theorem lawful_patch (id : TaskId) (p : ResultPatch) :
    view.Lawful (.ofStep t moment (.patch id p) (t.patch moment id p)) := by
  apply lawful_modify (r := .patch id p)
  · exact fun _ => rfl
  · exact fun _ => Effect.noConfusion
  · exact fun _ _ _ => ⟨rfl, rfl, rfl⟩
  · intro rows row result _ _ _ hf
    cases hf

theorem lawful_finalize (id : TaskId) (p : ResultPatch) (status : Status) :
    view.Lawful (.ofStep t moment (.finalize id p status) (t.finalize moment id p status)) := by
  unfold finalize
  split
  · rename_i hterminal
    apply lawful_modify (r := .finalize id p status)
    · exact fun _ => rfl
    · exact fun _ => Effect.noConfusion
    · exact fun _ _ _ => ⟨hterminal, Status.ofName?_name status, rfl, rfl⟩
    · intro rows row result _ _ _ hf
      cases hf
  · exact lawful_same rfl rfl

theorem lawful_append {id : TaskId} {lines : List String} {window : Nat}
    (hslips : ¬t.Slips moment (.append id lines window)) :
    view.Lawful (.ofStep t moment (.append id lines window) (t.append moment id lines window)) := by
  apply lawful_modify (r := .append id lines window)
  · exact fun _ => rfl
  · exact fun _ => Effect.noConfusion
  · exact fun _ _ _ => ⟨rfl, rfl, rfl⟩
  · intro rows row result hrows hfind hread hf
    have hpush : result.snapshot.push? lines window = none := by
      cases h : result.snapshot.push? lines window with
      | none => rfl
      | some s => simp [h] at hf
    have halone : ∀ j, j ≠ id → view.find? t j = none := by
      intro j hj
      rw [find_of_rows hrows]
      cases hother : findRow? rows j.text with
      | none => rfl
      | some other =>
          obtain ⟨hmem, hid⟩ := id_of_find hother
          refine absurd ⟨rows, row, result, other, hrows, hfind, hread, hpush, hmem, ?_⟩ hslips
          rw [hid]
          exact fun h => hj (TaskId.text_inj.1 h)
    exact View.Lawful.of_loss rfl halone (fun _ => rfl) rfl

theorem lawful_pause (id : TaskId) :
    view.Lawful (.ofStep t moment (.pause id) (t.pause moment id)) := by
  apply lawful_withRows
  intro rows hrows
  cases hfind : findRow? rows id.text with
  | none => exact lawful_same rfl rfl
  | some row =>
      simp only
      split
      · rename_i hpausable
        exact lawful_replace hrows hfind rfl rfl Effect.noConfusion rfl
          ⟨hpausable, rfl, rfl, rfl⟩
      · exact lawful_same rfl rfl

theorem bmod_succ {retries : Int} (h : retries.bmod (2 ^ 32) < retryBound - 1) :
    (retries + 1).bmod (2 ^ 32) = retries.bmod (2 ^ 32) + 1 := by
  have hlow := Int.le_bmod (x := retries) (m := 2 ^ 32) (by decide)
  unfold retryBound at h
  rw [← Int.bmod_add_bmod, Int.bmod_eq_of_le] <;> omega

theorem lawful_retry (id : TaskId) :
    view.Lawful (.ofStep t moment (.retry id) (t.retry moment id)) := by
  apply lawful_withRows
  intro rows hrows
  cases hfind : findRow? rows id.text with
  | none => exact lawful_same rfl rfl
  | some row =>
      simp only
      cases hname : Status.ofName? row.status with
      | none =>
          have hstatus : Row.statusOf row.status = .error (.invalidStatus row.status) := by
            unfold Row.statusOf
            rw [hname]
          rw [hstatus]
          exact lawful_same rfl rfl
      | some status =>
          have hstatus : Row.statusOf row.status = .ok status := by
            unfold Row.statusOf
            rw [hname]
          rw [hstatus]
          simp only
          split
          · rename_i hretryable
            cases Row.resultOf? row.result with
            | none => exact lawful_same rfl rfl
            | some result =>
                refine lawful_replace hrows hfind rfl rfl Effect.noConfusion rfl
                  ⟨?_, rfl, rfl, bmod_succ⟩
                show (Status.ofName? row.status).any _ = true
                rw [hname]
                exact hretryable
          · exact lawful_same rfl rfl

theorem lawful_archive (id : TaskId) (archived : Bool) :
    view.Lawful (.ofStep t moment (.archive id archived) (t.archive moment id archived)) := by
  apply lawful_withRows
  intro rows hrows
  cases hfind : findRow? rows id.text with
  | none => exact lawful_same rfl rfl
  | some row =>
      exact lawful_replace hrows hfind rfl rfl Effect.noConfusion rfl ⟨rfl, rfl, rfl⟩

theorem lawful_delete (id : TaskId) :
    view.Lawful (.ofStep t moment (.delete id) (t.delete id)) := by
  apply lawful_withRows
  intro rows hrows
  have hafter := find_delete rows id
  cases hfind : findRow? rows id.text with
  | none =>
      apply View.Lawful.of_same
      · intro j
        refine (hafter j).trans ?_
        refine Eq.trans ?_ (find_of_rows hrows j).symm
        split
        · rename_i hj
          rw [hj]
          exact hfind.symm
        · rfl
      · rfl
  | some row =>
      refine View.Lawful.of_delete ((find_of_rows hrows id).trans hfind) ?_ rfl
      intro j
      refine (hafter j).trans ?_
      rw [← find_of_rows hrows j]
      rfl

theorem lawful_insert {r : Request} {task : Task} (hfresh : view.find? t task.id = none)
    {step : Step Table r.Answer} (hstore : step.store = (t.insert task).store)
    (herror : ∀ f, (t.insert task).result = .error f → r.effect step.result = .nothing)
    (hok : ∀ u, (t.insert task).result = .ok u → r.effect step.result = .created task.id) :
    view.Lawful (.ofStep t moment r step) := by
  cases hrows : t.rows with
  | none =>
      have hinsert : t.insert task = .fail t .database := by
        unfold insert insertRow withRows
        rw [hrows]
      rw [hinsert] at hstore herror
      exact lawful_same hstore (herror _ rfl)
  | some rows =>
      rw [find_of_rows hrows] at hfresh
      have hinsert := insert_of_fresh hrows hfresh
      rw [hinsert] at hstore hok
      refine View.Lawful.of_create (b := .ofTask task)
        ((find_of_rows hrows task.id).trans hfresh) ?_ (hok _ rfl)
      intro j
      refine (congrArg (fun s => view.find? s j) hstore).trans ?_
      show view.find? ⟨some (rows ++ [Row.ofTask task])⟩ j = _
      rw [find_append]
      show _ = if j = task.id then _ else view.find? t j
      rw [find_of_rows hrows]
      by_cases hj : j = task.id
      · have hsame : (Row.ofTask task).id = task.id.text := rfl
        rw [if_pos hj, hj, hfresh, if_pos hsame, Option.none_or]
      · have hne : ¬(Row.ofTask task).id = j.text := fun h => hj (TaskId.text_inj.1 h).symm
        rw [if_neg hj, if_neg hne, Option.or_none]

theorem lawful_enqueue {new : NewTask} (hfresh : view.find? t moment.freshId = none) :
    view.Lawful (.ofStep t moment (.enqueue new) (t.enqueue moment new)) := by
  let task := Task.ofNew new moment.freshId moment.created
  let effect (result : Except Fault Unit) := Request.effect (.enqueue new) (result.map fun _ => task)
  refine @lawful_insert t moment (.enqueue new) task hfresh (t.enqueue moment new) rfl ?_ ?_
  · intro f hf
    exact congrArg effect hf
  · intro u hu
    exact congrArg effect hu

theorem lawful_read {r : Request} (h : r.IsRead) :
    view.Lawful (.ofStep t moment r (t.perform moment r)) :=
  lawful_same (store_read t moment h) (h.effect_eq _)

/-- Every step is lawful in which the table does not slip. -/
theorem lawful_perform (hunique : t.Unique) {r : Request}
    (hfresh : ∀ id, r.newId? moment = some id → view.find? t id = none)
    (hslips : ¬t.Slips moment r) : view.Lawful (.ofStep t moment r (t.perform moment r)) := by
  cases r with
  | enqueue new => exact lawful_enqueue (hfresh _ rfl)
  | insert task =>
      refine lawful_insert (hfresh task.id rfl) rfl ?_ ?_
      · intro f hf
        exact congrArg (Request.effect (.insert task)) hf
      · intro u hu
        exact congrArg (Request.effect (.insert task)) hu
  | claim limit time => exact lawful_claim hunique hslips
  | patch id p => exact lawful_patch id p
  | finalize id p status => exact lawful_finalize id p status
  | append id lines window => exact lawful_append hslips
  | pause id => exact lawful_pause id
  | retry id => exact lawful_retry id
  | archive id archived => exact lawful_archive id archived
  | delete id => exact lawful_delete id
  | get id | list filter limit | control id | snapshot id => exact lawful_read trivial

/-! ## What every step keeps -/

theorem unique_none : Unique ⟨none⟩ := by
  intro rows hrows
  cases hrows

theorem unique_modify (hunique : t.Unique) (status : Option Status)
    (f : TaskResult → Option (TaskResult × α)) : (t.modify moment id status f).store.Unique := by
  apply store_withRows hunique
  intro rows hrows
  cases hfind : findRow? rows id.text with
  | none => exact hunique
  | some row =>
      dsimp only
      split
      · exact hunique
      · split
        · exact unique_none
        · exact (hunique rows hrows).replaceRow hfind rfl

theorem unique_insert (hunique : t.Unique) (task : Task) : (t.insert task).store.Unique := by
  apply store_withRows hunique
  intro rows hrows
  split
  · exact hunique
  · rename_i hfree
    rw [not_or] at hfree
    have hnone : findRow? rows (Row.ofTask task).id = none := by simpa using hfree.1
    exact @Keyed.append rows (hunique rows hrows) task.id _ rfl hnone

theorem unique_read (hunique : t.Unique) {r : Request} (h : r.IsRead) :
    (t.perform moment r).store.Unique := by
  rw [store_read t moment h]
  exact hunique

theorem unique_perform (hunique : t.Unique) (r : Request) :
    (t.perform moment r).store.Unique := by
  cases r with
  | enqueue new => exact unique_insert hunique _
  | insert task => exact unique_insert hunique task
  | get id | list filter limit | control id | snapshot id => exact unique_read hunique trivial
  | patch id p => exact unique_modify hunique none _
  | append id lines window => exact unique_modify hunique none _
  | finalize id p status =>
      rw [perform, finalize]
      split
      · exact unique_modify hunique _ _
      · exact hunique
  | claim limit time =>
      apply store_withRows hunique
      intro rows hrows
      dsimp only
      split
      · exact hunique
      · rename_i notices r hpick
        have hr := (mem_of_mem_oldestRows (mem_of_pick (congrArg Prod.snd hpick))).1
        exact (hunique rows hrows).replaceRow ((hunique rows hrows).find hr) rfl
  | pause id =>
      apply store_withRows hunique
      intro rows hrows
      split
      · exact hunique
      · rename_i row hfind
        split
        · exact (hunique rows hrows).replaceRow hfind rfl
        · exact hunique
  | retry id =>
      apply store_withRows hunique
      intro rows hrows
      split
      · exact hunique
      · rename_i row hfind
        split
        · exact hunique
        · split
          · split
            · exact hunique
            · exact (hunique rows hrows).replaceRow hfind rfl
          · exact hunique
  | archive id archived =>
      apply store_withRows hunique
      intro rows hrows
      split
      · exact hunique
      · rename_i row hfind
        exact (hunique rows hrows).replaceRow hfind rfl
  | delete id =>
      apply store_withRows hunique
      intro rows hrows
      exact (hunique rows hrows).filter _

theorem created_perform {r : Request}
    (h : (Event.ofStep t moment r (t.perform moment r)).effect = .created id) :
    r.newId? moment = some id := by
  apply Request.newId_of_created h
  intro new hr
  subst hr
  exact Request.effect_enqueue h

theorem claim_of_slip {limit : Nat} {time : ZonedTime}
    (hslips : t.Slips moment (.claim limit time)) :
    ∃ rows r e notices, t.rows = some rows ∧ r ∈ rows ∧ r.status = Status.queued.name ∧
      t.claim moment limit time =
        ⟨.error (.error e), replaceRow rows (taken moment r), notices⟩ := by
  obtain ⟨rows, r, hrows, hpicked, hunread⟩ := hslips
  obtain ⟨hr, hwaiting⟩ := mem_of_mem_oldestRows (mem_of_pick hpicked)
  obtain ⟨e, herror⟩ : ∃ e, (taken moment r).task = .error e := by
    cases htask : (taken moment r).task with
    | error e => exact ⟨e, rfl⟩
    | ok task => exact absurd htask (hunread task)
  rcases hpick : pick time.hour (oldestRows rows .waiting limit) with ⟨notices, picked⟩
  rw [hpick] at hpicked
  cases hpicked
  refine ⟨rows, r, e, notices, hrows, hr, (isAdmitted_waiting.1 hwaiting).1, ?_⟩
  rw [claim_of_pick hrows hpick, herror]
  rfl

theorem append_of_slip {lines : List String} {window : Nat}
    (hslips : t.Slips moment (.append id lines window)) :
    ∃ rows other, t.rows = some rows ∧ other ∈ rows ∧ other.id ≠ id.text ∧
      t.append moment id lines window = crash := by
  obtain ⟨rows, r, result, other, hrows, hfind, hread, hpush, hmem, hother⟩ := hslips
  exact ⟨rows, other, hrows, hmem, hother, append_of_full hrows hfind hread hpush⟩

theorem effect_of_slip {r : Request} (hslips : t.Slips moment r) :
    (Event.ofStep t moment r (t.perform moment r)).effect = .nothing := by
  cases r with
  | claim limit time =>
      obtain ⟨rows, r, e, notices, _, _, _, hstep⟩ := claim_of_slip hslips
      show (Request.claim limit time).effect (t.claim moment limit time).result = .nothing
      rw [hstep]
      rfl
  | append id lines window =>
      obtain ⟨rows, other, _, _, _, hstep⟩ := append_of_slip hslips
      show (Request.append id lines window).effect (t.append moment id lines window).result = _
      rw [hstep]
      rfl
  | _ => exact hslips.elim

/-- A claim of a row that cannot be read changes a status without being answered. -/
theorem not_sound_of_claim (hunique : t.Unique) {limit : Nat} {time : ZonedTime}
    (hslips : t.Slips moment (.claim limit time)) :
    ¬view.Sound (.ofStep t moment (.claim limit time) (t.claim moment limit time)) := by
  intro hsound
  obtain ⟨rows, r, e, notices, hrows, hr, hqueued, hstep⟩ := claim_of_slip hslips
  obtain ⟨id, hid⟩ := (hunique rows hrows).text r hr
  have hfind := (hunique rows hrows).find hr
  rw [hid] at hfind
  have hbefore : view.find? t id = some r := (find_of_rows hrows id).trans hfind
  have hafter : view.find? (t.claim moment limit time).store id = some (taken moment r) := by
    rw [hstep]
    exact find_replaceRow_self hfind hid
  have hne : view.status r ≠ view.status (taken moment r) := by
    show Status.ofName? r.status ≠ Status.ofName? Status.processing.name
    rw [hqueued]
    decide
  have htransition := hsound.status id r _ hbefore hafter hne
  have heffect := effect_of_slip hslips
  change (Event.ofStep t moment (.claim limit time) (t.claim moment limit time)).effect = _ at heffect
  rw [heffect] at htransition
  exact View.not_transition_nothing htransition

/-- A log that cannot be counted any further takes other rows away. -/
theorem not_sound_of_append (hunique : t.Unique) {lines : List String} {window : Nat}
    (hslips : t.Slips moment (.append id lines window)) :
    ¬view.Sound (.ofStep t moment (.append id lines window) (t.append moment id lines window)) := by
  intro hsound
  obtain ⟨rows, other, hrows, hmem, hother, hstep⟩ := append_of_slip hslips
  obtain ⟨j, hj⟩ := (hunique rows hrows).text other hmem
  have hbefore : view.find? t j = some other := by
    rw [find_of_rows hrows, ← hj]
    exact (hunique rows hrows).find hmem
  have heffect := effect_of_slip hslips
  have htouches :
      ¬(Event.ofStep t moment (.append id lines window) (t.append moment id lines window)).Touches
        j := by
    rintro (h | h)
    · cases h
      exact hother hj
    · change (Event.ofStep t moment (.append id lines window)
        (t.perform moment (.append id lines window))).effect.subject? = some j at h
      rw [heffect] at h
      cases h
  have hsame := hsound.others j htouches
  change view.find? (t.append moment id lines window).store j = view.find? t j at hsame
  rw [hstep, hbefore] at hsame
  cases hsame

/-- The store in a table keeps the lifecycle as long as it does not slip. -/
theorem behaves : view.Behaves perform Unique Slips where
  keeps _ _ r hunique _ := unique_perform hunique r
  creates _ _ _ _ := created_perform
  lawful _ _ _ hunique hfresh hslips := lawful_perform hunique hfresh hslips
  breaks t moment r hunique hslips := by
    cases r with
    | claim limit time => exact not_sound_of_claim hunique hslips
    | append id lines window => exact not_sound_of_append hunique hslips
    | _ => exact hslips.elim
  silent _ _ _ := effect_of_slip

end TaskQueue.Store.Table
