import Mathlib.Tactic
import TaskQueue.Proofs.ResultRoundTrip
import TaskQueue.Proofs.Stamp
import TaskQueue.Proofs.TaskIdText
import TaskQueue.Store.Row

/-!
# Reading written rows back

A task is storable if each of its parts can be written as text without loss.  The row of a task is
read as that task exactly if the task is storable, and such rows are selected and ordered as their
tasks.
-/

namespace TaskQueue

open Json (maxNesting)

theorem Status.name_of_ofName? {name : String} {s : Status} (h : ofName? name = some s) :
    name = s.name := by
  unfold ofName? at h
  split_ifs at h <;> cases h <;> assumption

/-- Whether the row of the task can be read back. -/
structure Task.Storable (t : Task) : Prop where
  payload : t.payload.Readable maxNesting
  result : t.result.Storable
  retries_low : -retryBound ≤ t.retries
  retries_high : t.retries < retryBound
  createdAt : t.createdAt.Stampable
  updatedAt : t.updatedAt.Stampable

/-- A storable task stays storable when it gets another status, archive flag, result or time of
change. -/
theorem Task.Storable.update {t : Task} (ht : t.Storable) (status : Status) (archived : Bool)
    {result : TaskResult} (hresult : result.Storable) {now : Time.Instant}
    (hnow : now.Stampable) :
    Task.Storable
      { t with status := status, archived := archived, result := result, updatedAt := now } :=
  ⟨ht.payload, hresult, ht.retries_low, ht.retries_high, ht.createdAt, hnow⟩

namespace Store.Row

theorem instantOf_stamp {t : Time.Instant} (ht : t.Stampable) : instantOf? t.stamp = some t := by
  unfold instantOf?
  rw [Time.Instant.strict_stamp ht]
  rfl

theorem stamp_inj {t u : Time.Instant} (ht : t.Stampable) (hu : u.Stampable) :
    t.stamp = u.stamp ↔ t = u := by
  constructor
  · intro h
    have hread := congrArg instantOf? h
    rw [instantOf_stamp ht, instantOf_stamp hu] at hread
    exact Option.some.inj hread
  · intro h
    rw [h]

theorem resultOf_compact {r : TaskResult} (hr : r.Storable) :
    resultOf? r.encode.compact = some r :=
  TaskResult.decoder_encode hr

theorem statusOf_name (s : Status) : statusOf s.name = .ok s := by
  unfold statusOf
  rw [Status.ofName?_name]

/-- Whether each column of the row says what the task has there. -/
structure Says (r : Row) (t : Task) : Prop where
  id : TaskId.ofText? r.id = some t.id
  group : r.group = t.group
  eventType : r.eventType = t.eventType
  status : Status.ofName? r.status = some t.status
  archived : r.archived = t.archived
  payload : Json.parse? r.payload = some t.payload
  retries : r.retries.bmod (2 ^ 32) = t.retries
  result : resultOf? r.result = some t.result
  createdAt : instantOf? r.createdAt = some t.createdAt
  updatedAt : instantOf? r.updatedAt = some t.updatedAt

/-- A row is read as a task exactly if each column is. -/
theorem task_eq_ok_iff {r : Row} {t : Task} : r.task = .ok t ↔ r.Says t := by
  have hread : ∀ {α : Type} {column : Column} {value : Option α} {next : α → Except StoreError Task},
      (r.decode column value >>= next) = .ok t ↔ ∃ a, value = some a ∧ next a = .ok t := by
    intro α column value next
    cases value with
    | none => simp [decode, bind, Except.bind]
    | some a => simp [decode, bind, Except.bind]
  have hname : ∀ {next : Status → Except StoreError Task},
      (statusOf r.status >>= next) = .ok t ↔ ∃ s, Status.ofName? r.status = some s ∧ next s = .ok t := by
    intro next
    unfold statusOf
    cases Status.ofName? r.status with
    | none => simp [bind, Except.bind]
    | some s => simp [bind, Except.bind]
  unfold task
  simp only [hread, hname]
  constructor
  · rintro ⟨id, hid, status, hstatus, payload, hpayload, result, hresult, createdAt, hcreated,
      updatedAt, hupdated, h⟩
    cases h
    exact ⟨hid, rfl, rfl, hstatus, rfl, hpayload, rfl, hresult, hcreated, hupdated⟩
  · rintro ⟨hid, hgroup, hevent, hstatus, harchived, hpayload, hretries, hresult, hcreated, hupdated⟩
    refine ⟨_, hid, _, hstatus, _, hpayload, _, hresult, _, hcreated, _, hupdated, ?_⟩
    rw [hgroup, hevent, harchived, hretries]
    rfl

theorem bmod_retries {n : Int} :
    n.bmod (2 ^ 32) = n ↔ -retryBound ≤ n ∧ n < retryBound := by
  unfold retryBound
  constructor
  · intro h
    have hlow := Int.le_bmod (x := n) (m := 2 ^ 32) (by decide)
    have hhigh := Int.bmod_lt (x := n) (m := 2 ^ 32) (by decide)
    omega
  · rintro ⟨hlow, hhigh⟩
    rw [Int.bmod_eq_of_le] <;> omega

theorem instantOf_stamp_iff {t : Time.Instant} : instantOf? t.stamp = some t ↔ t.Stampable :=
  Time.Instant.strict_stamp_iff

/-- The row of a task is read as that task, with the payload that its text is read as. -/
theorem task_ofTask_of_parse {t : Task} {v : Json}
    (hpayload : Json.parse? t.payload.compact = some v) (hresult : t.result.Storable)
    (hretries : -retryBound ≤ t.retries ∧ t.retries < retryBound)
    (hcreated : t.createdAt.Stampable) (hupdated : t.updatedAt.Stampable) :
    (ofTask t).task = .ok { t with payload := v } :=
  task_eq_ok_iff.2
    { id := TaskId.ofText_text t.id
      group := rfl
      eventType := rfl
      status := Status.ofName?_name t.status
      archived := rfl
      payload := hpayload
      retries := bmod_retries.2 hretries
      result := resultOf_compact hresult
      createdAt := instantOf_stamp hcreated
      updatedAt := instantOf_stamp hupdated }

/-- The row of a storable task is read as that task. -/
theorem task_ofTask {t : Task} (ht : t.Storable) : (ofTask t).task = .ok t :=
  task_ofTask_of_parse (Json.parse_compact ht.payload) ht.result
    ⟨ht.retries_low, ht.retries_high⟩ ht.createdAt ht.updatedAt

/-- Rows are read as tasks one by one. -/
theorem mapM_task {rows : List Row} {tasks : List Task}
    (h : List.Forall₂ (fun r t => r.task = .ok t) rows tasks) :
    rows.mapM Row.task = .ok tasks := by
  induction h with
  | nil => rfl
  | cons hread _ ih =>
      rw [List.mapM_cons, hread, ih]
      rfl

theorem name_inj {s t : Status} : s.name = t.name ↔ s = t := by
  constructor
  · intro h
    have hread := congrArg Status.ofName? h
    rw [Status.ofName?_name, Status.ofName?_name] at hread
    exact Option.some.inj hread
  · intro h
    rw [h]

/-- A row is admitted as a task whose status and archive flag it has. -/
theorem isAdmitted_of_columns {r : Row} {t : Task} (hstatus : r.status = t.status.name)
    (harchived : r.archived = t.archived) (filter : TaskFilter) :
    r.isAdmitted filter = filter.matches t := by
  unfold isAdmitted TaskFilter.matches TaskFilter.admits
  cases filter.status <;> cases filter.archived <;> simp [hstatus, harchived, name_inj, eq_comm]

theorem isAdmitted_ofTask (t : Task) (filter : TaskFilter) :
    (ofTask t).isAdmitted filter = filter.matches t :=
  isAdmitted_of_columns rfl rfl filter

theorem isAdmitted_of_says {r : Row} {t : Task} (h : r.Says t) (filter : TaskFilter) :
    r.isAdmitted filter = filter.matches t :=
  isAdmitted_of_columns (Status.name_of_ofName? h.status) h.archived filter

/-- Rows are ordered as tasks whose identifiers and times of creation they have. -/
theorem before_of_columns {r s : Row} {a b : Task} (hr : r.id = a.id.text)
    (hrcreated : r.createdAt = a.createdAt.stamp) (ha : a.createdAt.Stampable)
    (hs : s.id = b.id.text) (hscreated : s.createdAt = b.createdAt.stamp)
    (hb : b.createdAt.Stampable) : r.before s = a.before b := by
  have hcreated := Time.Instant.stamp_lt_stamp_iff ha hb
  have hid := TaskId.text_lt_text_iff a.id b.id
  rw [Bool.eq_iff_iff]
  unfold before Task.before
  simp only [decide_eq_true_eq, hr, hs, hrcreated, hscreated]
  rw [hcreated, hid, stamp_inj ha hb]

/-- Rows of storable tasks are ordered as the tasks. -/
theorem before_ofTask {a b : Task} (ha : a.Storable) (hb : b.Storable) :
    (ofTask a).before (ofTask b) = a.before b :=
  before_of_columns rfl rfl ha.createdAt rfl rfl hb.createdAt

/-- A task comes back from its row, in every column, exactly if it is storable: its payload nests at
most 127 containers deep and each extra member at most 125, their numbers survive their texts, the
counters are in range, and both times are whole microseconds of the years 0 to 9999. -/
theorem ofTask_comes_back_iff (t : Task) : (ofTask t).task = .ok t ↔ t.Storable := by
  constructor
  · intro h
    have hsays := task_eq_ok_iff.1 h
    obtain ⟨hlow, hhigh⟩ := bmod_retries.1 hsays.retries
    exact ⟨Json.parse_compact_iff.1 hsays.payload, TaskResult.decoder_encode_iff.1 hsays.result,
      hlow, hhigh, instantOf_stamp_iff.1 hsays.createdAt, instantOf_stamp_iff.1 hsays.updatedAt⟩
  · exact task_ofTask

end Store.Row

end TaskQueue
