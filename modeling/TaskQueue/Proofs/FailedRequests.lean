import Mathlib.Tactic
import TaskQueue.Proofs.StoreAgreement
import TaskQueue.Proofs.TableLifecycle

/-!
# Requests that fail

A request that a table refuses should leave every row as it was.  It does so with two exceptions,
and they are the same whatever the rows hold.  A claim marks the row that it picks before it reads
the columns, so the row stays marked if its identifier, its result or its time of creation cannot be
read.  A log line that cannot be counted takes the connection down, and the database with it.
-/

namespace TaskQueue.Store.Table

open Time (ZonedTime)

variable {t : Table} {rows : List Row} {moment : Moment} {id : TaskId}

/-- Whether a step leaves the table as it was if it fails. -/
def Spares (t : Table) (s : Step Table α) : Prop :=
  ∀ fault, s.result = .error fault → s.store = t

/-- How a request that fails changes a table: the request, and the table after it. -/
inductive Spoils (t : Table) (moment : Moment) : Request → Table → Prop where
  /-- The picked row is marked although it cannot be read. -/
  | claim {rows : List Row} {r : Row} {limit : Nat} {time : ZonedTime} (hrows : t.rows = some rows)
      (hpick : (pick time.hour (oldestRows rows .waiting limit)).2 = some r)
      (hunread : TaskId.ofText? r.id = none ∨ Row.resultOf? r.result = none ∨
        Row.instantOf? r.createdAt = none ∨ Row.instantOf? moment.now.stamp = none) :
    Spoils t moment (.claim limit time) (replaceRow rows (taken moment r))
  /-- The lines of a log cannot be counted any further. -/
  | append {rows : List Row} {r : Row} {result : TaskResult} {id : TaskId} {lines : List String}
      {window : Nat} (hrows : t.rows = some rows) (hfind : findRow? rows id.text = some r)
      (hread : Row.resultOf? r.result = some result)
      (hpush : result.snapshot.push? lines window = none) :
    Spoils t moment (.append id lines window) ⟨none⟩

/-! ## Steps that spare the table -/

theorem spares_done (store : Table) (a : α) : t.Spares (.done store a) := by
  intro fault h
  cases h

theorem spares_same (result : Except Fault α) (notices : List Notice) :
    t.Spares ⟨result, t, notices⟩ :=
  fun _ _ => rfl

theorem spares_withRows {f : List Row → Step Table α}
    (hf : ∀ rows, t.rows = some rows → t.Spares (f rows)) : t.Spares (t.withRows f) := by
  unfold withRows
  split
  · exact spares_same _ _
  · rename_i rows hrows
    exact hf rows hrows

theorem spares_read {r : Request} (h : r.IsRead) : t.Spares (t.perform moment r) :=
  fun _ _ => store_read t moment h

theorem spares_insert (task : Task) : t.Spares (t.insert task) := by
  apply spares_withRows
  intro rows _
  split
  · exact spares_same _ _
  · exact spares_done _ _

/-- A step whose answer is replaced by another one fails as before. -/
theorem Spares.map {s : Step Table α} (h : t.Spares s) (f : α → β) :
    t.Spares (⟨s.result.map f, s.store, s.notices⟩ : Step Table β) := by
  intro fault hfault
  cases hresult : s.result with
  | error e => exact h e hresult
  | ok a =>
      rw [hresult] at hfault
      cases hfault

/-- A change to the result of a row spares the table if the change can be made. -/
theorem spares_modify {status : Option Status} {f : TaskResult → Option (TaskResult × α)}
    (hf : ∀ rows row result, t.rows = some rows → findRow? rows id.text = some row →
      Row.resultOf? row.result = some result → f result ≠ none) :
    t.Spares (t.modify moment id status f) := by
  apply spares_withRows
  intro rows hrows
  cases hfind : findRow? rows id.text with
  | none => exact spares_same _ _
  | some row =>
      simp only
      cases hread : Row.resultOf? row.result with
      | none => exact spares_same _ _
      | some result =>
          simp only
          cases hchange : f result with
          | none => exact absurd hchange (hf rows row result hrows hfind hread)
          | some next => exact spares_done _ _

theorem spares_pause : t.Spares (t.pause moment id) := by
  apply spares_withRows
  intro rows _
  split
  · exact spares_done _ _
  · split
    · exact spares_done _ _
    · exact spares_done _ _

/-- A retry reads the row before it writes. -/
theorem spares_retry : t.Spares (t.retry moment id) := by
  apply spares_withRows
  intro rows _
  split
  · exact spares_done _ _
  · split
    · exact spares_same _ _
    · split
      · split
        · exact spares_same _ _
        · exact spares_done _ _
      · exact spares_done _ _

theorem spares_archive (flag : Bool) : t.Spares (t.archive moment id flag) := by
  apply spares_withRows
  intro rows _
  split
  · exact spares_done _ _
  · exact spares_done _ _

theorem spares_delete : t.Spares (t.delete id) :=
  spares_withRows fun _ _ => spares_done _ _

/-! ## Claims -/

theorem payload_of_pick {hour : Nat} {candidates : List Row} {r : Row}
    (h : (pick hour candidates).2 = some r) : ∃ payload, Json.parse? r.payload = some payload := by
  rw [pick_eq_find] at h
  have hclaimable := List.find?_some h
  unfold claimable at hclaimable
  rw [Option.any_eq_true] at hclaimable
  obtain ⟨payload, hpayload, -⟩ := hclaimable
  exact ⟨payload, hpayload⟩

/-- Of a row whose payload can be read, the mark of a claim leaves three columns that may be
corrupt; its own time may be out of range as well. -/
theorem task_taken_iff {r : Row} {payload : Json} (hpayload : Json.parse? r.payload = some payload) :
    (∃ e, (taken moment r).task = .error e) ↔
      TaskId.ofText? r.id = none ∨ Row.resultOf? r.result = none ∨
        Row.instantOf? r.createdAt = none ∨ Row.instantOf? moment.now.stamp = none := by
  have hstatus : Row.statusOf Status.processing.name = .ok .processing :=
    Row.statusOf_name .processing
  unfold Row.task taken
  simp only [hstatus, hpayload, Row.decode, bind, Except.bind, pure, Except.pure]
  cases TaskId.ofText? r.id <;> cases Row.resultOf? r.result <;>
    cases Row.instantOf? r.createdAt <;> cases Row.instantOf? moment.now.stamp <;> simp

/-- A row that waits does not stay as it is when it is marked. -/
theorem replaceRow_taken_ne {r : Row} (hrows : t.rows = some rows) (hr : r ∈ rows)
    (hqueued : r.status = Status.queued.name) : replaceRow rows (taken moment r) ≠ t := by
  intro hsame
  have hrowsame : (rows.map fun s => if s.id = r.id then taken moment r else s) = rows.map id := by
    have h := congrArg Table.rows hsame
    rw [hrows] at h
    rw [List.map_id]
    exact Option.some.inj h
  have hfixed := List.map_inj_left.1 hrowsame r hr
  rw [if_pos rfl] at hfixed
  have hmark : Status.processing.name = r.status := congrArg Row.status hfixed
  rw [hqueued] at hmark
  exact absurd hmark (by decide)

theorem spoils_of_claim {limit : Nat} {time : ZonedTime} {fault : Fault}
    (hfault : (t.claim moment limit time).result = .error fault)
    (hchanged : (t.claim moment limit time).store ≠ t) :
    t.Spoils moment (.claim limit time) (t.claim moment limit time).store := by
  cases hrows : t.rows with
  | none =>
      refine absurd ?_ hchanged
      unfold claim withRows
      rw [hrows]
      rfl
  | some rows =>
      rcases hpick : pick time.hour (oldestRows rows .waiting limit) with ⟨notices, picked⟩
      cases picked with
      | none =>
          refine absurd ?_ hchanged
          rw [claim_of_none hrows hpick]
      | some r =>
          have hpicked : (pick time.hour (oldestRows rows .waiting limit)).2 = some r := by
            rw [hpick]
          obtain ⟨payload, hpayload⟩ := payload_of_pick hpicked
          rw [claim_of_pick hrows hpick] at hfault ⊢
          cases htask : (taken moment r).task with
          | error e => exact .claim hrows hpicked ((task_taken_iff hpayload).1 ⟨e, htask⟩)
          | ok task =>
              rw [htask] at hfault
              cases hfault

theorem claim_of_spoils {limit : Nat} {time : ZonedTime} {after : Table}
    (h : t.Spoils moment (.claim limit time) after) :
    (∃ fault, (t.claim moment limit time).result = .error fault) ∧
      (t.claim moment limit time).store = after ∧ after ≠ t := by
  cases h with
  | @claim rows r limit time hrows hpicked hunread =>
      obtain ⟨payload, hpayload⟩ := payload_of_pick hpicked
      obtain ⟨e, herror⟩ : ∃ e, (taken moment r).task = .error e :=
        (task_taken_iff hpayload).2 hunread
      obtain ⟨hr, hwaiting⟩ := mem_of_mem_oldestRows (mem_of_pick hpicked)
      rw [claim_of_pick hrows (Prod.ext rfl hpicked)]
      refine ⟨⟨.error e, ?_⟩, rfl, replaceRow_taken_ne hrows hr (isAdmitted_waiting.1 hwaiting).1⟩
      simp only [herror]
      rfl

/-! ## Log lines -/

theorem spoils_of_append {lines : List String} {window : Nat} {fault : Fault}
    (hfault : (t.append moment id lines window).result = .error fault)
    (hchanged : (t.append moment id lines window).store ≠ t) :
    t.Spoils moment (.append id lines window) (t.append moment id lines window).store := by
  by_contra hnot
  apply hchanged
  refine spares_modify (t := t) ?_ fault hfault
  intro rows row result hrows hfind hread hnone
  have hpush : result.snapshot.push? lines window = none := by simpa using hnone
  apply hnot
  rw [append_of_full hrows hfind hread hpush]
  exact .append hrows hfind hread hpush

theorem append_of_spoils {lines : List String} {window : Nat} {after : Table}
    (h : t.Spoils moment (.append id lines window) after) :
    (∃ fault, (t.append moment id lines window).result = .error fault) ∧
      (t.append moment id lines window).store = after ∧ after ≠ t := by
  cases h with
  | append hrows hfind hread hpush =>
      rw [append_of_full hrows hfind hread hpush]
      refine ⟨⟨_, rfl⟩, rfl, ?_⟩
      intro hsame
      rw [← hsame] at hrows
      cases hrows

/-! ## All requests -/

/-- Every request but a claim and an addition to a log spares the table. -/
theorem spares_perform {r : Request} (hclaim : ∀ limit time, r ≠ .claim limit time)
    (happend : ∀ id lines window, r ≠ .append id lines window) :
    t.Spares (t.perform moment r) := by
  cases r with
  | enqueue new => exact (spares_insert _).map _
  | insert task => exact spares_insert task
  | get id | list filter limit | control id | snapshot id => exact spares_read trivial
  | claim limit time => exact absurd rfl (hclaim limit time)
  | append id lines window => exact absurd rfl (happend id lines window)
  | patch id p => exact spares_modify fun _ _ _ _ _ _ => Option.some_ne_none _
  | finalize id p status =>
      rw [perform, finalize]
      split
      · exact spares_modify fun _ _ _ _ _ _ => Option.some_ne_none _
      · exact spares_same _ _
  | pause id => exact spares_pause
  | retry id => exact spares_retry
  | archive id flag => exact spares_archive flag
  | delete id => exact spares_delete

/-- A request fails and leaves another table behind exactly if it is a claim whose row cannot be
read, or an addition to a log that cannot be counted; every other request that fails leaves all rows
as they were. -/
theorem changes_on_failure_iff (t : Table) (moment : Moment) (r : Request) (after : Table) :
    ((∃ fault, (t.perform moment r).result = .error fault) ∧ (t.perform moment r).store = after ∧
        after ≠ t) ↔
      t.Spoils moment r after := by
  constructor
  · rintro ⟨⟨fault, hfault⟩, rfl, hchanged⟩
    cases r with
    | claim limit time => exact spoils_of_claim hfault hchanged
    | append id lines window => exact spoils_of_append hfault hchanged
    | _ => exact absurd (spares_perform (by simp) (by simp) fault hfault) hchanged
  · intro hspoils
    cases r with
    | claim limit time => exact claim_of_spoils hspoils
    | append id lines window => exact append_of_spoils hspoils
    | _ => cases hspoils

/-- A row that waits with a result that is no JSON text. -/
def garbledRow : Row where
  id := (⟨1⟩ : TaskId).text
  group := none
  eventType := "push"
  status := Status.queued.name
  archived := false
  payload := "{}"
  retries := 0
  result := "garbled"
  createdAt := firstMoment.created.stamp
  updatedAt := firstMoment.created.stamp

/-- The claim of the row is refused, and the row is marked. -/
theorem garbledRow_marked :
    (perform ⟨some [garbledRow]⟩ firstMoment (.claim 10 ⟨⟨0, 0⟩, 0⟩)).result =
        .error (.error (.corrupt (⟨1⟩ : TaskId).text .result)) ∧
      (perform ⟨some [garbledRow]⟩ firstMoment (.claim 10 ⟨⟨0, 0⟩, 0⟩)).store =
        ⟨some [taken firstMoment garbledRow]⟩ ∧
      (⟨some [taken firstMoment garbledRow]⟩ : Table) ≠ ⟨some [garbledRow]⟩ := by
  have holdest : oldestRows [garbledRow] .waiting 10 = [garbledRow] := by
    have hwaits : [garbledRow].filter (·.isAdmitted .waiting) = [garbledRow] := by decide
    rw [oldestRows, hwaits, List.mergeSort_singleton]
    rfl
  have hpayload : Json.parse? garbledRow.payload = some (.object []) := by decide
  have hunread : (taken firstMoment garbledRow).task =
      .error (.corrupt (⟨1⟩ : TaskId).text .result) := by decide
  have hpick : pick 0 (oldestRows [garbledRow] .waiting 10) = ([], some garbledRow) := by
    rw [holdest, pick, hpayload]
    rfl
  have hclaim : claim ⟨some [garbledRow]⟩ firstMoment 10 ⟨⟨0, 0⟩, 0⟩ = _ := claim_of_pick rfl hpick
  rw [perform, hclaim, hunread]
  exact ⟨rfl, by decide, by decide⟩

end TaskQueue.Store.Table
