import Mathlib.Tactic
import TaskQueue.Proofs.Mirror

/-!
# Agreement of the two stores

A store in memory and a table that mirrors it answer every request in the same way, report the same
notices, and mirror each other afterwards.  By induction the answers to a whole history agree when
both start empty.

A request is admitted if what it brings can be written as text without loss, new identifiers are
new, and no counter leaves its range.
-/

namespace TaskQueue.Store

open Json (maxNesting)
open Log (counterBound)
open Time (Instant ZonedTime)

/-! ## What is asked of a history -/

/-- Whether the times of a moment can be stamped. -/
structure Moment.Stampable (moment : Moment) : Prop where
  now : moment.now.Stampable
  created : moment.created.Stampable

/-- What is asked of a request to a store in this state. -/
def Memory.Admits (m : Memory) (moment : Moment) : Request → Prop
  | .enqueue new => m.find? moment.freshId = none ∧ new.payload.Readable maxNesting
  | .insert task => m.find? task.id = none ∧ task.Storable
  | .patch id p =>
    p.extra.AllReadable TaskResult.maxExtraHeight ∧
      ∀ t, m.find? id = some t → (t.result.apply p).seq < counterBound
  | .finalize id p _ =>
    p.extra.AllReadable TaskResult.maxExtraHeight ∧
      ∀ t, m.find? id = some t → (t.result.applyFinal p).seq < counterBound
  | .append id lines _ =>
    ∀ t, m.find? id = some t → lines = [] ∨ t.result.seq + lines.length < counterBound
  | .retry id =>
    ∀ t, m.find? id = some t → t.status.isRetryable = true → t.retries + 1 < retryBound
  | _ => True

/-- Whether every request of a history is admitted when its turn comes. -/
def Memory.Admissible : Memory → List (Moment × Request) → Prop
  | _, [] => True
  | m, (moment, r) :: rest =>
    moment.Stampable ∧ m.Admits moment r ∧ (m.perform moment r).store.Admissible rest

/-- The answer to a request. -/
structure Reply where
  request : Request
  result : Except Fault request.Answer
  notices : List Notice

/-- The answers to a history of requests, one after the other. -/
def replies (perform : σ → Moment → (r : Request) → Step σ r.Answer) (s : σ) :
    List (Moment × Request) → List Reply
  | [] => []
  | (moment, r) :: rest =>
    let step := perform s moment r
    ⟨r, step.result, step.notices⟩ :: replies perform step.store rest

/-! ## Agreement of single steps -/

/-- Two steps with the same outcome, whose stores mirror each other. -/
structure Agree (a : Step Memory α) (b : Step Table α) : Prop where
  result : a.result = b.result
  notices : a.notices = b.notices
  mirrors : ∃ rows, b.store = ⟨some rows⟩ ∧ Mirrors a.store rows

namespace Mirrors

variable {m : Memory} {rows : List Row}

theorem agree_same (h : Mirrors m rows) (result : Except Fault α) (notices : List Notice) :
    Agree ⟨result, m, notices⟩ ⟨result, ⟨some rows⟩, notices⟩ :=
  ⟨rfl, rfl, rows, rfl, h⟩

theorem agree_replace (h : Mirrors m rows) {t : Task} (ht : t.Storable)
    (result : Except Fault α) (notices : List Notice) :
    Agree ⟨result, m.replace t, notices⟩
      ⟨result, Table.replaceRow rows (Row.ofTask t), notices⟩ :=
  ⟨rfl, rfl, _, rfl, h.replace ht⟩

theorem locked_eq (h : Mirrors m rows) (f : Unit → Step Memory α) : m.locked f = f () := by
  unfold Memory.locked
  rw [h.unlocked]
  rfl

theorem agree_get (h : Mirrors m rows) (id : TaskId) :
    Agree (m.get id) (Table.get ⟨some rows⟩ id) := by
  unfold Memory.get Table.get Table.withRows
  rw [h.locked_eq]
  simp only [h.find_row]
  cases hfind : m.find? id with
  | none => exact h.agree_same _ _
  | some t =>
      simp only [Option.map_some, Row.task_ofTask (h.storable_of_find hfind)]
      exact h.agree_same _ _

theorem agree_insert (h : Mirrors m rows) {t : Task} (ht : t.Storable)
    (hfresh : m.find? t.id = none) : Agree (m.insert t) (Table.insert ⟨some rows⟩ t) := by
  have hrow : Table.findRow? rows (Row.ofTask t).id = none := by
    have hfind := h.find_row t.id
    rw [hfresh] at hfind
    exact hfind
  have hstatus : Status.ofName? (Row.ofTask t).status = some t.status :=
    Status.ofName?_name t.status
  unfold Memory.insert Table.insert Table.insertRow Table.withRows
  rw [h.locked_eq]
  simp only [hrow, hstatus]
  exact ⟨rfl, rfl, _, rfl, h.insert ht hfresh⟩

theorem agree_enqueue (h : Mirrors m rows) {moment : Moment} (hmoment : moment.Stampable)
    {new : NewTask} (hpayload : new.payload.Readable maxNesting)
    (hfresh : m.find? moment.freshId = none) :
    Agree (m.enqueue moment new) (Table.enqueue ⟨some rows⟩ moment new) := by
  have ht : (Task.ofNew new moment.freshId moment.created).Storable :=
    ⟨hpayload, TaskResult.storable_empty, show -retryBound ≤ 0 by decide,
      show 0 < retryBound by decide, hmoment.created, hmoment.created⟩
  have hinsert := h.agree_insert ht hfresh
  unfold Memory.enqueue Table.enqueue
  exact ⟨congrArg (Except.map fun _ => Task.ofNew new moment.freshId moment.created)
    hinsert.result, hinsert.notices, hinsert.mirrors⟩

theorem mapM_task {tasks : List Task} (htasks : ∀ t ∈ tasks, t.Storable) :
    (tasks.map Row.ofTask).mapM Row.task = .ok tasks := by
  apply Row.mapM_task
  rw [List.forall₂_map_left_iff, List.forall₂_same]
  exact fun t ht => Row.task_ofTask (htasks t ht)

theorem agree_list (h : Mirrors m rows) (filter : TaskFilter) (limit : Nat) :
    Agree (m.list filter limit) (Table.list ⟨some rows⟩ filter limit) := by
  have hstorable : ∀ t ∈ oldest m.tasks filter limit, t.Storable :=
    fun t ht => h.tasks.storable t (mem_of_mem_oldest ht).1
  unfold Memory.list Table.list Table.withRows
  rw [h.locked_eq]
  simp only [oldestRows_eq h.tasks h.rows, mapM_task hstorable]
  exact h.agree_same _ _

/-- Both stores go through the candidates alike. -/
theorem pick_ofTask (hour : Nat) {tasks : List Task} (htasks : ∀ t ∈ tasks, t.Storable) :
    Table.pick hour (tasks.map Row.ofTask) =
      ((Memory.pick hour tasks).1, (Memory.pick hour tasks).2.map Row.ofTask) := by
  induction tasks with
  | nil => rfl
  | cons t rest ih =>
      have hpayload : Json.parse? (Row.ofTask t).payload = some t.payload :=
        Json.parse_compact (htasks t (by simp)).payload
      have hrest := ih fun u hu => htasks u (List.mem_cons_of_mem t hu)
      rw [List.map_cons, Table.pick, hpayload, Memory.pick, hrest]
      by_cases hadmits : Schedule.admits t.payload hour = true
      · simp [hadmits]
      · simp [hadmits]

theorem agree_claim (h : Mirrors m rows) {moment : Moment} (hmoment : moment.Stampable)
    (limit : Nat) (time : ZonedTime) :
    Agree (m.claim moment limit time) (Table.claim ⟨some rows⟩ moment limit time) := by
  have hstorable : ∀ t ∈ oldest m.tasks .waiting limit, t.Storable :=
    fun t ht => h.tasks.storable t (mem_of_mem_oldest ht).1
  unfold Memory.claim Table.claim Table.withRows
  rw [h.locked_eq]
  simp only [oldestRows_eq h.tasks h.rows, pick_ofTask time.hour hstorable]
  rcases hpick : Memory.pick time.hour (oldest m.tasks .waiting limit) with ⟨notices, picked⟩
  cases picked with
  | none => exact h.agree_same _ _
  | some t =>
      -- The table answers with the row as it is after the change, so that row has to be readable.
      have ht := hstorable t (Memory.mem_of_pick hpick).1
      have htaken := ht.update .processing t.archived ht.result hmoment.now
      have hrow : ({ Row.ofTask t with
          status := Status.processing.name, updatedAt := moment.now.stamp } : Row) =
          Row.ofTask { t with status := .processing, updatedAt := moment.now } := rfl
      simp only [Option.map_some, hrow, Row.task_ofTask htaken]
      exact h.agree_replace htaken _ _

theorem agree_control (h : Mirrors m rows) (id : TaskId) :
    Agree (m.control id) (Table.control ⟨some rows⟩ id) := by
  unfold Memory.control Table.control Table.withRows
  rw [h.locked_eq]
  simp only [h.find_row]
  cases hfind : m.find? id with
  | none => exact h.agree_same _ _
  | some t =>
      have hstatus : Row.statusOf (Row.ofTask t).status = .ok t.status :=
        Row.statusOf_name t.status
      simp only [Option.map_some, hstatus]
      exact h.agree_same _ _

theorem agree_snapshot (h : Mirrors m rows) (id : TaskId) :
    Agree (m.snapshot id) (Table.snapshot ⟨some rows⟩ id) := by
  unfold Memory.snapshot Table.snapshot Table.withRows
  rw [h.locked_eq]
  simp only [h.find_row]
  cases hfind : m.find? id with
  | none => exact h.agree_same _ _
  | some t =>
      have hresult : Row.resultOf? (Row.ofTask t).result = some t.result :=
        Row.resultOf_compact (h.storable_of_find hfind).result
      simp only [Option.map_some, hresult]
      exact h.agree_same _ _

/-- A change to the result of a task, which a table makes on the text of the result. -/
theorem agree_modify (h : Mirrors m rows) {moment : Moment} (hmoment : moment.Stampable)
    (id : TaskId) (status : Option Status) (f : TaskResult → Option (TaskResult × α))
    (hf : ∀ t, m.find? id = some t → ∃ result a, f t.result = some (result, a) ∧ result.Storable) :
    Agree (m.modify moment id status f) (Table.modify ⟨some rows⟩ moment id status f) := by
  unfold Memory.modify Memory.withTask Table.modify Table.withRows
  rw [h.locked_eq]
  simp only [h.find_row]
  cases hfind : m.find? id with
  | none => exact h.agree_same _ _
  | some t =>
      have ht := h.storable_of_find hfind
      obtain ⟨result, a, hchange, hresult⟩ := hf t hfind
      have hread : Row.resultOf? (Row.ofTask t).result = some t.result :=
        Row.resultOf_compact ht.result
      have hstatus : (status.map Status.name).getD (Row.ofTask t).status =
          (status.getD t.status).name := by
        cases status <;> rfl
      simp only [Option.map_some, hread, hchange, hstatus]
      exact h.agree_replace (ht.update (status.getD t.status) t.archived hresult hmoment.now) _ _

theorem agree_patch (h : Mirrors m rows) {moment : Moment} (hmoment : moment.Stampable)
    {id : TaskId} {p : ResultPatch} (hextra : p.extra.AllReadable TaskResult.maxExtraHeight)
    (hseq : ∀ t, m.find? id = some t → (t.result.apply p).seq < counterBound) :
    Agree (m.patch moment id p) (Table.patch ⟨some rows⟩ moment id p) := by
  rw [Memory.patch_eq_modify]
  apply h.agree_modify hmoment id none
  intro t hfind
  exact ⟨_, (), rfl, (h.storable_of_find hfind).result.apply hextra (hseq t hfind)⟩

theorem agree_finalize (h : Mirrors m rows) {moment : Moment} (hmoment : moment.Stampable)
    {id : TaskId} {p : ResultPatch} (status : Status)
    (hextra : p.extra.AllReadable TaskResult.maxExtraHeight)
    (hseq : ∀ t, m.find? id = some t → (t.result.applyFinal p).seq < counterBound) :
    Agree (m.finalize moment id p status) (Table.finalize ⟨some rows⟩ moment id p status) := by
  cases hterminal : status.isTerminal with
  | true =>
      rw [Memory.finalize_eq_modify _ _ _ _ hterminal]
      unfold Table.finalize
      rw [if_pos hterminal]
      apply h.agree_modify hmoment id (some status)
      intro t hfind
      exact ⟨_, (), rfl, (h.storable_of_find hfind).result.applyFinal hextra (hseq t hfind)⟩
  | false =>
      unfold Memory.finalize Table.finalize
      rw [hterminal]
      exact h.agree_same _ _

theorem agree_append (h : Mirrors m rows) {moment : Moment} (hmoment : moment.Stampable)
    {id : TaskId} {lines : List String} (window : Nat)
    (hseq : ∀ t, m.find? id = some t →
      lines = [] ∨ t.result.seq + lines.length < counterBound) :
    Agree (m.append moment id lines window) (Table.append ⟨some rows⟩ moment id lines window) := by
  have hpush : ∀ t, m.find? id = some t →
      ∃ s, t.result.snapshot.push? lines window = some s ∧ s.seq < counterBound := by
    intro t hfind
    have hold := (h.storable_of_find hfind).result.seq
    refine ⟨_, if_pos (hseq t hfind), ?_⟩
    rcases hseq t hfind with hlines | hfits
    · simpa [hlines, TaskResult.snapshot] using hold
    · exact hfits
  rw [Memory.append_eq_modify]
  apply h.agree_modify hmoment id none
  intro t hfind
  obtain ⟨s, hs, hfits⟩ := hpush t hfind
  exact ⟨t.result.withLog s, s, by rw [hs]; rfl, (h.storable_of_find hfind).result.withLog hfits⟩

theorem agree_pause (h : Mirrors m rows) {moment : Moment} (hmoment : moment.Stampable)
    (id : TaskId) : Agree (m.pause moment id) (Table.pause ⟨some rows⟩ moment id) := by
  unfold Memory.pause Memory.withTask Table.pause Table.withRows
  rw [h.locked_eq]
  simp only [h.find_row]
  cases hfind : m.find? id with
  | none => exact h.agree_same _ _
  | some t =>
      have ht := h.storable_of_find hfind
      have hstatus : (Status.ofName? (Row.ofTask t).status).any Status.isPausable =
          t.status.isPausable := by
        have hname : Status.ofName? (Row.ofTask t).status = some t.status :=
          Status.ofName?_name t.status
        rw [hname]
        rfl
      simp only [Option.map_some, hstatus]
      cases t.status.isPausable with
      | true => exact h.agree_replace (ht.update .paused t.archived ht.result hmoment.now) _ _
      | false => exact h.agree_same _ _

theorem agree_retry (h : Mirrors m rows) {moment : Moment} (hmoment : moment.Stampable)
    {id : TaskId}
    (hretries : ∀ t, m.find? id = some t → t.status.isRetryable = true →
      t.retries + 1 < retryBound) :
    Agree (m.retry moment id) (Table.retry ⟨some rows⟩ moment id) := by
  unfold Memory.retry Memory.withTask Table.retry Table.withRows
  rw [h.locked_eq]
  simp only [h.find_row]
  cases hfind : m.find? id with
  | none => exact h.agree_same _ _
  | some t =>
      have ht := h.storable_of_find hfind
      have hstatus : Row.statusOf (Row.ofTask t).status = .ok t.status :=
        Row.statusOf_name t.status
      have hread : Row.resultOf? (Row.ofTask t).result = some t.result :=
        Row.resultOf_compact ht.result
      simp only [Option.map_some, hstatus]
      cases hretryable : t.status.isRetryable with
      | false => exact h.agree_same _ _
      | true =>
          have hfits := hretries t hfind hretryable
          have hlow : -retryBound ≤ t.retries + 1 := by
            have hold := ht.retries_low
            omega
          have hqueued : Task.Storable
              { t with
                status := .queued
                retries := t.retries + 1
                result := t.result.apply .runReset
                updatedAt := moment.now } :=
            ⟨ht.payload, ht.result.runReset, hlow, hfits, ht.createdAt, hmoment.now⟩
          simp only [hread, if_pos hfits]
          exact h.agree_replace hqueued _ _

theorem agree_archive (h : Mirrors m rows) {moment : Moment} (hmoment : moment.Stampable)
    (id : TaskId) (archived : Bool) :
    Agree (m.archive moment id archived) (Table.archive ⟨some rows⟩ moment id archived) := by
  unfold Memory.archive Memory.withTask Table.archive Table.withRows
  rw [h.locked_eq]
  simp only [h.find_row]
  cases hfind : m.find? id with
  | none => exact h.agree_same _ _
  | some t =>
      have ht := h.storable_of_find hfind
      exact h.agree_replace (ht.update t.status archived ht.result hmoment.now) _ _

theorem agree_delete (h : Mirrors m rows) (id : TaskId) :
    Agree (m.delete id) (Table.delete ⟨some rows⟩ id) := by
  have hfound : (Table.findRow? rows id.text).isSome = (m.find? id).isSome := by
    rw [h.find_row]
    cases m.find? id <;> rfl
  unfold Memory.delete Table.delete Table.withRows
  rw [h.locked_eq]
  simp only [hfound]
  exact ⟨rfl, rfl, _, rfl, h.delete id⟩

/-- The two stores agree on every admitted request. -/
theorem agree_perform (h : Mirrors m rows) {moment : Moment} (hmoment : moment.Stampable)
    {r : Request} (hadmits : m.Admits moment r) :
    Agree (m.perform moment r) (Table.perform ⟨some rows⟩ moment r) := by
  cases r with
  | enqueue new => exact h.agree_enqueue hmoment hadmits.2 hadmits.1
  | insert task => exact h.agree_insert hadmits.2 hadmits.1
  | get id => exact h.agree_get id
  | list filter limit => exact h.agree_list filter limit
  | claim limit time => exact h.agree_claim hmoment limit time
  | control id => exact h.agree_control id
  | patch id p => exact h.agree_patch hmoment hadmits.1 hadmits.2
  | finalize id p status => exact h.agree_finalize hmoment status hadmits.1 hadmits.2
  | append id lines window => exact h.agree_append hmoment window hadmits
  | snapshot id => exact h.agree_snapshot id
  | pause id => exact h.agree_pause hmoment id
  | retry id => exact h.agree_retry hmoment hadmits
  | archive id archived => exact h.agree_archive hmoment id archived
  | delete id => exact h.agree_delete id

end Mirrors

/-! ## Agreement of whole histories -/

theorem replies_eq_of_mirrors {m : Memory} {rows : List Row} (h : Mirrors m rows)
    {history : List (Moment × Request)} (hadmissible : m.Admissible history) :
    replies Memory.perform m history = replies Table.perform ⟨some rows⟩ history := by
  induction history generalizing m rows with
  | nil => rfl
  | cons entry rest ih =>
      obtain ⟨moment, r⟩ := entry
      obtain ⟨hmoment, hadmits, hrest⟩ := hadmissible
      have hagree := h.agree_perform hmoment hadmits
      obtain ⟨rows', hstore, hmirrors⟩ := hagree.mirrors
      rw [replies, replies, hagree.result, hagree.notices, hstore, ih hmirrors hrest]

theorem mirrors_empty : Mirrors Memory.empty [] :=
  ⟨rfl, ⟨by simp [Memory.empty], by simp [Memory.empty]⟩, List.Perm.refl _⟩

/-- From empty stores the answers to a whole history agree: each request has the same result or is
refused with the same error, and the same notices are reported. -/
theorem replies_memory_eq_table {history : List (Moment × Request)}
    (hadmissible : Memory.empty.Admissible history) :
    replies Memory.perform .empty history =
      replies Table.perform (Table.migrate ⟨none⟩).store history :=
  replies_eq_of_mirrors mirrors_empty hadmissible

/-- A moment of the first second of 1970. -/
def firstMoment : Moment :=
  ⟨⟨0, 1000⟩, ⟨1⟩, ⟨0, 2000⟩⟩

/-- A task goes through a claim, a log line, a pause and a retry, and is looked up at the end. -/
def sampleHistory : List (Moment × Request) :=
  [(firstMoment, .enqueue ⟨none, "demo", .object [("n", .nat 1)]⟩),
   (firstMoment, .claim 10 ⟨⟨0, 0⟩, 0⟩),
   (firstMoment, .append ⟨1⟩ ["line"] 5),
   (firstMoment, .pause ⟨1⟩),
   (firstMoment, .retry ⟨1⟩),
   (firstMoment, .get ⟨1⟩)]

theorem admissible_sampleHistory : Memory.empty.Admissible sampleHistory := by
  have hmoment : firstMoment.Stampable := ⟨by decide, by decide⟩
  have hpayload : (Json.object [("n", .nat 1)]).Readable maxNesting := by
    constructor
    · simpa [Json.Legible, Json.LegibleFields, Json.nat] using
        Json.Number.survives_natural (n := 1) (by decide)
    · simp [Json.Canonical, Json.CanonicalFields, Json.Fields.Ordered, Json.nat]
    · decide
  refine ⟨hmoment, ⟨rfl, hpayload⟩, hmoment, trivial, hmoment, ?_, hmoment, trivial, hmoment, ?_,
    hmoment, trivial, trivial⟩
  · intro t h
    cases h
    exact Or.inr (by decide)
  · intro t h _
    cases h
    decide

theorem replies_sampleHistory :
    Memory.empty.Admissible sampleHistory ∧
      replies Memory.perform .empty sampleHistory =
        replies Table.perform (Table.migrate ⟨none⟩).store sampleHistory :=
  ⟨admissible_sampleHistory, replies_memory_eq_table admissible_sampleHistory⟩

end TaskQueue.Store
