import Mathlib.Tactic
import TaskQueue.Proofs.BackendRecords
import TaskQueue.Proofs.ClaimChoice
import TaskQueue.Proofs.OpenHours

/-!
# The first claim of a task

A task that has just been put into a store is handed out by the next claim if its window is open and
no other task may be taken.  While its window is closed no claim hands it out, whatever else waits.
-/

namespace TaskQueue.Store

open Time (ZonedTime)

/-- What a search finds in a list in which nothing but `a` may be found. -/
theorem find_eq_of_only {α : Type} {l : List α} {p : α → Bool} {a : α} (ha : a ∈ l)
    (honly : ∀ b ∈ l, p b = true → b = a) : l.find? p = if p a then some a else none := by
  split
  · rename_i hpa
    cases hfind : l.find? p with
    | none =>
        have hpa' := List.find?_eq_none.1 hfind a ha
        exact absurd hpa hpa'
    | some b => rw [honly b (List.mem_of_find?_eq_some hfind) (List.find?_some hfind)]
  · rename_i hpa
    rw [List.find?_eq_none]
    intro b hb hpb
    exact hpa (honly b hb hpb ▸ hpb)

/-- Whether claims hand out a task exactly at the hours `opens`, if nothing competes with it. -/
structure Gates {σ : Type} (perform : σ → Moment → (r : Request) → Step σ r.Answer)
    (Quiet : Nat → Nat → Prop) (s : σ) (id : TaskId) (opens : Nat → Prop) : Prop where
  shut : ∀ moment limit time t, (perform s moment (.claim limit time)).result = .ok (some t) →
    t.id = id → opens time.hour
  passed : ∀ moment limit (time : ZonedTime), Quiet time.hour limit → ¬opens time.hour →
    (perform s moment (.claim limit time)).result = .ok none
  taken : ∀ moment limit (time : ZonedTime), moment.now.Stampable → Quiet time.hour limit →
    opens time.hour →
    ∃ t, (perform s moment (.claim limit time)).result = .ok (some t) ∧ t.id = id

variable {moment : Moment} {limit : Nat} {time : ZonedTime} {opens : Nat → Prop}

/-! ## In memory -/

namespace Memory

variable {m : Memory} {t : Task}

/-- The store with the task put in. -/
def entered (m : Memory) (t : Task) : Memory :=
  { m with tasks := t :: m.tasks.filter fun u => u.id ≠ t.id }

theorem insert_of_open (h : m.poisoned = false) (t : Task) : m.insert t = .done (m.entered t) () := by
  unfold insert
  rw [locked_open h]
  rfl

theorem eq_of_mem_entered {u : Task} (hu : u ∈ (m.entered t).tasks) (hid : u.id = t.id) : u = t := by
  rcases List.mem_cons.1 hu with rfl | hu
  · rfl
  · have hne := (List.mem_filter.1 hu).2
    simp only [decide_eq_true_eq] at hne
    exact absurd hid hne

/-- Whether no task in the store may be taken at the hour, and fewer wait than the limit. -/
structure Quiet (m : Memory) (hour limit : Nat) : Prop where
  closed : ∀ t ∈ m.tasks, TaskFilter.waiting.matches t = true → isOpenAt hour t = false
  room : (m.tasks.filter TaskFilter.waiting.matches).length < limit

theorem claim_eq_find (h : m.poisoned = false) :
    (m.claim moment limit time).result =
      .ok (((oldest m.tasks .waiting limit).find? (isOpenAt time.hour)).map (marked moment)) := by
  unfold claim
  rw [locked_open h, ← pick_eq_find]
  rcases pick time.hour (oldest m.tasks .waiting limit) with ⟨notices, picked⟩
  cases picked <;> rfl

theorem oldest_entered_of_quiet (hquiet : m.Quiet time.hour limit)
    (hwaits : TaskFilter.waiting.matches t = true) :
    (oldest (m.entered t).tasks .waiting limit).find? (isOpenAt time.hour) =
      if isOpenAt time.hour t then some t else none := by
  have hroom : ((m.entered t).tasks.filter TaskFilter.waiting.matches).length ≤ limit := by
    unfold entered
    rw [List.filter_cons_of_pos hwaits, List.length_cons]
    have hsub := (List.filter_sublist (p := fun u : Task => decide (u.id ≠ t.id)) (l := m.tasks)).filter
      TaskFilter.waiting.matches
    exact Nat.succ_le_of_lt (hsub.length_le.trans_lt hquiet.room)
  have hall : oldest (m.entered t).tasks .waiting limit =
      byAge ((m.entered t).tasks.filter TaskFilter.waiting.matches) := by
    rw [oldest_eq_take, List.take_of_length_le]
    rwa [(perm_byAge _).length_eq]
  rw [hall]
  apply find_eq_of_only
  · rw [(perm_byAge _).mem_iff]
    exact List.mem_filter.2 ⟨List.mem_cons_self, hwaits⟩
  · intro u hu hopen
    rw [(perm_byAge _).mem_iff] at hu
    obtain ⟨hmem, hmatches⟩ := List.mem_filter.1 hu
    rcases List.mem_cons.1 hmem with rfl | hmem
    · rfl
    · rw [hquiet.closed u (List.mem_of_mem_filter hmem) hmatches] at hopen
      cases hopen

theorem open_of_claim (h : m.poisoned = false) {u : Task}
    (hclaim : ((m.entered t).claim moment limit time).result = .ok (some u)) (hid : u.id = t.id) :
    isOpenAt time.hour t = true := by
  rw [claim_eq_find (m := m.entered t) h] at hclaim
  obtain ⟨v, hfind, rfl⟩ := Option.map_eq_some_iff.1 (Except.ok.inj hclaim)
  have hmem := (mem_of_mem_oldest (List.mem_of_find?_eq_some hfind)).1
  rw [← eq_of_mem_entered hmem hid]
  exact List.find?_some hfind

theorem gates_entered (h : m.poisoned = false) (hwaits : TaskFilter.waiting.matches t = true)
    (hopen : ∀ hour < 24, isOpenAt hour t = true ↔ opens hour) :
    Gates perform m.Quiet (m.entered t) t.id opens := by
  have hresult : ∀ moment limit (time : ZonedTime), m.Quiet time.hour limit →
      ((m.entered t).claim moment limit time).result =
        .ok ((if isOpenAt time.hour t then some t else none).map (marked moment)) := by
    intro moment limit time hquiet
    rw [claim_eq_find (m := m.entered t) h, oldest_entered_of_quiet hquiet hwaits]
  constructor
  · intro moment limit time u hclaim hid
    exact (hopen _ time.hour_lt).1 (open_of_claim h hclaim hid)
  · intro moment limit time hquiet hshut
    have hclosed : ¬isOpenAt time.hour t = true := fun hadmits =>
      hshut ((hopen _ time.hour_lt).1 hadmits)
    have hclaim := hresult moment limit time hquiet
    rwa [if_neg hclosed] at hclaim
  · intro moment limit time _ hquiet hopens
    have hadmits : isOpenAt time.hour t = true := (hopen _ time.hour_lt).2 hopens
    have hclaim := hresult moment limit time hquiet
    rw [if_pos hadmits] at hclaim
    exact ⟨_, hclaim, rfl⟩

end Memory

/-! ## In a table -/

namespace Table

variable {rows : List Row} {t : Task}

/-- Whether no row may be taken at the hour, and fewer wait than the limit. -/
structure Quiet (rows : List Row) (hour limit : Nat) : Prop where
  closed : ∀ r ∈ rows, r.isAdmitted .waiting = true → claimable hour r = false
  room : (rows.filter (·.isAdmitted .waiting)).length < limit

theorem claim_eq_find :
    (claim ⟨some rows⟩ moment limit time).result =
      match (oldestRows rows .waiting limit).find? (claimable time.hour) with
      | none => .ok none
      | some r => ((taken moment r).task.map some).mapError .error := by
  unfold claim withRows
  simp only
  rw [← pick_eq_find]
  rcases pick time.hour (oldestRows rows .waiting limit) with ⟨notices, picked⟩
  cases picked <;> rfl

theorem oldestRows_entered_of_quiet (hquiet : Quiet rows time.hour limit) {r : Row}
    (hwaits : r.isAdmitted .waiting = true) :
    (oldestRows (rows ++ [r]) .waiting limit).find? (claimable time.hour) =
      if claimable time.hour r then some r else none := by
  have hselected : (rows ++ [r]).filter (·.isAdmitted .waiting) =
      rows.filter (·.isAdmitted .waiting) ++ [r] := by
    rw [List.filter_append, List.filter_singleton, hwaits]
    rfl
  have hperm := List.mergeSort_perm ((rows ++ [r]).filter (·.isAdmitted .waiting))
    fun a b => !b.before a
  have hall : oldestRows (rows ++ [r]) .waiting limit =
      ((rows ++ [r]).filter (·.isAdmitted .waiting)).mergeSort fun a b => !b.before a := by
    unfold oldestRows
    rw [List.take_of_length_le]
    rw [hperm.length_eq, hselected, List.length_append]
    exact Nat.succ_le_of_lt hquiet.room
  rw [hall]
  apply find_eq_of_only
  · rw [hperm.mem_iff, hselected]
    exact List.mem_append_right _ List.mem_cons_self
  · intro s hs hopen
    rw [hperm.mem_iff, hselected] at hs
    rcases List.mem_append.1 hs with hs | hs
    · obtain ⟨hmem, hmatches⟩ := List.mem_filter.1 hs
      rw [hquiet.closed s hmem hmatches] at hopen
      cases hopen
    · exact List.mem_singleton.1 hs

theorem row_of_claim {u : Task} (hclaim : (claim ⟨some rows⟩ moment limit time).result = .ok (some u)) :
    ∃ r ∈ rows, claimable time.hour r = true ∧ (taken moment r).task = .ok u := by
  rw [claim_eq_find] at hclaim
  split at hclaim
  · cases hclaim
  · rename_i r hfind
    refine ⟨r, (mem_of_mem_oldestRows (List.mem_of_find?_eq_some hfind)).1, List.find?_some hfind, ?_⟩
    cases htask : (taken moment r).task with
    | error e =>
        rw [htask] at hclaim
        cases hclaim
    | ok v =>
        rw [htask] at hclaim
        cases hclaim
        rfl

theorem claimable_of_claim (hkeyed : Keyed rows) (hfresh : findRow? rows t.id.text = none) {u : Task}
    (hclaim : (claim ⟨some (rows ++ [.ofTask t])⟩ moment limit time).result = .ok (some u))
    (hid : u.id = t.id) : claimable time.hour (.ofTask t) = true := by
  obtain ⟨r, hmem, hopen, htask⟩ := row_of_claim hclaim
  have hkeyed' : Keyed (rows ++ [.ofTask t]) := hkeyed.append (r := .ofTask t) rfl hfresh _ rfl
  -- Rows are keyed by texts of identifiers, so no other row is read as this task.
  obtain ⟨id, hname⟩ := hkeyed'.text r hmem
  have hsame : r.id = t.id.text := by
    rw [hname, ← hid, id_of_task htask hname]
  rcases List.mem_append.1 hmem with hmem | hmem
  · have hfound := hkeyed.find hmem
    rw [hsame, hfresh] at hfound
    cases hfound
  · rwa [List.mem_singleton.1 hmem] at hopen

theorem gates_entered (hkeyed : Keyed rows) (hfresh : findRow? rows t.id.text = none)
    (hwaits : (Row.ofTask t).isAdmitted .waiting = true)
    (hopen : ∀ hour < 24, claimable hour (.ofTask t) = true ↔ opens hour)
    (htask : ∀ moment : Moment, moment.now.Stampable →
      ∃ u, (taken moment (.ofTask t)).task = .ok u ∧ u.id = t.id) :
    Gates perform (Quiet rows) ⟨some (rows ++ [.ofTask t])⟩ t.id opens := by
  constructor
  · intro moment limit time u hclaim hid
    exact (hopen _ time.hour_lt).1 (claimable_of_claim hkeyed hfresh hclaim hid)
  · intro moment limit time hquiet hshut
    have hclosed : ¬claimable time.hour (.ofTask t) = true := fun hopens =>
      hshut ((hopen _ time.hour_lt).1 hopens)
    show (claim _ moment limit time).result = _
    simp only [claim_eq_find, oldestRows_entered_of_quiet hquiet hwaits, if_neg hclosed]
    rfl
  · intro moment limit time hnow hquiet hopens
    have hadmits := (hopen _ time.hour_lt).2 hopens
    obtain ⟨u, hu, hid⟩ := htask moment hnow
    refine ⟨u, ?_, hid⟩
    show (claim _ moment limit time).result = _
    simp only [claim_eq_find, oldestRows_entered_of_quiet hquiet hwaits, if_pos hadmits, hu]
    rfl

theorem task_taken_ofNew {new : NewTask} {id : TaskId} {created : Time.Instant} {stored : Json}
    (hstored : Json.parse? new.payload.compact = some stored) (hcreated : created.Stampable)
    (hnow : moment.now.Stampable) :
    (taken moment (.ofTask (.ofNew new id created))).task =
      .ok (marked moment { Task.ofNew new id created with payload := stored }) :=
  task_taken (Row.task_ofTask_of_parse (t := .ofNew new id created) hstored TaskResult.storable_empty
    ⟨(by decide : -retryBound ≤ 0), (by decide : 0 < retryBound)⟩ hcreated hcreated) hnow

end Table

/-! ## In a backend -/

namespace Backend

variable {b : Backend}

/-- Whether a new task can be put into the store at the moment. -/
def Takes (b : Backend) (moment : Moment) : Prop :=
  match b with
  | .memory m => m.poisoned = false
  | .table t =>
    moment.created.Stampable ∧
      ∃ rows, t.rows = some rows ∧ Table.Keyed rows ∧ Table.findRow? rows moment.freshId.text = none
  | .readOnly _ => False

/-- Whether a claim at the hour finds no task in the store that it may take, and looks at more tasks
than wait. -/
def Quiet (b : Backend) (hour limit : Nat) : Prop :=
  match b with
  | .memory m => m.Quiet hour limit
  | .table t | .readOnly t => ∀ rows, t.rows = some rows → Table.Quiet rows hour limit

theorem result_enqueue (h : b.Takes moment) (new : NewTask) :
    (b.perform moment (.enqueue new)).result = .ok (.ofNew new moment.freshId moment.created) := by
  let t := Task.ofNew new moment.freshId moment.created
  cases b with
  | memory m =>
      show (m.insert t).result.map _ = _
      rw [Memory.insert_of_open h]
      rfl
  | table table =>
      obtain ⟨-, rows, hrows, -, hfresh⟩ := h
      show (table.insert t).result.map _ = _
      have hinsert : table.insert t = _ := Table.insert_of_fresh hrows hfresh
      rw [hinsert]
      rfl
  | readOnly table => exact h.elim

/-- A new task is handed out at the hours at which it may be taken, from memory and from what is
stored of it. -/
theorem gates_enqueue (h : b.Takes moment) {new : NewTask} {stored : Json}
    (hstored : Json.parse? new.payload.compact = some stored)
    (hopen : ∀ hour < 24, Schedule.admits new.payload hour = true ↔ opens hour)
    (hopen' : ∀ hour < 24, Schedule.admits stored hour = true ↔ opens hour) :
    Gates perform b.Quiet (b.perform moment (.enqueue new)).store moment.freshId opens := by
  let t := Task.ofNew new moment.freshId moment.created
  cases b with
  | memory m =>
      have hstore : (m.enqueue moment new).store = m.entered t :=
        congrArg Step.store (Memory.insert_of_open h t)
      have hgates := Memory.gates_entered (t := t) h rfl hopen
      rw [← hstore] at hgates
      exact ⟨hgates.shut, hgates.passed, hgates.taken⟩
  | table table =>
      obtain ⟨hcreated, rows, hrows, hkeyed, hfresh⟩ := h
      have hstore : (table.enqueue moment new).store = ⟨some (rows ++ [.ofTask t])⟩ :=
        congrArg Step.store (show table.insert t = _ from Table.insert_of_fresh hrows hfresh)
      have hclaimable : ∀ hour < 24, Table.claimable hour (.ofTask t) = true ↔ opens hour := by
        intro hour hhour
        rw [← hopen' hour hhour]
        show (Json.parse? new.payload.compact).any _ = true ↔ _
        rw [hstored, Option.any_some]
      have hgates := Table.gates_entered (t := t) hkeyed hfresh rfl hclaimable fun later hnow =>
        ⟨_, Table.task_taken_ofNew hstored hcreated hnow, rfl⟩
      rw [← hstore] at hgates
      refine ⟨hgates.shut, ?_, ?_⟩
      · exact fun moment limit time hquiet => hgates.passed moment limit time (hquiet rows hrows)
      · exact fun moment limit time hnow hquiet => hgates.taken moment limit time hnow (hquiet rows hrows)
  | readOnly table => exact h.elim

end Backend

end TaskQueue.Store
