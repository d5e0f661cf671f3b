import Mathlib.Tactic
import TaskQueue.Proofs.ObservedLog
import TaskQueue.Proofs.PatchedResult
import TaskQueue.Proofs.WriteAttempts

/-!
# A result that is written more than once

A write of a result may be made in the store and fail all the same, and then it is made again.
However often this happens, the store is left as if the write had been made once, at the last time.
-/

namespace TaskQueue.Runner

open Store (Memory Moment Request Row Step Table)

variable {σ : Type} {perform : σ → Moment → (r : Request) → Step σ r.Answer} {id : TaskId}
  {p : ResultPatch} {status : Status} {s : σ} {written : Moment → σ}

/-! ## One write after the other -/

/-- A store that takes a write of a result, and takes it again afterwards; what it becomes depends
on the last time only. -/
structure Retakes (perform : σ → Moment → (r : Request) → Step σ r.Answer) (id : TaskId)
    (p : ResultPatch) (status : Status) (s : σ) (written : Moment → σ) : Prop where
  once : ∀ moment,
    perform s moment (.finalize id p status) = (.done (written moment) () : Step σ Unit)
  again : ∀ a b,
    perform (written a) b (.finalize id p status) = (.done (written b) () : Step σ Unit)

/-- The store after a write is sent; none if the write does not reach it. -/
def sent (perform : σ → Moment → (r : Request) → Step σ r.Answer) (id : TaskId) (p : ResultPatch)
    (status : Status) (s : σ) : Option Moment → σ
  | none => s
  | some moment => (perform s moment (.finalize id p status)).store

namespace Retakes

theorem of_written (h : Retakes perform id p status s written) (a : Moment) :
    Retakes perform id p status (written a) written :=
  ⟨h.again a, h.again⟩

/-- Whatever has reached the store before, it takes the next write as if it were the first. -/
theorem after_sent (h : Retakes perform id p status s written) (plan : List (Option Moment))
    (moment : Moment) :
    perform (plan.foldl (sent perform id p status) s) moment (.finalize id p status) =
      (.done (written moment) () : Step σ Unit) := by
  induction plan generalizing s with
  | nil => exact h.once moment
  | cons entry plan ih =>
      rw [List.foldl_cons]
      cases entry with
      | none => exact ih h
      | some a =>
          have hstore : sent perform id p status s (some a) = written a := by
            show (perform s a (.finalize id p status)).store = written a
            rw [h.once]
            rfl
          rw [hstore]
          exact ih (h.of_written a)

theorem final_eq (h : Retakes perform id p status s written) (moments : List Moment)
    (last : Moment) :
    Store.final perform s ((moments ++ [last]).map fun moment => (moment, .finalize id p status)) =
      written last := by
  induction moments generalizing s with
  | nil =>
      show (perform s last (.finalize id p status)).store = written last
      rw [h.once]
      rfl
  | cons a moments ih =>
      show Store.final perform (perform s a (.finalize id p status)).store _ = written last
      rw [h.once]
      exact ih (h.of_written a)

end Retakes

/-! ## Runs whose writes fail -/

/-- The store after a call of a run.  A list gives the times of the writes that are still to come,
or none for a write that does not reach the store. -/
def Call.reach (perform : σ → Moment → (r : Request) → Step σ r.Answer)
    (x : σ × List (Option Moment)) : Call → σ × List (Option Moment)
  | .finalize id p status => (sent perform id p status x.1 x.2.head?.join, x.2.tail)
  | _ => x

theorem reach_failedWrites (c : Closing) (policy : Execution.RetryPolicy) (s : σ)
    (failed : List (Execution.Setback × Nat)) {plan : List (Option Moment)}
    (hlength : plan.length = failed.length) (rest : List (Option Moment)) :
    ((failed.flatMap (c.failedWrite policy)).map Prod.fst).foldl (Call.reach perform)
        (s, plan ++ rest) =
      (plan.foldl (sent perform c.task c.patch c.status) s, rest) := by
  induction failed generalizing s plan with
  | nil =>
      rw [List.length_eq_zero_iff.1 hlength]
      rfl
  | cons x failed ih =>
      obtain ⟨b, earlier⟩ := x
      cases plan with
      | nil => cases hlength
      | cons entry plan =>
          exact ih (sent perform c.task c.patch c.status s entry) (Nat.succ.inj hlength)

/-- The store after a run has written its result, although some of the writes have failed: each of
them was made before it failed, or it was not. -/
structure Settles (perform : σ → Moment → (r : Request) → Step σ r.Answer) (id : TaskId)
    (p : ResultPatch) (status : Status) (s : σ) (written : Moment → σ) (config : Config)
    (began : Nat) (d : Disposition) (faults : List (Nat × StoreError)) (plan : List (Option Moment))
    (last : Moment) (now : Nat) : Prop where
  answer : (perform (plan.foldl (sent perform id p status) s) last (.finalize id p status)).result =
    (.ok () : Except Fault Unit)
  ends : ∃ l f, Delivers config began ⟨id, d, p, status, .none⟩ faults now (.ok ()) l f
  leaves : ∀ l f, Delivers config began ⟨id, d, p, status, .none⟩ faults now (.ok ()) l f →
    ((l.map fun x => x.stage.call).foldl (Call.reach perform) (s, plan ++ [some last])).1 =
      written last ∧ f.status = d.finish

theorem Retakes.settles (h : Retakes perform id p status s written) (config : Config) (began : Nat)
    (d : Disposition) {faults : List (Nat × StoreError)} {plan : List (Option Moment)}
    (last : Moment) (now : Nat) (htransient : ∀ fault ∈ faults, fault.2.isTransient = true)
    (hlength : plan.length = faults.length) :
    Settles perform id p status s written config began d faults plan last now where
  answer := by
    rw [h.after_sent plan last]
    rfl
  ends := exists_delivers config began now htransient (r := .applied (faults.length + 1)) (by
    rw [show Execution.Attempts.none.count = 0 from rfl, Nat.zero_add]
    rfl)
  leaves l f hdelivers := by
    have hpersists :=
      persists_of_delivers htransient rfl (r := .applied (faults.length + 1)) rfl hdelivers
    obtain ⟨failed, hfailed, hcalls⟩ := hpersists.calls
    obtain ⟨a, -, -, -, hf⟩ := hpersists.outcome
    rw [hcalls, List.foldl_append, reach_failedWrites _ _ _ _ (hlength.trans hfailed.symm)]
    constructor
    · show (perform (plan.foldl (sent perform id p status) s) last (.finalize id p status)).store =
        written last
      rw [h.after_sent plan last]
      rfl
    · cases hf
      rfl

/-- A write that is made any number of times, and a run in which some of the writes fail. -/
structure Resends (perform : σ → Moment → (r : Request) → Step σ r.Answer) (id : TaskId)
    (p : ResultPatch) (status : Status) (s : σ) (written : Moment → σ) : Prop where
  often : ∀ moments last,
    Store.final perform s ((moments ++ [last]).map fun moment => (moment, .finalize id p status)) =
      written last
  retried : ∀ (config : Config) (began : Nat) (d : Disposition) (faults : List (Nat × StoreError))
    (plan : List (Option Moment)) (last : Moment) (now : Nat),
    (∀ fault ∈ faults, fault.2.isTransient = true) → plan.length = faults.length →
      Settles perform id p status s written config began d faults plan last now

theorem Retakes.resends (h : Retakes perform id p status s written) :
    Resends perform id p status s written :=
  ⟨h.final_eq, fun config began d _ _ last now => h.settles config began d last now⟩

/-! ## The two stores -/

def finalized (t : Task) (p : ResultPatch) (status : Status) (moment : Moment) : Task :=
  { t with result := t.result.applyFinal p, status := status, updatedAt := moment.now }

def finalizedRow (row : Row) (result : TaskResult) (status : Status) (moment : Moment) : Row :=
  { row with
    result := result.encode.compact
    status := status.name
    updatedAt := moment.now.stamp }

theorem finalized_finalized (t : Task) (p : ResultPatch) (status : Status) (a b : Moment) :
    finalized (finalized t p status a) p status b = finalized t p status b := by
  unfold finalized
  simp only [TaskResult.applyFinal_applyFinal]

theorem finalize_memory_of_find {m : Memory} {t : Task} (hterminal : status.isTerminal = true)
    (hopen : m.poisoned = false) (hfind : m.find? id = some t) (p : ResultPatch)
    (moment : Moment) :
    Memory.perform m moment (.finalize id p status) =
      (.done (m.replace (finalized t p status moment)) () : Step Memory Unit) := by
  show m.finalize moment id p status = _
  rw [Memory.finalize_eq_modify _ _ _ _ hterminal, Memory.modify_of_find hopen hfind rfl]
  rfl

theorem retakes_memory {m : Memory} {t : Task} (hterminal : status.isTerminal = true)
    (hopen : m.poisoned = false) (hfind : m.find? id = some t) (p : ResultPatch) :
    Retakes Memory.perform id p status m fun moment => m.replace (finalized t p status moment) where
  once := finalize_memory_of_find hterminal hopen hfind p
  again a b := by
    have hagain : (m.replace (finalized t p status a)).find? id = some (finalized t p status a) :=
      Memory.find_replace_self hfind (Memory.mem_of_find hfind).2
    have hstep := finalize_memory_of_find (m := m.replace (finalized t p status a)) hterminal hopen
      hagain p b
    have hreplace := Store.Records.replace_replace Task.id m.tasks
      (r := finalized t p status a) (u := finalized t p status b) rfl
    rw [finalized_finalized] at hstep
    exact hstep.trans (congrArg (fun tasks => Step.done (Memory.mk tasks m.poisoned) ()) hreplace)

theorem finalize_table_of_find {t : Table} {rows : List Row} {row : Row} {r : TaskResult}
    (hterminal : status.isTerminal = true) (hrows : t.rows = some rows)
    (hfind : Table.findRow? rows id.text = some row) (hread : Row.resultOf? row.result = some r)
    (p : ResultPatch) (moment : Moment) :
    Table.perform t moment (.finalize id p status) =
      (.done (Table.replaceRow rows (finalizedRow row (r.applyFinal p) status moment)) () :
        Step Table Unit) := by
  show t.finalize moment id p status = _
  rw [Table.finalize, if_pos hterminal, Table.modify_of_find hrows hfind hread rfl]
  rfl

/-- A table takes a write again if it can read what was written. -/
theorem retakes_table {t : Table} {rows : List Row} {row : Row} {r : TaskResult}
    (hterminal : status.isTerminal = true) (hrows : t.rows = some rows)
    (hfind : Table.findRow? rows id.text = some row) (hread : Row.resultOf? row.result = some r)
    (hstorable : (r.applyFinal p).Storable) :
    Retakes Table.perform id p status t fun moment =>
      Table.replaceRow rows (finalizedRow row (r.applyFinal p) status moment) where
  once := finalize_table_of_find hterminal hrows hfind hread p
  again a b := by
    have hagain := Table.find_replaceRow_self
      (b := finalizedRow row (r.applyFinal p) status a) hfind (Table.id_of_find hfind).2
    have hstep := finalize_table_of_find
      (t := Table.replaceRow rows (finalizedRow row (r.applyFinal p) status a)) hterminal rfl
      hagain (Row.resultOf_compact hstorable) p b
    have hreplace := Store.Records.replace_replace Row.id rows
      (r := finalizedRow row (r.applyFinal p) status a)
      (u := finalizedRow row (r.applyFinal p) status b) rfl
    rw [TaskResult.applyFinal_applyFinal] at hstep
    exact hstep.trans (congrArg (fun rows => Step.done (Table.mk (some rows)) ()) hreplace)

/-- A result that is written again leaves both stores as if it had been written once, but for the
time of the last write; so a run whose writes fail leaves them as one clean write does.  What is
written is what the patch makes of the result, with a counter that is never lowered. -/
theorem resends_as_once (id : TaskId) (p : ResultPatch) (status : Status)
    (hterminal : status.isTerminal = true) :
    (∀ (m : Memory) (t : Task), m.poisoned = false → m.find? id = some t →
        Resends Memory.perform id p status m
            (fun moment => m.replace (finalized t p status moment)) ∧
          ∀ moment, (m.replace (finalized t p status moment)).find? id =
            some (finalized t p status moment)) ∧
      (∀ (t : Table) (rows : List Row) (row : Row) (r : TaskResult), t.rows = some rows →
          Table.findRow? rows id.text = some row → Row.resultOf? row.result = some r →
          (r.applyFinal p).Storable →
          Resends Table.perform id p status t
              (fun moment =>
                Table.replaceRow rows (finalizedRow row (r.applyFinal p) status moment)) ∧
            ∀ moment, Table.view.find?
                (Table.replaceRow rows (finalizedRow row (r.applyFinal p) status moment)) id =
                  some (finalizedRow row (r.applyFinal p) status moment) ∧
              Row.resultOf? (finalizedRow row (r.applyFinal p) status moment).result =
                some (r.applyFinal p)) ∧
        ∀ r : TaskResult, r.applyFinal p =
          { r.apply p with
            seq := max (p.seq.getD 0) (max r.seq (r.applyFinal p).logs.length) } := by
  refine ⟨?_, ?_, fun r => r.applyFinal_eq p⟩
  · intro m t hopen hfind
    exact ⟨(retakes_memory hterminal hopen hfind p).resends,
      fun moment => Memory.find_replace_self hfind (Memory.mem_of_find hfind).2⟩
  · intro t rows row r hrows hfind hread hstorable
    exact ⟨(retakes_table hterminal hrows hfind hread hstorable).resends,
      fun moment => ⟨Table.find_replaceRow_self hfind (Table.id_of_find hfind).2,
        Row.resultOf_compact hstorable⟩⟩

/-- Of two failed writes the first one was made, in a table with one new task. -/
theorem resends_as_once_lost :
    let p : ResultPatch := { ResultPatch.empty with logs := some ["a"], seq := some 4 }
    let row : Row := .ofTask (.ofNew ⟨none, "push", .object []⟩ ⟨1⟩ Store.firstMoment.created)
    let faults : List (Nat × StoreError) := [(0, .database), (10 ^ 9, .connection "")]
    Status.failed.isTerminal = true ∧ Row.resultOf? row.result = some .empty ∧
      (TaskResult.empty.applyFinal p).Storable ∧
      Settles Table.perform ⟨1⟩ p .failed ⟨some [row]⟩
        (fun moment => Table.replaceRow [row]
          (finalizedRow row (TaskResult.empty.applyFinal p) .failed moment))
        Config.standard 0 ⟨.failed, none, none, none⟩ faults [some Store.firstMoment, none]
        Store.firstMoment (2 * 10 ^ 9) := by
  intro p row faults
  have hread : Row.resultOf? row.result = some .empty :=
    Row.resultOf_compact TaskResult.storable_empty
  have hstorable : (TaskResult.empty.applyFinal p).Storable :=
    TaskResult.storable_empty.applyFinal (Json.Object.allReadable_empty _) (by decide)
  have hfind : Table.findRow? [row] (TaskId.text ⟨1⟩) = some row := by
    unfold Table.findRow?
    simp [row, Row.ofTask, Task.ofNew]
  have hresends := ((resends_as_once ⟨1⟩ p .failed rfl).2.1 ⟨some [row]⟩ [row] row .empty rfl hfind
    hread hstorable).1
  exact ⟨rfl, hread, hstorable,
    hresends.retried Config.standard 0 ⟨.failed, none, none, none⟩ faults
      [some Store.firstMoment, none] Store.firstMoment (2 * 10 ^ 9) (by decide) rfl⟩

end TaskQueue.Runner
