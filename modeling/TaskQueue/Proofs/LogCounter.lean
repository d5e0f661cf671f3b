import Mathlib.Tactic
import TaskQueue.Proofs.LogChanges
import TaskQueue.Proofs.LogWindow
import TaskQueue.Proofs.StoreLifecycle

/-!
# The counter of a log

The counter of a log is never below the number of lines in the log, whatever a history of requests
does to it, as long as logs are patched only to reset them.  An observer relies on more: from one
state to the next the counter does not go back, unless the log starts over.
-/

namespace TaskQueue

/-- The last patch of a run leaves a counter that covers the lines, whatever the patch says. -/
theorem TaskResult.logs_le_seq_applyFinal (result : TaskResult) (p : ResultPatch) :
    (result.applyFinal p).logs.length ≤ (result.applyFinal p).seq :=
  Nat.le_max_right _ _

theorem TaskResult.seq_le_applyFinal (result : TaskResult) (p : ResultPatch) :
    result.seq ≤ (result.applyFinal p).seq :=
  (Nat.le_max_right _ _).trans (Nat.le_max_left _ _)

namespace Store

open Log (Snapshot)

/-- Whether the request belongs to the engine: it brings no task with a log of its own, and it
patches a log only to reset it. -/
def Request.FromEngine : Request → Prop
  | .insert _ => False
  | .patch _ p => p = .runReset
  | _ => True

/-- A counter that covers the lines, as far as there is a log. -/
def Covers (log : Option Snapshot) : Prop :=
  ∀ s, log = some s → s.lines.length ≤ s.seq

/-- Two logs of a task, one after the other, between which the counter has not gone back. -/
def Advances (before after : Option Snapshot) : Prop :=
  ∀ s t, before = some s → after = some t → s.seq ≤ t.seq ∨ t = .empty

variable {r : Request} {moment : Moment} {id : TaskId}

theorem covers_some {s : Snapshot} : Covers (some s) ↔ s.lines.length ≤ s.seq := by
  simp [Covers]

theorem covers_none : Covers none := by
  intro s hs
  cases hs

/-- What a request of the engine makes of a result is covered, and has not gone back. -/
theorem covers_rewritten {a b : TaskResult} (hr : r.FromEngine)
    (ha : a.logs.length ≤ a.seq) (hchange : r.rewritten? a = some b) :
    b.logs.length ≤ b.seq ∧ (a.seq ≤ b.seq ∨ b.snapshot = .empty) := by
  cases r with
  | patch id p =>
      cases hr
      cases hchange
      exact ⟨Nat.le_refl 0, Or.inr rfl⟩
  | retry id =>
      cases hchange
      exact ⟨Nat.le_refl 0, Or.inr rfl⟩
  | finalize id p status =>
      cases hchange
      exact ⟨a.logs_le_seq_applyFinal p, Or.inl (a.seq_le_applyFinal p)⟩
  | append id lines window =>
      obtain ⟨s, hpush, rfl⟩ := Option.map_eq_some_iff.1 hchange
      have hseq : s.seq = a.seq + lines.length := Snapshot.seq_of_push hpush
      have hlength : s.lines.length ≤ a.logs.length + lines.length :=
        Snapshot.length_le_of_push hpush
      show s.lines.length ≤ s.seq ∧ (a.seq ≤ s.seq ∨ _)
      omega
  | insert task => exact hr.elim
  | _ =>
      cases hchange
      exact ⟨ha, Or.inl (Nat.le_refl _)⟩

theorem Recorded.counted {before after : Option Snapshot} (h : Recorded moment r id before after)
    (hr : r.FromEngine) (hbefore : Covers before) : Covers after ∧ Advances before after := by
  cases h with
  | kept =>
      refine ⟨hbefore, fun s t hs ht => Or.inl ?_⟩
      rw [hs] at ht
      cases ht
      exact Nat.le_refl _
  | gone hwrites =>
      refine ⟨covers_none, fun s t _ ht => ?_⟩
      cases ht
  | changed htarget hlog hchange =>
      subst hlog
      obtain ⟨hcovers, hadvances⟩ := covers_rewritten hr (covers_some.1 hbefore) hchange
      refine ⟨covers_some.2 hcovers, fun s t hs ht => ?_⟩
      cases hs
      cases ht
      exact hadvances
  | created hrequest hid =>
      refine ⟨covers_some.2 (Nat.le_refl 0), fun s t _ ht => Or.inr ?_⟩
      cases ht
      rfl
  | inserted hrequest hid =>
      subst hrequest
      exact hr.elim

/-! ## Histories -/

section Histories

variable {σ : Type} {perform : σ → Moment → (r : Request) → Step σ r.Answer}
  {log? : σ → TaskId → Option Snapshot} {Inv : σ → Prop}

/-- A store in which each request does to a log what is recorded of it. -/
structure RecordsLogs (perform : σ → Moment → (r : Request) → Step σ r.Answer)
    (log? : σ → TaskId → Option Snapshot) (Inv : σ → Prop) : Prop where
  keeps : ∀ s moment r, Inv s → Inv (perform s moment r).store
  recorded : ∀ s moment r id, Inv s →
    Recorded moment r id (log? s id) (log? (perform s moment r).store id)

theorem RecordsLogs.counted (h : RecordsLogs perform log? Inv) {s : σ} (hinv : Inv s)
    (hcovers : ∀ id, Covers (log? s id)) {history : List (Moment × Request)}
    (hhistory : ∀ entry ∈ history, entry.2.FromEngine) :
    Inv (final perform s history) ∧ (∀ id, Covers (log? (final perform s history) id)) ∧
      ∀ e ∈ trace perform s history, ∀ id, Advances (log? e.before id) (log? e.after id) := by
  induction history generalizing s with
  | nil => exact ⟨hinv, hcovers, fun _ he => absurd he List.not_mem_nil⟩
  | cons entry rest ih =>
      obtain ⟨moment, r⟩ := entry
      have hr : r.FromEngine := hhistory (moment, r) List.mem_cons_self
      have hstep : ∀ id, Covers (log? (perform s moment r).store id) ∧
          Advances (log? s id) (log? (perform s moment r).store id) :=
        fun id => (h.recorded s moment r id hinv).counted hr (hcovers id)
      obtain ⟨hlast, hfinal, htrace⟩ := ih (h.keeps s moment r hinv) (fun id => (hstep id).1)
        (fun e he => hhistory e (List.mem_cons_of_mem _ he))
      refine ⟨hlast, hfinal, fun e he => ?_⟩
      rcases List.mem_cons.1 he with rfl | he
      · exact fun id => (hstep id).2
      · exact htrace e he

end Histories

theorem recordsLogs_memory : RecordsLogs Memory.perform Memory.log? Memory.Unique where
  keeps _ _ r hunique := Memory.unique_perform hunique r
  recorded _ moment r id hunique := Memory.recorded_perform hunique moment r id

theorem recordsLogs_table : RecordsLogs Table.perform Table.log? Table.Unique where
  keeps _ _ r hunique := Table.unique_perform hunique r
  recorded _ moment r id hunique := Table.recorded_perform hunique moment r id

/-- In a table that mirrors a store in memory every log can be read. -/
theorem Mirrors.log_eq {m : Memory} {rows : List Row} (h : Mirrors m rows) (id : TaskId) :
    Table.log? ⟨some rows⟩ id = m.log? id := by
  rw [Table.log_of_rows rfl, h.find_row]
  unfold Memory.log?
  cases hfind : m.find? id with
  | none => rfl
  | some t =>
      have hread : Row.resultOf? (Row.ofTask t).result = some t.result :=
        Row.resultOf_compact (h.storable_of_find hfind).result
      rw [Option.map_some, Option.bind_some, hread]
      rfl

/-- Over every history of the engine's requests, and in both stores, the counter of each task
covers its lines, and each step moves a counter on or leaves an empty log at zero.  A table may
hold results that it cannot read, but not where all that was written can be read back. -/
theorem counter_covers_log {history : List (Moment × Request)}
    (hhistory : ∀ entry ∈ history, entry.2.FromEngine) :
    (∀ t ∈ (final Memory.perform .empty history).tasks, t.result.logs.length ≤ t.result.seq) ∧
      (∀ rows, (final Table.perform (Table.migrate ⟨none⟩).store history).rows = some rows →
        ∀ row ∈ rows, ∀ result, Row.resultOf? row.result = some result →
          result.logs.length ≤ result.seq) ∧
      (∀ e ∈ trace Memory.perform .empty history, ∀ id,
        Advances (e.before.log? id) (e.after.log? id)) ∧
      (∀ e ∈ trace Table.perform (Table.migrate ⟨none⟩).store history, ∀ id,
        Advances (e.before.log? id) (e.after.log? id)) ∧
      (Memory.empty.Admissible history → ∀ id,
        (final Table.perform (Table.migrate ⟨none⟩).store history).log? id =
          (final Memory.perform .empty history).log? id) := by
  have hkeyed : (Table.migrate ⟨none⟩).store.Unique := by
    intro rows hrows
    cases hrows
    exact mirrors_empty.keyed
  have hmemory := recordsLogs_memory.counted (s := .empty) List.nodup_nil
    (fun _ => covers_none) hhistory
  have htable := recordsLogs_table.counted hkeyed (fun _ => covers_none) hhistory
  refine ⟨?_, ?_, hmemory.2.2, htable.2.2, ?_⟩
  · intro t ht
    have hlog := hmemory.2.1 t.id
    rw [Memory.log?, hmemory.1.find ht] at hlog
    exact covers_some.1 hlog
  · intro rows hrows row hrow result hread
    obtain ⟨id, hid⟩ := (htable.1 rows hrows).text row hrow
    have hlog := htable.2.1 id
    rw [Table.log_of_rows hrows, ← hid, (htable.1 rows hrows).find hrow, Option.bind_some, hread]
      at hlog
    exact covers_some.1 hlog
  · intro hadmissible id
    obtain ⟨rows, hfinal, hmirrors⟩ := mirrors_empty.final hadmissible
    have hstart : (Table.migrate ⟨none⟩).store = ⟨some []⟩ := rfl
    rw [hstart, hfinal]
    exact hmirrors.log_eq id

/-- A run is finalized with more lines than the log keeps, and with a lower count. -/
def lateCountHistory : List (Moment × Request) :=
  [(firstMoment, .enqueue ⟨none, "push", .object []⟩),
   (firstMoment, .claim 10 ⟨⟨0, 0⟩, 0⟩),
   (firstMoment, .append ⟨1⟩ ["a", "b", "c"] 0),
   (firstMoment, .finalize ⟨1⟩
      { ResultPatch.empty with logs := some ["a", "b", "c", "d"], seq := some 2 } .failed)]

theorem admissible_lateCountHistory : Memory.empty.Admissible lateCountHistory := by
  have hmoment : firstMoment.Stampable := ⟨by decide, by decide⟩
  have hpayload : (Json.object []).Readable Json.maxNesting := by
    constructor
    · simp [Json.Legible, Json.LegibleFields]
    · simp [Json.Canonical, Json.CanonicalFields, Json.Fields.Ordered]
    · decide
  refine ⟨hmoment, ⟨rfl, hpayload⟩, hmoment, trivial, hmoment, ?_, hmoment,
    ⟨Json.Object.allReadable_empty _, ?_⟩, trivial⟩
  · intro t h
    cases h
    exact Or.inr (by decide)
  · intro t h
    cases h
    decide

theorem counter_covers_log_lateCount :
    (∀ entry ∈ lateCountHistory, entry.2.FromEngine) ∧
      Memory.empty.Admissible lateCountHistory ∧
      (final Table.perform (Table.migrate ⟨none⟩).store lateCountHistory).log? ⟨1⟩ =
        some ⟨["a", "b", "c", "d"], 4⟩ := by
  have hhistory : ∀ entry ∈ lateCountHistory, entry.2.FromEngine := by
    simp [lateCountHistory, Request.FromEngine]
  have hlogs := (counter_covers_log hhistory).2.2.2.2 admissible_lateCountHistory ⟨1⟩
  exact ⟨hhistory, admissible_lateCountHistory, hlogs⟩

end Store

end TaskQueue
