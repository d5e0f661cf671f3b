import Mathlib.Tactic
import TaskQueue.Proofs.MemoryLifecycle
import TaskQueue.Proofs.StoreAgreement
import TaskQueue.Proofs.TableLifecycle

/-!
# The lifecycle of tasks in both stores

Over every history whose new identifiers are new, each store keeps the lifecycle of all its tasks
exactly if it never slips.
-/

namespace TaskQueue.Store

open Log (counterBound)

/-- A store keeps the lifecycle exactly if no step of the history is one of its slips: in memory a
retry that crashes; in a table a claim of a row that cannot be read, or a log that takes the
connection down while there are other rows. -/
theorem lifecycle_iff_no_slip {history : List (Moment × Request)}
    (hfresh : (View.newIds history).Nodup) :
    (Memory.view.Lifecycle (trace Memory.perform .empty history) ↔
        ∀ e ∈ trace Memory.perform .empty history, ¬e.before.Slips e.request) ∧
      (Table.view.Lifecycle (trace Table.perform (Table.migrate ⟨none⟩).store history) ↔
        ∀ e ∈ trace Table.perform (Table.migrate ⟨none⟩).store history,
          ¬e.before.Slips e.moment e.request) := by
  have hmemory : Memory.empty.Unique := List.nodup_nil
  have htable : (Table.migrate ⟨none⟩).store.Unique := by
    intro rows hrows
    cases hrows
    exact ⟨List.nodup_nil, by simp⟩
  constructor
  · exact Memory.behaves.lifecycle_iff hmemory (fun _ => rfl) hfresh
  · exact Table.behaves.lifecycle_iff htable (fun _ => rfl) hfresh

/-- A task whose log is at the end of its count gets another line while there is a second task. -/
def fullLogHistory : List (Moment × Request) :=
  [(firstMoment, .enqueue ⟨none, "push", .object []⟩),
   ({ firstMoment with freshId := ⟨2⟩ }, .enqueue ⟨none, "push", .object []⟩),
   (firstMoment, .patch ⟨1⟩ { ResultPatch.empty with seq := some (counterBound - 1) }),
   (firstMoment, .append ⟨1⟩ ["x"] 5)]

theorem lifecycle_fullLogHistory :
    (View.newIds fullLogHistory).Nodup ∧
      (Memory.view.Lifecycle (trace Memory.perform .empty fullLogHistory) ↔
          ∀ e ∈ trace Memory.perform .empty fullLogHistory, ¬e.before.Slips e.request) ∧
        (Table.view.Lifecycle (trace Table.perform (Table.migrate ⟨none⟩).store fullLogHistory) ↔
          ∀ e ∈ trace Table.perform (Table.migrate ⟨none⟩).store fullLogHistory,
            ¬e.before.Slips e.moment e.request) :=
  have hfresh : (View.newIds fullLogHistory).Nodup := by decide
  ⟨hfresh, lifecycle_iff_no_slip hfresh⟩

theorem Mirrors.keyed {m : Memory} {rows : List Row} (h : Mirrors m rows) : Table.Keyed rows where
  nodup := by
    have hperm := h.rows.map Row.id
    rw [List.map_map] at hperm
    exact hperm.nodup_iff.2 (nodup_texts h.tasks.nodup)
  text r hr := by
    obtain ⟨t, _, rfl⟩ := List.mem_map.1 (h.rows.mem_iff.1 hr)
    exact ⟨t.id, rfl⟩

/-- A log line that cannot be counted is a slip of a table that mirrors other tasks, too. -/
theorem Mirrors.slips {m : Memory} {rows : List Row} (h : Mirrors m rows) {moment : Moment}
    {t u : Task} {id : TaskId} {lines : List String} {window : Nat} (hfind : m.find? id = some t)
    (hpush : t.result.snapshot.push? lines window = none) (hu : u ∈ m.tasks) (hne : u.id ≠ id) :
    Table.Slips ⟨some rows⟩ moment (.append id lines window) := by
  have hrow : Table.findRow? rows id.text = some (Row.ofTask t) := by
    rw [h.find_row, hfind]
    rfl
  have hread := Row.resultOf_compact (h.storable_of_find hfind).result
  refine ⟨rows, Row.ofTask t, t.result, Row.ofTask u, rfl, hrow, hread, hpush, ?_, ?_⟩
  · exact h.rows.mem_iff.2 (List.mem_map_of_mem hu)
  · exact fun htext => hne (TaskId.text_inj.1 htext)

theorem Mirrors.final {m : Memory} {rows : List Row} (h : Mirrors m rows)
    {history : List (Moment × Request)} (hadmissible : m.Admissible history) :
    ∃ rows', final Table.perform ⟨some rows⟩ history = ⟨some rows'⟩ ∧
      Mirrors (final Memory.perform m history) rows' := by
  induction history generalizing m rows with
  | nil => exact ⟨rows, rfl, h⟩
  | cons entry rest ih =>
      obtain ⟨moment, r⟩ := entry
      obtain ⟨hmoment, hadmits, hrest⟩ := hadmissible
      obtain ⟨rows', hstore, hmirrors⟩ := (h.agree_perform hmoment hadmits).mirrors
      obtain ⟨rows'', hfinal, hlast⟩ := ih hmirrors hrest
      refine ⟨rows'', ?_, hlast⟩
      rw [Store.final, hstore, hfinal]

/-- The line takes the row of the second task away. -/
theorem not_lifecycle_fullLogHistory :
    ¬Table.view.Lifecycle (trace Table.perform (Table.migrate ⟨none⟩).store fullLogHistory) := by
  intro hlife
  have hpayload : (Json.object []).Readable Json.maxNesting := by
    constructor
    · simp [Json.Legible, Json.LegibleFields]
    · simp [Json.Canonical, Json.CanonicalFields, Json.Fields.Ordered]
    · decide
  have hadmissible : Memory.empty.Admissible (fullLogHistory.take 3) := by
    refine ⟨⟨by decide, by decide⟩, ⟨rfl, hpayload⟩, ⟨by decide, by decide⟩, ⟨rfl, hpayload⟩,
      ⟨by decide, by decide⟩, ⟨Json.Object.allReadable_empty _, ?_⟩, trivial⟩
    intro t h
    cases h
    decide
  obtain ⟨rows, hfinal, hmirrors⟩ := mirrors_empty.final hadmissible
  have hslips : Table.Slips ⟨some rows⟩ firstMoment (.append ⟨1⟩ ["x"] 5) :=
    hmirrors.slips (u := Task.ofNew ⟨none, "push", .object []⟩ ⟨2⟩ firstMoment.created) rfl
      (by decide) (by decide) (by decide)
  have hunique : Table.Unique ⟨some rows⟩ := by
    intro rows' hrows
    cases hrows
    exact hmirrors.keyed
  have hmem := step_mem_trace Table.perform (Table.migrate ⟨none⟩).store (fullLogHistory.take 3)
    firstMoment (.append ⟨1⟩ ["x"] 5) []
  have hsound := hlife.steps _ hmem
  have hstart : (Table.migrate ⟨none⟩).store = ⟨some []⟩ := rfl
  rw [hstart, hfinal] at hsound
  exact Table.not_sound_of_append hunique hslips hsound

end TaskQueue.Store
