import Mathlib.Tactic
import TaskQueue.Proofs.NewestLines
import TaskQueue.Runner.Disposition

/-!
# Lines that are counted when a run ends

The last patch of a run is trimmed to the newest lines and merged into the stored result.  However
the run ends, what is stored are these lines and a counter that is not below the one reported, nor
below the one stored before.  The lines of a failure are all counted, for they are counted before
they are trimmed; an output is believed, so lines that it does not count and that are trimmed are
lost from the counter too.
-/

namespace TaskQueue.Runner

open Execution (Failure Output Verdict Watch)
open Log (newest)

variable {p : ResultPatch} {lines : List String} {window : Nat}

/-- The patch of a verdict as such. -/
def patchOf : Verdict → ResultPatch
  | .success o => o.patch
  | .failure f => f.patch f.message

/-- A reason to stop changes the message only. -/
theorem log_of_resolve {watch : Watch} {v : Verdict} {status : Status}
    (h : (resolve watch v).write = some (status, p)) :
    p.logs = (patchOf v).logs ∧ p.seq = (patchOf v).seq := by
  obtain ⟨id, reason, cancelled, vigil⟩ := watch
  cases v with
  | success o =>
      rcases reason with _ | _ | _ <;> cases h <;> exact ⟨rfl, rfl⟩
  | failure f =>
      rcases reason with _ | _ | _
      · unfold resolve reasonAtEnd at h
        cases haborted : f.aborted <;> simp [haborted, Watch.record] at h <;>
          obtain ⟨-, rfl⟩ := h <;> exact ⟨rfl, rfl⟩
      · cases h
        exact ⟨rfl, rfl⟩
      · cases h

theorem snapshot_applyFinal_congr (r : TaskResult) {q : ResultPatch} (hlogs : p.logs = q.logs)
    (hseq : p.seq = q.seq) (window : Nat) :
    (r.applyFinal (trimLogs p window)).snapshot = (r.applyFinal (trimLogs q window)).snapshot := by
  unfold TaskResult.applyFinal TaskResult.apply TaskResult.snapshot trimLogs
  rw [hlogs, hseq]
  cases q.logs with
  | none => simp only [hlogs, hseq]
  | some lines => rfl

theorem snapshot_applyFinal_trimLogs (r : TaskResult) (hlogs : p.logs = some lines)
    (window : Nat) :
    (r.applyFinal (trimLogs p window)).snapshot =
      ⟨newest window lines, max (p.seq.getD 0) (max (min window lines.length) r.seq)⟩ := by
  have hcount (n : Nat) : (p.seq.map (max · n)).getD n = max (p.seq.getD 0) n := by
    cases p.seq with
    | none => exact (Nat.zero_max n).symm
    | some seq => rfl
  unfold TaskResult.applyFinal TaskResult.apply TaskResult.snapshot trimLogs
  simp only [hlogs, Option.getD_some, hcount, Log.length_newest]
  congr 1
  omega

theorem seq_applyFinal_trimLogs (r : TaskResult) (hlogs : p.logs = some lines) (window : Nat) :
    (r.applyFinal (trimLogs p window)).seq =
      max (p.seq.getD 0) (max (min window lines.length) r.seq) :=
  congrArg Log.Snapshot.seq (snapshot_applyFinal_trimLogs r hlogs window)

/-- What the end of a run leaves in a result: the newest of the lines that are reported, and a
counter that has not gone back behind the one that is reported. -/
structure Ends (r : TaskResult) (window : Nat) (lines : List String) (reported : Nat)
    (after : TaskResult) : Prop where
  suffix : after.logs <:+ lines
  length : after.logs.length = min window lines.length
  reported : reported ≤ after.seq
  stored : r.seq ≤ after.seq

theorem ends_applyFinal_trimLogs (r : TaskResult) (hlogs : p.logs = some lines) (window : Nat) :
    Ends r window lines (p.seq.getD 0) (r.applyFinal (trimLogs p window)) := by
  have h := snapshot_applyFinal_trimLogs r hlogs window
  have hkept : (r.applyFinal (trimLogs p window)).logs = newest window lines :=
    congrArg Log.Snapshot.lines h
  have hseq := seq_applyFinal_trimLogs r hlogs window
  refine ⟨?_, ?_, ?_, ?_⟩
  · rw [hkept]
    exact Log.newest_suffix window lines
  · rw [hkept, Log.length_newest]
  · rw [hseq]
    exact Nat.le_max_left _ _
  · rw [hseq]
    exact (Nat.le_max_right _ _).trans (Nat.le_max_right _ _)

/-- The newest lines that an execution reports are stored, and no counter goes back.  All lines of a
failure are counted.  Those of an output are counted exactly if there are not more of them than the
window holds, the output says, or the store has counted before.  A reason to stop changes nothing
in that. -/
theorem counts_all_iff (r : TaskResult) (window : Nat) :
    (∀ o : Output,
      Ends r window o.logs o.seq (r.applyFinal (trimLogs o.patch window)) ∧
        (o.logs.length ≤ (r.applyFinal (trimLogs o.patch window)).seq ↔
          o.logs.length ≤ max window (max o.seq r.seq))) ∧
      (∀ (f : Failure) (message : String) (lines : List String), f.logs = some lines →
        Ends r window lines (f.seq.getD 0) (r.applyFinal (trimLogs (f.patch message) window)) ∧
          lines.length ≤ (r.applyFinal (trimLogs (f.patch message) window)).seq) ∧
      ∀ (watch : Watch) (v : Verdict) (status : Status) (p : ResultPatch),
        (resolve watch v).write = some (status, p) →
          (r.applyFinal (trimLogs p window)).snapshot =
            (r.applyFinal (trimLogs (patchOf v) window)).snapshot := by
  refine ⟨fun o => ?_, fun f message lines hlogs => ?_, fun watch v status p hwrite => ?_⟩
  · have hlogs : o.patch.logs = some o.logs := rfl
    refine ⟨ends_applyFinal_trimLogs r hlogs window, ?_⟩
    rw [seq_applyFinal_trimLogs r hlogs window]
    show o.logs.length ≤ max o.seq (max (min window o.logs.length) r.seq) ↔ _
    omega
  · have hpatch : (f.patch message).logs = some lines := hlogs
    have hcounted : (f.patch message).seq.getD 0 = max (f.seq.getD 0) lines.length := by
      unfold Failure.patch Failure.countedSeq
      rw [hlogs]
      rfl
    have hends := ends_applyFinal_trimLogs r hpatch window
    have hreported := hends.reported
    rw [hcounted] at hreported
    exact ⟨⟨hends.suffix, hends.length, by omega, hends.stored⟩, by omega⟩
  · obtain ⟨hlogs, hseq⟩ := log_of_resolve hwrite
    exact snapshot_applyFinal_congr r hlogs hseq window

/-- A failure that reports four lines and counts one, in a window of two. -/
theorem counts_all_failure :
    let f : Failure := { Failure.ofMessage "no" with
      logs := some ["a", "b", "c", "d"], seq := some 1 }
    f.logs = some ["a", "b", "c", "d"] ∧
      (TaskResult.empty.applyFinal (trimLogs (f.patch "no") 2)).snapshot = ⟨["c", "d"], 4⟩ ∧
      4 ≤ (TaskResult.empty.applyFinal (trimLogs (f.patch "no") 2)).seq := by
  intro f
  exact ⟨rfl, rfl, ((counts_all_iff .empty 2).2.1 f "no" ["a", "b", "c", "d"] rfl).2⟩

/-- An output that reports the same lines and counts none of them: two of the four are counted. -/
theorem not_counts_all_output :
    let o : Output := { Output.ofLogs ["a", "b", "c", "d"] with seq := 0 }
    (TaskResult.empty.applyFinal (trimLogs o.patch 2)).snapshot = ⟨["c", "d"], 2⟩ ∧
      ¬o.logs.length ≤ (TaskResult.empty.applyFinal (trimLogs o.patch 2)).seq :=
  ⟨rfl, by decide⟩

end TaskQueue.Runner
