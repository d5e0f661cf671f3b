import Mathlib.Tactic
import TaskQueue.Proofs.CountedLines
import TaskQueue.Proofs.StreamedLog
import TaskQueue.Runner.Config

/-!
# The last patch of a run and the log that was streamed

A store drops the oldest lines of a log as more arrive, and the last patch of a run is trimmed
before it is written.  Both keep the newest lines of a window and count all lines, so a patch with
all lines of the run leaves the log as it is.  They part at a window of zero only: a store takes it
for a window of one line, and the patch is left without any.
-/

namespace TaskQueue

open Log (Snapshot clampWindow counterBound newest)
open Store (Memory Moment Request Step Table)

namespace Log

variable {window : Nat} {lines : List String}

/-- What a window of zero keeps as it stands, and what it keeps as a window of one line. -/
theorem newest_clampWindow_iff :
    newest window lines = newest (clampWindow window) lines ↔ 1 ≤ window ∨ lines = [] := by
  constructor
  · intro h
    have hlength := congrArg List.length h
    rw [length_newest, length_newest] at hlength
    by_cases hlines : lines = []
    · exact Or.inr hlines
    · have hpos := List.length_pos_iff.2 hlines
      unfold clampWindow at hlength
      exact Or.inl (by omega)
  · rintro (hwindow | hlines)
    · rw [show clampWindow window = window from Nat.max_eq_left hwindow]
    · rw [hlines]
      simp [newest]

end Log

namespace Runner

variable {σ : Type} {perform : σ → Moment → (r : Request) → Step σ r.Answer} {id : TaskId}
  {Holds : σ → Snapshot → Prop} {window : Nat} {lines : List String} {p : ResultPatch}

theorem trimLogs_of_counted (hlogs : p.logs = some lines) (hseq : p.seq = some lines.length)
    (window : Nat) :
    trimLogs p window =
      { p with logs := some (newest window lines), seq := some lines.length } := by
  have hkept : max lines.length (newest window lines).length = lines.length := by
    rw [Log.length_newest]
    exact Nat.max_eq_left (Nat.min_le_right _ _)
  unfold trimLogs
  simp only [hlogs, hseq, Option.map_some, Option.getD_some, hkept]

/-- The trimmed patch shows what an empty log shows when the lines are added to it, unless there
are lines and the window is zero. -/
theorem trimLogs_eq_pushed_iff (hfits : lines.length < counterBound) (hlogs : p.logs = some lines)
    (hseq : p.seq = some lines.length) :
    (∃ s, Snapshot.empty.push? lines window = some s ∧
        trimLogs p window = { p with logs := some s.lines, seq := some s.seq }) ↔
      1 ≤ window ∨ lines = [] := by
  rw [← Log.newest_clampWindow_iff, Log.push_empty hfits, trimLogs_of_counted hlogs hseq]
  constructor
  · rintro ⟨s, hs, hsame⟩
    cases hs
    exact Option.some.inj (congrArg ResultPatch.logs hsame)
  · intro hsame
    exact ⟨_, rfl, by rw [hsame]⟩

/-! ## The log in a store -/

/-- The log of a run whose lines have all been streamed, before the last patch is written and
after it. -/
structure KeepsStreamed (perform : σ → Moment → (r : Request) → Step σ r.Answer) (id : TaskId)
    (Holds : σ → Snapshot → Prop) (window : Nat) (lines : List String) (p : ResultPatch)
    (status : Status) (streamed : σ) : Prop where
  shown : ∀ s, Snapshot.empty.push? lines window = some s → Holds streamed s
  written : ∀ moment,
    (perform streamed moment (.finalize id (trimLogs p window) status)).result =
      (.ok () : Except Fault Unit)
  unchanged_iff : ∀ moment,
    (∀ s, Holds streamed s →
        Holds (perform streamed moment (.finalize id (trimLogs p window) status)).store s) ↔
      1 ≤ window ∨ lines = []

/-- A store that keeps one log for the task, and takes the trimmed patch. -/
structure TakesTrimmed (perform : σ → Moment → (r : Request) → Step σ r.Answer) (id : TaskId)
    (Holds : σ → Snapshot → Prop) (p : ResultPatch) (status : Status) : Prop where
  same : ∀ s a b, Holds s a → Holds s b → a = b
  takes : ∀ s moment shown lines window, Holds s shown → p.logs = some lines →
    p.seq = some lines.length → shown.seq = lines.length → lines.length < counterBound →
    (perform s moment (.finalize id (trimLogs p window) status)).result =
        (.ok () : Except Fault Unit) ∧
      Holds (perform s moment (.finalize id (trimLogs p window) status)).store
        ⟨newest window lines, lines.length⟩

/-- The lines of a run are streamed in batches, none of which is lost. -/
theorem keepsStreamed {status : Status} {store : σ} {batches : List (List String)}
    {plan : List (Option Moment)} (hkeeps : Log.KeepsLog perform id Holds)
    (htakes : TakesTrimmed perform id Holds p status) (hholds : Holds store .empty)
    (hlogs : p.logs = some batches.flatten) (hseq : p.seq = some batches.flatten.length)
    (hfits : batches.flatten.length < counterBound) (hplan : ∀ entry ∈ plan, entry.isSome)
    (hlength : batches.length ≤ plan.length) :
    KeepsStreamed perform id Holds window batches.flatten p status
      (batches.foldl (fun s batch => Shell.offerTo perform id window batch s) (store, plan)).1 := by
  have hcount : Snapshot.empty.seq + batches.flatten.length = batches.flatten.length :=
    Nat.zero_add _
  have hshown : Holds
      (batches.foldl (fun s batch => Shell.offerTo perform id window batch s) (store, plan)).1
      ⟨newest (clampWindow window) batches.flatten, Snapshot.empty.seq + batches.flatten.length⟩ :=
    Shell.holds_all_offered hkeeps hholds (Nat.zero_le _) (hcount.trans_lt hfits) hplan hlength
  rw [hcount] at hshown
  refine ⟨?_, ?_, ?_⟩
  · intro s hs
    rw [Log.push_empty hfits] at hs
    cases hs
    exact hshown
  · intro moment
    exact (htakes.takes _ moment _ _ window hshown hlogs hseq rfl hfits).1
  · intro moment
    have hafter := (htakes.takes _ moment _ _ window hshown hlogs hseq rfl hfits).2
    rw [← Log.newest_clampWindow_iff]
    constructor
    · intro hsame
      have heq := htakes.same _ _ _ hafter (hsame _ hshown)
      exact congrArg Snapshot.lines heq
    · intro hsame s hs
      rw [htakes.same _ _ _ hs hshown, ← hsame]
      exact hafter

/-- What the trimmed patch leaves of a log that has counted the same lines. -/
theorem snapshot_of_trimmed {r : TaskResult} (hlogs : p.logs = some lines)
    (hseq : p.seq = some lines.length) (hstored : r.snapshot.seq = lines.length) (window : Nat) :
    (r.applyFinal (trimLogs p window)).snapshot = ⟨newest window lines, lines.length⟩ := by
  have hcount : max lines.length (max (min window lines.length) r.seq) = lines.length := by
    change r.seq = lines.length at hstored
    omega
  rw [snapshot_applyFinal_trimLogs r hlogs window, hseq, Option.getD_some, hcount]

theorem takesTrimmed_memory (id : TaskId) (p : ResultPatch) {status : Status}
    (hterminal : status.isTerminal = true) :
    TakesTrimmed Memory.perform id (Log.HeldInMemory id) p status where
  same m a b := by
    rintro ⟨-, t, hfind, rfl⟩ ⟨-, u, hfind', rfl⟩
    rw [hfind] at hfind'
    cases hfind'
    rfl
  takes m moment shown lines window hheld hlogs hseq hstored _ := by
    obtain ⟨r, rfl, hok, hnext⟩ :=
      Shell.finalize_held_memory hheld moment (trimLogs p window) hterminal
    rw [snapshot_of_trimmed hlogs hseq hstored] at hnext
    exact ⟨hok, hnext⟩

theorem takesTrimmed_table (id : TaskId) {p : ResultPatch}
    (hextra : p.extra.AllReadable TaskResult.maxExtraHeight) {status : Status}
    (hterminal : status.isTerminal = true) :
    TakesTrimmed Table.perform id (Log.HeldInTable id) p status where
  same t a b := by
    rintro ⟨rows, row, result, hrows, hfind, hread, -, rfl⟩
      ⟨rows', row', result', hrows', hfind', hread', -, rfl⟩
    rw [hrows] at hrows'
    cases hrows'
    rw [hfind] at hfind'
    cases hfind'
    rw [hread] at hread'
    cases hread'
    rfl
  takes t moment shown lines window hheld hlogs hseq hstored hfits := by
    have hkept : (trimLogs p window).extra.AllReadable TaskResult.maxExtraHeight := by
      rw [trimLogs_of_counted hlogs hseq]
      exact hextra
    have hcount : ∀ r : TaskResult, r.snapshot = shown →
        (r.applyFinal (trimLogs p window)).seq < counterBound := by
      rintro r rfl
      have hlog := snapshot_of_trimmed hlogs hseq hstored window
      exact (congrArg Snapshot.seq hlog).trans_lt hfits
    obtain ⟨r, rfl, hok, hnext⟩ :=
      Shell.finalize_held_table hheld moment hterminal hkept hcount
    rw [snapshot_of_trimmed hlogs hseq hstored] at hnext
    exact ⟨hok, hnext⟩

/-- A patch that counts its lines is trimmed to what a log shows to which the lines are added, and
in both stores the log that was streamed does not change when the patch is written.  This holds for
every window but zero, and for that one if there are no lines. -/
theorem trims_as_streamed_iff (config : Config) (p : ResultPatch) (lines : List String)
    (hlogs : p.logs = some lines) (hseq : p.seq = some lines.length)
    (hfits : lines.length < counterBound) :
    ((∃ s, Snapshot.empty.push? lines config.logWindow = some s ∧
          trimLogs p config.logWindow = { p with logs := some s.lines, seq := some s.seq }) ↔
        1 ≤ config.logWindow ∨ lines = []) ∧
      ∀ (id : TaskId) (status : Status) (batches : List (List String))
        (plan : List (Option Moment)),
        status.isTerminal = true → batches.flatten = lines → (∀ entry ∈ plan, entry.isSome) →
        batches.length ≤ plan.length →
        (∀ store, Log.HeldInMemory id store .empty →
            KeepsStreamed Memory.perform id (Log.HeldInMemory id) config.logWindow lines p status
              (batches.foldl (fun s batch =>
                Shell.offerTo Memory.perform id config.logWindow batch s) (store, plan)).1) ∧
          ∀ store, p.extra.AllReadable TaskResult.maxExtraHeight →
            Log.HeldInTable id store .empty →
            KeepsStreamed Table.perform id (Log.HeldInTable id) config.logWindow lines p status
              (batches.foldl (fun s batch =>
                Shell.offerTo Table.perform id config.logWindow batch s) (store, plan)).1 := by
  refine ⟨trimLogs_eq_pushed_iff hfits hlogs hseq, ?_⟩
  rintro id status batches plan hterminal rfl hplan hlength
  constructor
  · intro store hheld
    exact keepsStreamed (Log.keepsLog_memory id) (takesTrimmed_memory id p hterminal) hheld hlogs
      hseq hfits hplan hlength
  · intro store hextra hheld
    exact keepsStreamed (Log.keepsLog_table id) (takesTrimmed_table id hextra hterminal) hheld hlogs
      hseq hfits hplan hlength

/-- Three lines in two batches, and a window of two. -/
theorem trims_as_streamed_window :
    let p : ResultPatch :=
      { ResultPatch.empty with logs := some ["a", "b", "c"], seq := some 3 }
    let config := { Config.standard with logWindow := 2 }
    let streamed := ([["a"], ["b", "c"]].foldl
      (fun s batch => Shell.offerTo Memory.perform ⟨1⟩ config.logWindow batch s)
      (Log.freshStore, [some Store.firstMoment, some Store.firstMoment])).1
    (p.logs = some ["a", "b", "c"] ∧ p.seq = some ["a", "b", "c"].length ∧
        ["a", "b", "c"].length < counterBound) ∧
      (trimLogs p config.logWindow).logs = some ["b", "c"] ∧
      Log.HeldInMemory ⟨1⟩ streamed ⟨["b", "c"], 3⟩ ∧
      Log.HeldInMemory ⟨1⟩
        (Memory.perform streamed Store.firstMoment
          (.finalize ⟨1⟩ (trimLogs p config.logWindow) .succeeded)).store ⟨["b", "c"], 3⟩ := by
  intro p config streamed
  have hheld : Log.HeldInMemory ⟨1⟩ Log.freshStore .empty := ⟨rfl, _, rfl, rfl⟩
  have hfits : ["a", "b", "c"].length < counterBound := by decide
  have hkeeps := ((trims_as_streamed_iff config p ["a", "b", "c"] rfl rfl hfits).2 ⟨1⟩ .succeeded
    [["a"], ["b", "c"]] [some Store.firstMoment, some Store.firstMoment] rfl rfl (by simp)
    (by decide)).1 Log.freshStore hheld
  have hstreamed : Log.HeldInMemory ⟨1⟩ streamed ⟨["b", "c"], 3⟩ := hkeeps.shown _ rfl
  have hwindow : 1 ≤ config.logWindow ∨ ["a", "b", "c"] = [] := Or.inl (by decide)
  exact ⟨⟨rfl, rfl, hfits⟩, rfl, hstreamed,
    (hkeeps.unchanged_iff Store.firstMoment).2 hwindow _ hstreamed⟩

/-- In a window of zero a log keeps its newest line, and the trimmed patch keeps none: when it is
written, the line that was streamed last is gone. -/
theorem not_trims_as_streamed_zeroWindow :
    let p : ResultPatch := { ResultPatch.empty with logs := some ["a", "b"], seq := some 2 }
    let streamed := (Memory.perform Log.freshStore Store.firstMoment
      (.append ⟨1⟩ ["a", "b"] 0)).store
    Snapshot.empty.push? ["a", "b"] 0 = some ⟨["b"], 2⟩ ∧
      trimLogs p 0 = { p with logs := some [], seq := some 2 } ∧
      Log.HeldInMemory ⟨1⟩ streamed ⟨["b"], 2⟩ ∧
      Log.HeldInMemory ⟨1⟩
        (Memory.perform streamed Store.firstMoment (.finalize ⟨1⟩ (trimLogs p 0) .succeeded)).store
        ⟨[], 2⟩ :=
  ⟨rfl, rfl, ⟨rfl, _, rfl, rfl⟩, ⟨rfl, _, rfl, rfl⟩⟩

end Runner

end TaskQueue
