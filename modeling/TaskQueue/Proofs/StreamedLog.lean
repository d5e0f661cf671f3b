import Mathlib.Tactic
import TaskQueue.Proofs.NewestLines
import TaskQueue.Proofs.ObservedLog
import TaskQueue.Runner.Stage
import TaskQueue.Shell.Streaming

/-!
# The log of a command whose batches are lost

The lines of a command are counted and trimmed in four places: in the buffer of the run, in the
store as the batches arrive, in the last patch before it is written, and once more when that patch
is merged.  All four agree on the newest lines of one window, so the end of a run makes up for every
batch that the store has lost, and changes nothing that a store without losses shows.
-/

namespace TaskQueue

open Log (Rolling Snapshot clampWindow counterBound newest)
open Store (Memory Moment Request Row Step Table)

namespace Shell

open Execution (Verdict Watch)
open Runner (Closing Config Executed Stage Timing resolve trimLogs)

/-! ## The verdict on a command -/

theorem collect_eq (window : Nat) (batches : List (List String)) :
    collect window batches =
      ⟨newest (clampWindow window) batches.flatten, batches.flatten.length,
        clampWindow window⟩ := by
  have hall : collect window batches = (Rolling.empty window).extend batches.flatten :=
    (List.foldl_flatten ..).symm
  rw [hall, Rolling.extend_empty]

theorem readable_exitExtra (e : ProcessEnd) :
    (exitExtra e).AllReadable TaskResult.maxExtraHeight := by
  intro p hp
  have hfields : (exitExtra e).fields =
      [("exitCode", (e.code?.map fun code => Json.nat code.toNat).getD .null)] := rfl
  rw [hfields, List.mem_singleton] at hp
  subst hp
  cases e.code? with
  | none => exact ⟨trivial, trivial, Nat.zero_le _⟩
  | some code =>
      have hcode : code.toNat < 2 ^ 64 := code.toNat_lt.trans (by decide)
      exact ⟨Json.Number.survives_natural hcode, trivial, Nat.zero_le _⟩

/-- A patch that ends a run with the lines and the count of its buffer. -/
structure Reports (p : ResultPatch) (lines : List String) (seq : Nat) : Prop where
  logs : p.logs = some lines
  seq : p.seq = some seq
  extra : p.extra.AllReadable TaskResult.maxExtraHeight

theorem verdict_cases (log : Rolling) (e : CommandEnd) :
    ∃ extra, extra.AllReadable TaskResult.maxExtraHeight ∧
      (verdictOf log e = .success ⟨log.lines, log.seq, "", none, extra⟩ ∨
        ∃ message aborted, verdictOf log e = .failure (failureWith log message extra aborted)) := by
  cases e with
  | cancelled => exact ⟨_, Json.Object.allReadable_empty _, Or.inr ⟨_, _, rfl⟩⟩
  | ended e =>
      refine ⟨exitExtra e, readable_exitExtra e, ?_⟩
      simp only [verdictOf]
      split
      · exact Or.inl rfl
      · exact Or.inr ⟨_, _, rfl⟩

/-- Unless the task was deleted, the buffer is written, however the command ended. -/
theorem reports_verdict {log : Rolling} (hlog : log.lines.length ≤ log.seq) (e : CommandEnd)
    {watch : Watch} (hwatch : watch.reason ≠ some .deleted) :
    ∃ status p, (resolve watch (verdictOf log e)).write = some (status, p) ∧
      status.isTerminal = true ∧ Reports p log.lines log.seq := by
  have hcount : some (max log.seq log.lines.length) = some log.seq :=
    congrArg some (Nat.max_eq_left hlog)
  obtain ⟨id, reason, cancelled, vigil⟩ := watch
  obtain ⟨extra, hextra, hverdict | ⟨message, aborted, hverdict⟩⟩ := verdict_cases log e
  · rw [hverdict]
    rcases reason with _ | _ | _
    · exact ⟨_, _, rfl, rfl, rfl, rfl, hextra⟩
    · exact ⟨_, _, rfl, rfl, rfl, rfl, hextra⟩
    · exact absurd rfl hwatch
  · rw [hverdict]
    rcases reason with _ | _ | _
    · cases aborted with
      | true => exact ⟨_, _, rfl, rfl, rfl, hcount, hextra⟩
      | false => exact ⟨_, _, rfl, rfl, rfl, hcount, hextra⟩
    · exact ⟨_, _, rfl, rfl, rfl, hcount, hextra⟩
    · exact absurd rfl hwatch

theorem Reports.trimLogs {p : ResultPatch} {lines : List String} {seq : Nat}
    (h : Reports p lines seq) (hcount : lines.length ≤ seq) (window : Nat) :
    Reports (trimLogs p window) (newest window lines) seq := by
  unfold Runner.trimLogs
  rw [h.logs, h.seq]
  refine ⟨rfl, congrArg some (Nat.max_eq_left ?_), h.extra⟩
  rw [Log.length_newest]
  exact (Nat.min_le_right _ _).trans hcount

/-! ## Offering batches -/

section Offers

variable {σ : Type} (perform : σ → Moment → (r : Request) → Step σ r.Answer) (id : TaskId)

/-- Offers a batch to a store.  The plan says of each batch whether it is lost on the way, or when
the store gets it. -/
def offerTo (window : Nat) (batch : List String) :
    σ × List (Option Moment) → σ × List (Option Moment)
  | (s, some moment :: plan) => ((perform s moment (.append id batch window)).store, plan)
  | (s, none :: plan) => (s, plan)
  | (s, []) => (s, [])

/-- A store that takes the last patch of a run. -/
def FinalizesLog (Holds : σ → Snapshot → Prop) : Prop :=
  ∀ s moment shown p lines seq status, Holds s shown → status.isTerminal = true →
    Reports p lines seq → max (max seq shown.seq) lines.length < counterBound →
    (perform s moment (.finalize id p status)).result = (.ok () : Except Fault Unit) ∧
      Holds (perform s moment (.finalize id p status)).store
        ⟨lines, max (max seq shown.seq) lines.length⟩

variable {perform id} {Holds : σ → Snapshot → Prop} {s : σ} {shown : Snapshot}
  {batches : List (List String)}

/-- A store counts no more lines than it was offered. -/
theorem holds_offered (hkeeps : Log.KeepsLog perform id Holds) (hholds : Holds s shown)
    (hfits : shown.seq + batches.flatten.length < counterBound) (window : Nat)
    (plan : List (Option Moment)) :
    ∃ after, Holds (batches.foldl (fun s batch => offerTo perform id window batch s) (s, plan)).1
        after ∧ after.seq ≤ shown.seq + batches.flatten.length := by
  induction batches generalizing s shown plan with
  | nil => exact ⟨shown, hholds, Nat.le_refl _⟩
  | cons batch rest ih =>
      rw [List.flatten_cons, List.length_append] at hfits ⊢
      have hlost : ∀ plan', ∃ after, Holds
          (rest.foldl (fun s batch => offerTo perform id window batch s) (s, plan')).1 after ∧
            after.seq ≤ shown.seq + (batch.length + rest.flatten.length) := by
        intro plan'
        obtain ⟨after, hafter, hle⟩ := ih hholds (by omega) plan'
        exact ⟨after, hafter, by omega⟩
      match plan with
      | [] => exact hlost []
      | none :: plan => exact hlost plan
      | some moment :: plan =>
          obtain ⟨next, hpush⟩ := Snapshot.push_isSome
            (show shown.seq + batch.length < counterBound by omega) window
          have hseq : next.seq = shown.seq + batch.length := Snapshot.seq_of_push hpush
          obtain ⟨-, hnext⟩ := hkeeps.appends s moment shown batch window next hholds hpush
          obtain ⟨after, hafter, hle⟩ := ih hnext (by omega) plan
          exact ⟨after, hafter, by omega⟩

/-- A store that loses nothing shows the newest lines and counts them all. -/
theorem holds_all_offered {window : Nat} {plan : List (Option Moment)}
    (hkeeps : Log.KeepsLog perform id Holds) (hholds : Holds s shown)
    (hwindow : shown.lines.length ≤ clampWindow window)
    (hfits : shown.seq + batches.flatten.length < counterBound)
    (hplan : ∀ entry ∈ plan, entry.isSome) (hlength : batches.length ≤ plan.length) :
    Holds (batches.foldl (fun s batch => offerTo perform id window batch s) (s, plan)).1
      ⟨newest (clampWindow window) (shown.lines ++ batches.flatten),
        shown.seq + batches.flatten.length⟩ := by
  induction batches generalizing s shown plan with
  | nil => simpa [Log.newest_of_length_le hwindow] using hholds
  | cons batch rest ih =>
      rw [List.flatten_cons, List.length_append] at hfits ⊢
      match plan with
      | [] => exact absurd hlength (Nat.not_succ_le_zero _)
      | none :: plan => exact absurd (hplan none List.mem_cons_self) (by simp)
      | some moment :: plan =>
          have hcount : batch = [] ∨ shown.seq + batch.length < counterBound := by omega
          have hpush : shown.push? batch window =
              some ⟨newest (clampWindow window) (shown.lines ++ batch),
                shown.seq + batch.length⟩ := if_pos hcount
          obtain ⟨-, hnext⟩ := hkeeps.appends s moment shown batch window _ hholds hpush
          have hrest := @ih _ _ plan hnext
            (by rw [Log.length_newest]; exact Nat.min_le_left _ _)
            (by rw [Nat.add_assoc]; exact hfits)
            (fun entry hentry => hplan entry (List.mem_cons_of_mem _ hentry))
            (Nat.le_of_succ_le_succ hlength)
          rw [Log.newest_newest_append, List.append_assoc, Nat.add_assoc] at hrest
          exact hrest

variable (perform id Holds) in
/-- What a run leaves of the lines of its command, whatever the plan has lost of them. -/
structure Recovers (config : Config) (timing : Timing) (t : Task) (watch : Watch)
    (batches : List (List String)) (plan : List (Option Moment)) (e : CommandEnd) (s : σ)
    (c : Closing) : Prop where
  /-- The run goes on to write its result. -/
  writes : Stage.settled config timing t
      ⟨(stream (offerTo perform id config.logWindow) config.logWindow batches e (s, plan)).1,
        watch⟩ = .writing c
  task : c.task = t.id
  /-- Once that is written, the newest lines are stored, and all lines are counted. -/
  stored : ∀ moment,
    let after := (stream (offerTo perform id config.logWindow) config.logWindow batches e
      (s, plan)).2.1
    (perform after moment (.finalize c.task c.patch c.status)).result =
        (.ok () : Except Fault Unit) ∧
      Holds (perform after moment (.finalize c.task c.patch c.status)).store
        ⟨newest config.logWindow batches.flatten, batches.flatten.length⟩
  /-- If no batch is lost, the store shows the same before. -/
  unchanged : (∀ entry ∈ plan, entry.isSome) → batches.length ≤ plan.length →
    Holds (stream (offerTo perform id config.logWindow) config.logWindow batches e (s, plan)).2.1
      ⟨newest config.logWindow batches.flatten, batches.flatten.length⟩

theorem recovers (hkeeps : Log.KeepsLog perform id Holds)
    (hfinal : FinalizesLog perform id Holds) (hholds : Holds s .empty) {config : Config}
    (hwindow : 1 ≤ config.logWindow) (timing : Timing) {t : Task} (hid : t.id = id)
    {watch : Watch} (hwatch : watch.reason ≠ some .deleted)
    (hfits : batches.flatten.length < counterBound) (plan : List (Option Moment))
    (e : CommandEnd) :
    ∃ c, Recovers perform id Holds config timing t watch batches plan e s c := by
  have hclamp : clampWindow config.logWindow = config.logWindow := Nat.max_eq_left hwindow
  have hlog := collect_eq config.logWindow batches
  rw [hclamp] at hlog
  have hshort : (newest config.logWindow batches.flatten).length ≤ batches.flatten.length := by
    rw [Log.length_newest]
    exact Nat.min_le_right _ _
  have hzero : Snapshot.empty.seq + batches.flatten.length = batches.flatten.length :=
    Nat.zero_add _
  have hstart : Snapshot.empty.seq + batches.flatten.length < counterBound := hzero.trans_lt hfits
  have hcovered : (collect config.logWindow batches).lines.length ≤
      (collect config.logWindow batches).seq := by
    rw [hlog]
    exact hshort
  obtain ⟨status, p, hwrite, hterminal, hreports⟩ := reports_verdict hcovered e hwatch
  have htrimmed := hreports.trimLogs hcovered config.logWindow
  have htwice : newest config.logWindow (newest config.logWindow batches.flatten) =
      newest config.logWindow batches.flatten :=
    Log.newest_of_length_le (by rw [Log.length_newest]; exact Nat.min_le_left _ _)
  rw [hlog] at htrimmed
  simp only [htwice] at htrimmed
  refine ⟨⟨t.id, resolve watch (verdictOf (collect config.logWindow batches) e),
    trimLogs p config.logWindow, status, .none⟩, ?_, rfl, ?_, ?_⟩
  · unfold Stage.settled stream
    simp only [hwrite]
  · intro moment
    obtain ⟨after, hafter, hle⟩ := holds_offered hkeeps hholds hstart config.logWindow plan
    rw [hzero] at hle
    have hcount : max (max batches.flatten.length after.seq)
        (newest config.logWindow batches.flatten).length = batches.flatten.length := by omega
    have h := hfinal _ moment after _ _ _ status hafter hterminal htrimmed
      (by rw [hcount]; exact hfits)
    rw [hcount] at h
    rw [hid]
    exact h
  · intro hplan hlength
    have hempty : Snapshot.empty.lines.length ≤ clampWindow config.logWindow := Nat.zero_le _
    have h := holds_all_offered hkeeps hholds hempty hstart hplan hlength
    rw [hclamp, hzero] at h
    exact h

end Offers

/-! ## The two stores -/

theorem Reports.applyFinal {p : ResultPatch} {lines : List String} {seq : Nat}
    (h : Reports p lines seq) (result : TaskResult) :
    (result.applyFinal p).snapshot = ⟨lines, max (max seq result.snapshot.seq) lines.length⟩ := by
  unfold TaskResult.applyFinal TaskResult.apply TaskResult.snapshot
  simp only [h.logs, h.seq, Option.getD_some]

/-- A store in memory takes the last patch of a run. -/
theorem finalize_held_memory {id : TaskId} {m : Memory} {shown : Snapshot}
    (hheld : Log.HeldInMemory id m shown) (moment : Moment) (p : ResultPatch) {status : Status}
    (hterminal : status.isTerminal = true) :
    ∃ r : TaskResult, r.snapshot = shown ∧ (m.finalize moment id p status).result = .ok () ∧
      Log.HeldInMemory id (m.finalize moment id p status).store (r.applyFinal p).snapshot := by
  obtain ⟨hopen, t, hfind, rfl⟩ := hheld
  have hnext := Log.held_replace (u := { t with
    result := t.result.applyFinal p, status := status, updatedAt := moment.now }) hopen hfind
    (Memory.mem_of_find hfind).2
  rw [Memory.finalize_eq_modify _ _ _ _ hterminal, Memory.modify_of_find hopen hfind rfl]
  exact ⟨t.result, rfl, rfl, hnext⟩

/-- A table takes the last patch of a run if what it leaves can be read again. -/
theorem finalize_held_table {id : TaskId} {t : Table} {shown : Snapshot}
    (hheld : Log.HeldInTable id t shown) (moment : Moment) {p : ResultPatch} {status : Status}
    (hterminal : status.isTerminal = true)
    (hextra : p.extra.AllReadable TaskResult.maxExtraHeight)
    (hfits : ∀ r : TaskResult, r.snapshot = shown → (r.applyFinal p).seq < counterBound) :
    ∃ r : TaskResult, r.snapshot = shown ∧ (t.finalize moment id p status).result = .ok () ∧
      Log.HeldInTable id (t.finalize moment id p status).store (r.applyFinal p).snapshot := by
  obtain ⟨rows, row, result, hrows, hfind, hread, hstorable, rfl⟩ := hheld
  have hstored : (result.applyFinal p).Storable :=
    hstorable.applyFinal hextra (hfits result rfl)
  have hnext := Log.held_replaceRow (b := { row with
    result := (result.applyFinal p).encode.compact
    status := status.name
    updatedAt := moment.now.stamp }) hfind (Table.id_of_find hfind).2
    (Row.resultOf_compact hstored) hstored
  rw [Table.finalize, if_pos hterminal, Table.modify_of_find hrows hfind hread rfl]
  exact ⟨result, rfl, rfl, hnext⟩

theorem finalizesLog_memory (id : TaskId) :
    FinalizesLog Memory.perform id (Log.HeldInMemory id) := by
  intro m moment shown p lines seq status hheld hterminal hp _
  obtain ⟨r, rfl, hok, hnext⟩ := finalize_held_memory hheld moment p hterminal
  rw [hp.applyFinal] at hnext
  exact ⟨hok, hnext⟩

theorem finalizesLog_table (id : TaskId) :
    FinalizesLog Table.perform id (Log.HeldInTable id) := by
  intro t moment shown p lines seq status hheld hterminal hp hfits
  have hcount : ∀ r : TaskResult, r.snapshot = shown → (r.applyFinal p).seq < counterBound := by
    rintro r rfl
    exact (congrArg Snapshot.seq (hp.applyFinal r)).trans_lt hfits
  obtain ⟨r, rfl, hok, hnext⟩ := finalize_held_table hheld moment hterminal hp.extra hcount
  rw [hp.applyFinal] at hnext
  exact ⟨hok, hnext⟩

/-- In both stores a run leaves the newest lines of its command and the count of all of them,
whichever batches were lost, however they were cut, and however the command ended. -/
theorem log_recovers (t : Task) (config : Config) (timing : Timing) (watch : Watch)
    (batches : List (List String)) (plan : List (Option Moment)) (e : CommandEnd)
    (hwindow : 1 ≤ config.logWindow) (hwatch : watch.reason ≠ some .deleted)
    (hfits : batches.flatten.length < counterBound) :
    (∀ store, Log.HeldInMemory t.id store .empty →
        ∃ c, Recovers Memory.perform t.id (Log.HeldInMemory t.id) config timing t watch batches
          plan e store c) ∧
      ∀ store, Log.HeldInTable t.id store .empty →
        ∃ c, Recovers Table.perform t.id (Log.HeldInTable t.id) config timing t watch batches
          plan e store c :=
  ⟨fun _ hheld => recovers (Log.keepsLog_memory t.id) (finalizesLog_memory t.id) hheld hwindow
      timing rfl hwatch hfits plan e,
    fun _ hheld => recovers (Log.keepsLog_table t.id) (finalizesLog_table t.id) hheld hwindow
      timing rfl hwatch hfits plan e⟩

/-- The first of two batches is lost, and the command fails. -/
theorem log_recovers_lostBatch :
    let t := Task.ofNew ⟨none, "push", .object []⟩ ⟨1⟩ Store.firstMoment.created
    let config := { Config.standard with logWindow := 2 }
    let run := stream (offerTo Memory.perform t.id 2) 2 [["a"], ["b", "c"]] (.ended (.exited 1))
      (Log.freshStore, [none, some Store.firstMoment])
    Log.HeldInMemory t.id Log.freshStore .empty ∧ 1 ≤ config.logWindow ∧
      Log.HeldInMemory t.id run.2.1 ⟨["b", "c"], 2⟩ ∧
      ∃ c : Closing, Stage.settled config ⟨0, 0⟩ t ⟨run.1, .start t.id⟩ = .writing c ∧
        Log.HeldInMemory t.id
          (Memory.perform run.2.1 Store.firstMoment (.finalize c.task c.patch c.status)).store
          ⟨["b", "c"], 3⟩ := by
  intro t config run
  have hheld : Log.HeldInMemory t.id Log.freshStore .empty := ⟨rfl, _, rfl, rfl⟩
  have hwatch : (Watch.start t.id).reason ≠ some .deleted := by decide
  obtain ⟨c, hc⟩ := (log_recovers t config ⟨0, 0⟩ (.start t.id) [["a"], ["b", "c"]]
    [none, some Store.firstMoment] (.ended (.exited 1)) (by decide) hwatch (by decide)).1 _ hheld
  exact ⟨hheld, by decide, ⟨rfl, _, rfl, rfl⟩, c, hc.writes, (hc.stored Store.firstMoment).2⟩

end Shell

end TaskQueue
