import Mathlib.Tactic
import TaskQueue.Proofs.NewestLines
import TaskQueue.Proofs.ResentWrite
import TaskQueue.Proofs.TimelessRun

/-!
# What an abort hides

A run that was told to stop does not say how its execution ended.  If the task was deleted nothing
is written; if it was paused, the parts that the execution reports are kept, but the status and the
message are those of a pause.  So two executions that differ in the message of a failure only cannot
be told apart afterwards.
-/

namespace TaskQueue

/-- A verdict without what an abort hides of it. -/
def Execution.Verdict.muted : Execution.Verdict → Execution.Verdict
  | .success o => .success o
  | .failure f => .failure { f with message := "", aborted := false }

namespace Runner

open Execution (AbortReason Failure Output Verdict Watch)
open Log (newest)
open Store (Memory Moment Request Row Step Table)

variable {config : Config} {timing timing' : Timing} {began began' : Nat} {t : Task} {w : Watch}
  {v v' : Verdict} {reason : AbortReason} {l l' : List Taken} {r r' : Option Stage} {s : Stage}

/-- Whether an execution was told to stop: a reason is recorded, or it says itself that it was
aborted, which is taken for a pause. -/
def Aborted (w : Watch) (v : Verdict) (reason : AbortReason) : Prop :=
  w.reason = some reason ∨
    w.reason = none ∧ reason = .paused ∧ ∃ f, v = .failure f ∧ f.aborted = true

/-- The patch of a paused task: the parts that are reported, trimmed to the window. -/
def pausedPart (window : Nat) : Verdict → ResultPatch
  | .success o =>
    { logs := some (newest window o.logs)
      seq := some (max o.seq (min window o.logs.length))
      output := some o.output
      providerRef := o.providerRef
      message := .set pausedMessage
      extra := o.extra }
  | .failure f =>
    { logs := f.logs.map (newest window)
      seq := f.countedSeq
      output := f.output
      providerRef := f.providerRef
      message := .set pausedMessage
      extra := f.extra }

theorem reasonAtEnd_of_aborted (h : Aborted w v reason) : reasonAtEnd w v = some reason := by
  unfold reasonAtEnd
  rcases h with hrecorded | ⟨hnone, rfl, f, rfl, haborted⟩
  · rw [hrecorded]
  · rw [hnone]
    simp [haborted, Watch.record, hnone]

theorem trimLogs_pausedPatch (window : Nat) (v : Verdict) :
    trimLogs (pausedPatch v) window = pausedPart window v := by
  cases v with
  | success o =>
      unfold trimLogs pausedPatch pausedPart
      simp [Output.patch, Log.length_newest]
  | failure f =>
      obtain ⟨message, logs, seq, output, providerRef, extra, aborted⟩ := f
      cases logs with
      | none => rfl
      | some lines =>
          unfold trimLogs pausedPatch pausedPart Failure.patch Failure.countedSeq
          simp [Log.length_newest]

def pausedClosing (config : Config) (t : Task) (v : Verdict) : Closing :=
  { task := t.id
    disposition := ⟨.paused, some (.paused, pausedPatch v), some pausedMessage, v.providerRef⟩
    patch := pausedPart config.logWindow v
    status := .paused
    attempts := .none }

theorem settled_of_deleted (h : Aborted w v .deleted) (config : Config) (timing : Timing)
    (t : Task) :
    Stage.settled config timing t ⟨v, w⟩ =
      .finishing ⟨t.id, .deleted, none, v.providerRef, timing.elapsedMs⟩ := by
  have hresolve : resolve w v = ⟨.deleted, none, none, v.providerRef⟩ := by
    unfold resolve
    rw [reasonAtEnd_of_aborted h]
  unfold Stage.settled
  simp only [hresolve]
  rfl

theorem settled_of_paused (h : Aborted w v .paused) (config : Config) (timing : Timing)
    (t : Task) :
    Stage.settled config timing t ⟨v, w⟩ = .writing (pausedClosing config t v) := by
  have hresolve : resolve w v =
      ⟨.paused, some (.paused, pausedPatch v), some pausedMessage, v.providerRef⟩ := by
    unfold resolve
    rw [reasonAtEnd_of_aborted h]
  unfold Stage.settled
  simp only [hresolve, trimLogs_pausedPatch]
  rfl

/-! ## One run -/

def Finish.Conceals (f : Finish) (t : Task) (v : Verdict) : AbortReason → Prop
  | .deleted =>
    f.task = t.id ∧ f.status = .deleted ∧ f.message = none ∧ f.providerRef = v.providerRef
  | .paused =>
    f.task = t.id ∧ (f.status = .paused ∨ f.status = .deleted) ∧
      f.message = some pausedMessage ∧ f.providerRef = v.providerRef

/-- The calls of such a run: a write is the one of a pause. -/
def Call.Conceals (config : Config) (t : Task) (v : Verdict) (reason : AbortReason) : Call → Prop
  | .finalize id p status =>
    reason = .paused ∧ id = t.id ∧ p = pausedPart config.logWindow v ∧ status = .paused
  | .wait _ => reason = .paused
  | .onFinish f => f.Conceals t v reason
  | .onStart _ | .reset _ | .execute _ => False

def Stage.Conceals (config : Config) (t : Task) (v : Verdict) (reason : AbortReason) :
    Stage → Prop
  | .writing c | .waiting _ c =>
    reason = .paused ∧ ∃ a, c = { pausedClosing config t v with attempts := a }
  | .finishing f => f.Conceals t v reason
  | .starting _ | .resetting _ | .executing _ => False

theorem conceals_settled (h : Aborted w v reason) (config : Config) (timing : Timing) (t : Task) :
    (Stage.settled config timing t ⟨v, w⟩).Conceals config t v reason := by
  cases reason with
  | deleted =>
      rw [settled_of_deleted h]
      exact ⟨rfl, rfl, rfl, rfl⟩
  | paused =>
      rw [settled_of_paused h]
      exact ⟨rfl, .none, rfl⟩

theorem Stage.Conceals.call (h : s.Conceals config t v reason) :
    s.call.Conceals config t v reason := by
  cases s with
  | starting | resetting | executing => exact h.elim
  | writing c =>
      obtain ⟨rfl, a, rfl⟩ := h
      exact ⟨rfl, rfl, rfl, rfl⟩
  | waiting d c => exact h.1
  | finishing f => exact h

theorem conceals_attempted (timing : Timing) (a : Execution.Attempts)
    (p : Execution.Persisting) :
    (Stage.attempted timing { pausedClosing config t v with attempts := a } p).Conceals config t v
      .paused := by
  rcases p with (n | n | n) | ⟨delay, b⟩
  · exact ⟨rfl, Or.inl rfl, rfl, rfl⟩
  · exact ⟨rfl, Or.inr rfl, rfl, rfl⟩
  · exact ⟨rfl, Or.inl rfl, rfl, rfl⟩
  · exact ⟨rfl, b, rfl⟩

theorem Stage.Conceals.next (h : s.Conceals config t v reason) {reply : s.call.Reply} {next : Stage}
    (hnext : (s.next config timing reply).1 = some next) : next.Conceals config t v reason := by
  cases s with
  | starting | resetting | executing => exact h.elim
  | writing c =>
      obtain ⟨rfl, a, rfl⟩ := h
      rcases reply with (e | detail) | ⟨⟩
      · cases hnext
        exact conceals_attempted timing a _
      · cases hnext
      · cases hnext
        exact conceals_attempted timing a _
  | waiting d c =>
      cases hnext
      exact h
  | finishing f => cases hnext

theorem conceals_of_advances (hadvances : Advances config began r l r')
    (h : ∀ stage, r = some stage → stage.Conceals config t v reason) :
    ∀ x ∈ l, x.stage.call.Conceals config t v reason := by
  induction hadvances with
  | refl => simp
  | cons now reply hrest ih =>
      have hstage := h _ rfl
      intro x hx
      rcases List.mem_cons.1 hx with rfl | hx
      · exact hstage.call
      · exact ih (fun next hnext => hstage.next hnext) x hx

/-! ## The stored message -/

/-- A store in which the task is paused, with the message of a pause. -/
structure StoresPause (id : TaskId) (p : ResultPatch) : Prop where
  memory : ∀ (m : Memory) (t : Task) (moment : Moment), m.poisoned = false → m.find? id = some t →
    ∃ u, (Memory.perform m moment (.finalize id p .paused)).store.find? id = some u ∧
      u.status = .paused ∧ u.result.message = some pausedMessage
  table : ∀ (t : Table) (rows : List Row) (row : Row) (result : TaskResult) (moment : Moment),
    t.rows = some rows → Table.findRow? rows id.text = some row →
    Row.resultOf? row.result = some result →
    ∃ row', Table.view.find? (Table.perform t moment (.finalize id p .paused)).store id =
        some row' ∧
      row'.status = Status.paused.name ∧ row'.result = (result.applyFinal p).encode.compact ∧
      (result.applyFinal p).message = some pausedMessage

theorem storesPause (id : TaskId) {p : ResultPatch} (hmessage : p.message = .set pausedMessage) :
    StoresPause id p := by
  have hset : ∀ result : TaskResult, (result.applyFinal p).message = some pausedMessage := by
    intro result
    unfold TaskResult.applyFinal TaskResult.apply
    rw [hmessage]
    rfl
  constructor
  · intro m t moment hopen hfind
    rw [finalize_memory_of_find rfl hopen hfind]
    exact ⟨finalized t p .paused moment,
      Memory.find_replace_self hfind (Memory.mem_of_find hfind).2, rfl, hset t.result⟩
  · intro t rows row result moment hrows hfind hread
    rw [finalize_table_of_find rfl hrows hfind hread]
    exact ⟨finalizedRow row (result.applyFinal p) .paused moment,
      Table.find_replaceRow_self hfind (Table.id_of_find hfind).2, rfl, rfl, hset result⟩

/-! ## Two runs -/

theorem providerRef_muted (v : Verdict) : v.muted.providerRef = v.providerRef := by
  cases v <;> rfl

theorem pausedClosing_muted (config : Config) (t : Task) (v : Verdict) :
    pausedClosing config t v.muted = pausedClosing config t v := by
  cases v <;> rfl

theorem timeless_settled_of_muted (h : Aborted w v reason) (h' : Aborted w v' reason)
    (hmuted : v.muted = v'.muted) (config : Config) (timing timing' : Timing) (t : Task) :
    (Stage.settled config timing t ⟨v, w⟩).timeless =
      (Stage.settled config timing' t ⟨v', w⟩).timeless := by
  cases reason with
  | deleted =>
      rw [settled_of_deleted h, settled_of_deleted h', ← providerRef_muted v,
        ← providerRef_muted v', hmuted]
      rfl
  | paused =>
      rw [settled_of_paused h, settled_of_paused h', ← pausedClosing_muted config t v,
        ← pausedClosing_muted config t v', hmuted]

/-- The time that is told at the end makes no difference to a store. -/
theorem reach_timeless {σ : Type} (perform : σ → Moment → (r : Request) → Step σ r.Answer)
    (x : σ × List (Option Moment)) (c : Call) :
    Call.reach perform x c.timeless = Call.reach perform x c := by
  cases c <;> rfl

theorem foldl_reach_congr {σ : Type} (perform : σ → Moment → (r : Request) → Step σ r.Answer)
    (x : σ × List (Option Moment))
    (h : l.map (fun x => x.stage.call.timeless) = l'.map (fun x => x.stage.call.timeless)) :
    (l.map fun x => x.stage.call).foldl (Call.reach perform) x =
      (l'.map fun x => x.stage.call).foldl (Call.reach perform) x := by
  have htimeless : ∀ l : List Taken,
      (l.map fun x => x.stage.call).foldl (Call.reach perform) x =
        (l.map fun x => x.stage.call.timeless).foldl (Call.reach perform) x := by
    intro l
    rw [List.foldl_map, List.foldl_map]
    simp only [reach_timeless]
  rw [htimeless l, htimeless l', h]

/-- Two runs that cannot be told apart but by the time that they take. -/
structure Indistinct (l l' : List Taken) (r r' : Option Stage) : Prop where
  calls : l.map (fun x => x.stage.call.timeless) = l'.map (fun x => x.stage.call.timeless)
  stage : r.map Stage.timeless = r'.map Stage.timeless
  stores : ∀ (σ : Type) (perform : σ → Moment → (r : Request) → Step σ r.Answer)
    (x : σ × List (Option Moment)),
    (l.map fun x => x.stage.call).foldl (Call.reach perform) x =
      (l'.map fun x => x.stage.call).foldl (Call.reach perform) x

/-- A run that was told to stop writes nothing but the pause of its task, with the parts that the
execution reports, and tells nothing but the message of a pause; if the task was deleted it writes
nothing at all.  Two executions that differ in the message of a failure, or in what it says about
being aborted, lead to runs that cannot be told apart. -/
theorem abort_hides_verdict (config : Config) (t : Task) (w : Watch) (v : Verdict)
    (reason : AbortReason) (h : Aborted w v reason) :
    (∀ timing began l r,
        Advances config began (some (.settled config timing t ⟨v, w⟩)) l r →
        ∀ x ∈ l, x.stage.call.Conceals config t v reason) ∧
      (reason = .paused →
        (∀ timing, (Stage.settled config timing t ⟨v, w⟩).call =
            .finalize t.id (pausedPart config.logWindow v) .paused) ∧
          StoresPause t.id (pausedPart config.logWindow v)) ∧
      ∀ v', Aborted w v' reason → v.muted = v'.muted →
        ∀ timing timing' began began' l l' r r',
          Advances config began (some (.settled config timing t ⟨v, w⟩)) l r →
          Advances config began' (some (.settled config timing' t ⟨v', w⟩)) l' r' →
          l.map Taken.response = l'.map Taken.response → Indistinct l l' r r' := by
  refine ⟨?_, ?_, ?_⟩
  · intro timing began l r hadvances
    refine conceals_of_advances hadvances ?_
    rintro stage ⟨⟩
    exact conceals_settled h config timing t
  · rintro rfl
    constructor
    · intro timing
      rw [settled_of_paused h]
      rfl
    · exact storesPause t.id (by cases v <;> rfl)
  · intro v' h' hmuted timing timing' began began' l l' r r' hadvances hadvances' hheard
    have hsettled : (some (Stage.settled config timing t ⟨v, w⟩)).map Stage.timeless =
        (some (Stage.settled config timing' t ⟨v', w⟩)).map Stage.timeless :=
      congrArg some (timeless_settled_of_muted h h' hmuted config timing timing' t)
    obtain ⟨hcalls, hstage⟩ := timeless_advances hsettled hadvances hadvances' hheard
    exact ⟨hcalls, hstage, fun σ perform x => foldl_reach_congr perform x hcalls⟩

/-- Of two failures under a recorded pause one says that it was aborted and the other does not, and
the runs take different times. -/
theorem abort_hides_verdict_paused :
    let t : Task := .ofNew ⟨none, "push", .object []⟩ ⟨1⟩ ⟨0, 0⟩
    let w : Watch := ⟨⟨1⟩, some .paused, true, .ended⟩
    let v : Verdict := .failure (.ofMessage "cancelled")
    let v' : Verdict := .failure { Failure.ofMessage "exit status 1" with aborted := true }
    let config := Config.standard
    Aborted w v .paused ∧ Aborted w v' .paused ∧ v.muted = v'.muted ∧
      ∃ l l' f f',
        Advances config 0 (some (.settled config ⟨0, 5⟩ t ⟨v, w⟩)) l (some (.finishing f)) ∧
        Advances config 0 (some (.settled config ⟨0, 7⟩ t ⟨v', w⟩)) l' (some (.finishing f')) ∧
        f.message = some pausedMessage ∧ f.elapsedMs ≠ f'.elapsedMs ∧
        Indistinct l l' (some (.finishing f)) (some (.finishing f')) := by
  intro t w v v' config
  have h : Aborted w v .paused := Or.inl rfl
  have h' : Aborted w v' .paused := Or.inl rfl
  have hwrite := Advances.cons (s := .settled config ⟨0, 5⟩ t ⟨v, w⟩) (10 ^ 6)
    (.ok () : Except Fault Unit) (@Advances.refl config 0 _)
  have hwrite' := Advances.cons (s := .settled config ⟨0, 7⟩ t ⟨v', w⟩) (2 * 10 ^ 6)
    (.ok () : Except Fault Unit) (@Advances.refl config 0 _)
  have hsame := (abort_hides_verdict config t w v .paused h).2.2 v' h' rfl _ _ _ _ _ _ _ _ hwrite
    hwrite' rfl
  exact ⟨h, h', rfl, _, _, _, _, hwrite, hwrite', rfl, by decide, hsame⟩

end Runner

end TaskQueue
