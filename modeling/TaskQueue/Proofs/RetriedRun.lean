import Mathlib.Tactic
import TaskQueue.Proofs.MemoryLifecycle
import TaskQueue.Proofs.RunRequests
import TaskQueue.Proofs.TableLifecycle

/-!
# A retry during a run

A task that is paused and put back into the queue while its run is still going on stays queued
exactly until the run writes its result, for that write does not look at the status that it
replaces.  A run that has nothing left to write leaves the task alone.
-/

namespace TaskQueue.Runner

open Execution (Watch)
open Store (Event Memory Moment Request Row Step Table View)

variable {σ ρ ω : Type} {V : View σ ρ ω}
  {perform : σ → Moment → (r : Request) → Step σ r.Answer} {Inv : σ → Prop}
  {Slips : σ → Moment → Request → Prop} {config : Config} {id : TaskId} {s t : Scene σ}
  {d : Deed σ} {l : List (Deed σ)}

/-- Whether the task is queued, as long as it is there. -/
def Kept (V : View σ ρ ω) (id : TaskId) (store : σ) : Prop :=
  ∀ a, V.find? store id = some a → V.status a = some .queued

/-- Whether the task is queued after every step. -/
def Stays (V : View σ ρ ω) (id : TaskId) (l : List (Deed σ)) : Prop :=
  ∀ d ∈ l, ∀ e, d.event? = some e → Kept V id e.after

/-- Whether the step is a write of the run that ends the task. -/
def FinalWrite (id : TaskId) (d : Deed σ) : Prop :=
  ∃ e status, d = .own (some e) ∧ e.effect = .finalized id status

/-- Whether the step is a claim, a pause or a deletion of the task by others, or one in which the
store itself slips. -/
def Releases (Slips : σ → Moment → Request → Prop) (id : TaskId) (d : Deed σ) : Prop :=
  ∃ e, d = .other e ∧
    (e.effect = .claimed id ∨ e.effect = .paused id ∨ e.effect = .deleted id ∨
      Slips e.before e.moment e.request)

/-! ## What every step keeps -/

/-- The stages of a run of the task: a result that is to be written ends it. -/
def Stage.IsOf (id : TaskId) : Stage → Prop
  | .starting t | .resetting t | .executing t => t.id = id
  | .writing c | .waiting _ c => c.task = id ∧ c.status.isTerminal = true
  | .finishing f => f.task = id

theorem isOf_settled (config : Config) (timing : Timing) (t : Task) (e : Executed) :
    (Stage.settled config timing t e).IsOf t.id := by
  have hterminal : ∀ status p, (resolve e.watch e.verdict).write = some (status, p) →
      status.isTerminal = true := by
    intro status p hwrite
    unfold resolve at hwrite
    split at hwrite <;> cases hwrite <;> rfl
  unfold Stage.settled
  simp only
  split
  · exact rfl
  · rename_i status p hwrite
    exact ⟨rfl, hterminal status p hwrite⟩

theorem isOf_attempted (timing : Timing) {c : Closing} (htask : c.task = id)
    (hstatus : c.status.isTerminal = true) (p : Execution.Persisting) :
    (Stage.attempted timing c p).IsOf id := by
  unfold Stage.attempted
  split
  · exact ⟨htask, hstatus⟩
  · exact htask
  · exact htask

theorem isOf_next {timing : Timing} {stage next : Stage} {reply : stage.call.Reply}
    (hstage : stage.IsOf id) (hnext : (stage.next config timing reply).1 = some next) :
    next.IsOf id := by
  cases stage with
  | starting t =>
      cases hnext
      exact hstage
  | resetting t =>
      rcases reply with (e | detail) | _
      · cases hnext
        exact hstage
      · cases hnext
      · cases hnext
        exact hstage
  | executing t =>
      cases hnext
      rw [← (show t.id = id from hstage)]
      exact isOf_settled config timing t reply
  | writing c =>
      rcases reply with (e | detail) | _
      · cases hnext
        exact isOf_attempted timing hstage.1 hstage.2 _
      · cases hnext
      · cases hnext
        exact isOf_attempted timing hstage.1 hstage.2 _
  | waiting delay c =>
      cases hnext
      exact hstage
  | finishing f => cases hnext

theorem isOf_of_path (hpath : Path perform V config id s l t)
    (hs : ∀ stage, s.stage = some stage → stage.IsOf id) :
    ∀ stage, t.stage = some stage → stage.IsOf id := by
  induction hpath with
  | refl s => exact hs
  | cons hstep hrest ih =>
      apply ih
      cases hstep with
      | run timing reply hstage hreply =>
          intro next hnext
          exact isOf_next (hs _ hstage) hnext
      | poll hstage hvigil hanswer => exact hs
      | other moment r hfinal hnew hfresh => exact hs

theorem Progress.inv (hbehaves : V.Behaves perform Inv Slips) (hinv : Inv s.store)
    (h : Progress perform V config id s d t) : Inv t.store := by
  cases d with
  | own event =>
      rw [h.store_eq]
      rcases h.own_event rfl with hnone | ⟨moment, r, hown, hsome⟩
      · rw [hnone]
        exact hinv
      · rw [hsome]
        refine hbehaves.keeps s.store moment r hinv ?_
        intro j hj
        rw [hown.newId_eq] at hj
        cases hj
  | other e =>
      cases h with
      | other moment r hfinal hnew hfresh => exact hbehaves.keeps s.store moment r hinv hfresh

theorem inv_of_path (hbehaves : V.Behaves perform Inv Slips) (hinv : Inv s.store)
    (hpath : Path perform V config id s l t) : Inv t.store := by
  induction hpath with
  | refl s => exact hinv
  | cons hstep hrest ih => exact ih (hstep.inv hbehaves hinv)

/-! ## Single steps -/

theorem kept_of_lawful {e : Event σ} (hlaw : V.Lawful e) (hkept : Kept V id e.before)
    (hcreated : e.effect ≠ .created id) (hclaimed : e.effect ≠ .claimed id)
    (hpaused : e.effect ≠ .paused id) (hfinal : ∀ status, e.effect ≠ .finalized id status) :
    Kept V id e.after := by
  intro b hb
  cases ha : V.find? e.before id with
  | none => exact absurd (hlaw.appears id b ha hb) hcreated
  | some a =>
      have hqueued := hkept a ha
      by_contra hne
      have hstatus : V.status a ≠ V.status b := by
        rw [hqueued]
        exact fun h => hne h.symm
      rcases View.transition_of_change (hlaw.change id a b ha hb).2 hstatus with
        h | h | h | ⟨status, _, _, h⟩
      · exact hclaimed h.2.2
      · exact hpaused h.2.2
      · rw [hqueued] at h
        simp at h
      · exact hfinal status h

theorem not_kept_of_final {e : Event σ} (hlaw : V.Lawful e) {status : Status}
    (hfinal : e.effect = .finalized id status) : ¬Kept V id e.after := by
  intro hkept
  have hsubject : e.effect.subject? = some id := by
    rw [hfinal]
    rfl
  obtain ⟨a, ha⟩ := hlaw.found id hsubject (by rw [hfinal]; simp)
  obtain ⟨b, hb⟩ := hlaw.kept id a ha hsubject (by rw [hfinal]; simp)
  have hchange := (hlaw.change id a b ha hb).2
  rw [Store.Effect.on_self hsubject, hfinal] at hchange
  have hqueued := hkept b hb
  rw [hchange.2.1] at hqueued
  cases hqueued
  cases hchange.1

theorem request_of_final {r : Request} {result : Except Fault r.Answer} {status : Status}
    (h : r.effect result = .finalized id status) : ∃ p, r = .finalize id p status := by
  cases r with
  | finalize j p status' =>
      cases result with
      | error f => cases h
      | ok _ =>
          cases h
          exact ⟨p, rfl⟩
  | claim limit time | pause j | retry j | archive j archived | delete j =>
      cases result with
      | error f => cases h
      | ok a => cases a <;> cases h
  | _ => cases result <;> cases h

/-- What a step does in the store is lawful, unless the store slips. -/
theorem Progress.lawful (hbehaves : V.Behaves perform Inv Slips)
    (hquiet : ∀ s moment r, IsOwn r → ¬Slips s moment r) (hinv : Inv s.store)
    (h : Progress perform V config id s d t) (hrelease : ¬Releases Slips id d) {e : Event σ}
    (hevent : d.event? = some e) :
    e.before = s.store ∧ e.after = t.store ∧ V.Lawful e ∧ e.effect ≠ .created id := by
  have hstore := h.store_eq
  cases d with
  | own event =>
      change event = some e at hevent
      subst hevent
      rcases h.own_event rfl with hnone | ⟨moment, r, hown, hsome⟩
      · cases hnone
      · cases hsome
        have hnew := hown.newId_eq moment
        have hfresh : ∀ j, r.newId? moment = some j → V.find? s.store j = none := by
          intro j hj
          rw [hnew] at hj
          cases hj
        refine ⟨rfl, hstore.symm,
          hbehaves.lawful s.store moment r hinv hfresh (hquiet _ _ _ hown), ?_⟩
        intro hcreated
        have hid := hbehaves.creates s.store moment r id hcreated
        rw [hnew] at hid
        cases hid
  | other e' =>
      cases hevent
      cases h with
      | other moment r hfinal hnew hfresh =>
          have hslips : ¬Slips s.store moment r := fun hslips =>
            hrelease ⟨_, rfl, Or.inr (Or.inr (Or.inr hslips))⟩
          exact ⟨rfl, rfl, hbehaves.lawful s.store moment r hinv hfresh hslips,
            fun hcreated => hnew (hbehaves.creates s.store moment r id hcreated)⟩

theorem Progress.kept (hbehaves : V.Behaves perform Inv Slips)
    (hquiet : ∀ s moment r, IsOwn r → ¬Slips s moment r) (hinv : Inv s.store)
    (h : Progress perform V config id s d t) (hrelease : ¬Releases Slips id d)
    (hfinal : ¬FinalWrite id d) (hkept : Kept V id s.store) : Kept V id t.store := by
  cases hevent : d.event? with
  | none =>
      rw [h.store_eq, hevent]
      exact hkept
  | some e =>
      obtain ⟨hbefore, hafter, hlaw, hcreated⟩ := h.lawful hbehaves hquiet hinv hrelease hevent
      rw [← hafter]
      rw [← hbefore] at hkept
      cases d with
      | own event =>
          change event = some e at hevent
          subst hevent
          rcases h.own_event rfl with hnone | ⟨moment, r, hown, hsome⟩
          · cases hnone
          · cases hsome
            exact kept_of_lawful hlaw hkept hcreated (hown.effect_ne_claimed _ id)
              (hown.effect_ne_paused _ id) fun status hstatus => hfinal ⟨_, status, rfl, hstatus⟩
      | other e' =>
          cases hevent
          refine kept_of_lawful hlaw hkept hcreated (fun h => hrelease ⟨e, rfl, Or.inl h⟩)
            (fun h => hrelease ⟨e, rfl, Or.inr (Or.inl h)⟩) ?_
          intro status hstatus
          cases h with
          | other moment r hrequest hnew hfresh =>
              obtain ⟨p, hr⟩ := request_of_final hstatus
              exact hrequest p status hr

/-! ## Whole runs -/

/-- The task stays queued exactly if the run does not write its result. -/
theorem stays_iff (hbehaves : V.Behaves perform Inv Slips)
    (hquiet : ∀ s moment r, IsOwn r → ¬Slips s moment r) (hinv : Inv s.store)
    (hkept : Kept V id s.store) (hpath : Path perform V config id s l t)
    (hrelease : ∀ d ∈ l, ¬Releases Slips id d) :
    Stays V id l ↔ ∀ d ∈ l, ¬FinalWrite id d := by
  constructor
  · intro hstays
    clear hkept
    induction hpath with
    | refl s =>
        intro d hd
        cases hd
    | cons hstep hrest ih =>
        intro d hd
        rcases List.mem_cons.1 hd with hd | hd
        · rintro ⟨e, status, hown, hfinal⟩
          subst hd
          have hevent : d.event? = some e := by
            rw [hown]
            rfl
          have hlawful := hstep.lawful hbehaves hquiet hinv (hrelease d List.mem_cons_self) hevent
          exact not_kept_of_final hlawful.2.2.1 hfinal (hstays d List.mem_cons_self e hevent)
        · exact ih (hstep.inv hbehaves hinv) (fun d hd => hrelease d (List.mem_cons_of_mem _ hd))
            (fun d hd => hstays d (List.mem_cons_of_mem _ hd)) d hd
  · intro hfinal
    induction hpath with
    | refl s =>
        intro d hd
        cases hd
    | cons hstep hrest ih =>
        have hhead := hrelease _ List.mem_cons_self
        have hkept' := hstep.kept hbehaves hquiet hinv hhead (hfinal _ List.mem_cons_self) hkept
        intro d hd
        rcases List.mem_cons.1 hd with hd | hd
        · intro e he
          subst hd
          rw [(hstep.lawful hbehaves hquiet hinv hhead he).2.1]
          exact hkept'
        · exact ih (hstep.inv hbehaves hinv) hkept' (fun d hd => hrelease d (List.mem_cons_of_mem _ hd))
            (fun d hd => hfinal d (List.mem_cons_of_mem _ hd)) d hd

theorem kept_of_retry (hbehaves : V.Behaves perform Inv Slips) {store : σ} (hinv : Inv store)
    {moment : Moment}
    (hretry : (perform store moment (.retry id)).result = (.ok true : Except Fault Bool)) :
    Inv (perform store moment (.retry id)).store ∧
      Kept V id (perform store moment (.retry id)).store := by
  have hfresh : ∀ j, (Request.retry id).newId? moment = some j → V.find? store j = none := by
    intro j hj
    cases hj
  have heffect : (Event.ofStep store moment (.retry id) (perform store moment (.retry id))).effect =
      .requeued id := by
    change (Request.retry id).effect (perform store moment (.retry id)).result = _
    rw [hretry]
    rfl
  have hslips : ¬Slips store moment (.retry id) := by
    intro hslips
    rw [hbehaves.silent store moment _ hslips] at heffect
    cases heffect
  have hlaw := hbehaves.lawful store moment (.retry id) hinv hfresh hslips
  refine ⟨hbehaves.keeps store moment _ hinv hfresh, ?_⟩
  intro b hb
  obtain ⟨a, ha⟩ := hlaw.found id (by rw [heffect]; rfl) (by rw [heffect]; simp)
  have hchange := (hlaw.change id a b ha hb).2
  rw [heffect, Store.Effect.on_self rfl] at hchange
  exact hchange.2.1

/-! ## Runs with nothing left to write -/

/-- Whether the run is over, or is to end without writing its result. -/
def NothingLeft (s : Scene σ) : Prop :=
  match s.stage with
  | none | some (.finishing _) => True
  | some (.executing _) => s.watch.reason = some .deleted
  | some _ => False

theorem reason_poll {w : Watch} {reason : Execution.AbortReason} (h : w.reason = some reason)
    (answer : Except Fault (Option ControlState)) : (w.poll answer).1.reason = some reason := by
  have hrecord : ∀ r, (w.record r).2 = w := by
    intro r
    unfold Watch.record
    rw [h]
  unfold Watch.poll
  split
  · exact h
  · exact h
  · split
    · exact h
    · rw [hrecord]
      exact h

theorem settled_deleted (config : Config) (timing : Timing) (t : Task) {w : Watch}
    (verdict : Execution.Verdict) (h : w.reason = some .deleted) :
    ∃ f, Stage.settled config timing t ⟨verdict, w⟩ = .finishing f := by
  have hreason : reasonAtEnd w verdict = some .deleted := by
    unfold reasonAtEnd
    rw [h]
  have hwrite : (resolve w verdict).write = none := by
    unfold resolve
    rw [hreason]
  unfold Stage.settled
  simp only [hwrite]
  exact ⟨_, rfl⟩

theorem NothingLeft.progress (hs : NothingLeft s) (h : Progress perform V config id s d t) :
    NothingLeft t ∧ ¬FinalWrite id d := by
  cases h with
  | other moment r hfinal hnew hfresh =>
      refine ⟨hs, ?_⟩
      rintro ⟨e, status, hown, -⟩
      cases hown
  | poll hstage hvigil hanswer =>
      have hreason : s.watch.reason = some .deleted := by
        unfold NothingLeft at hs
        rw [hstage] at hs
        exact hs
      constructor
      · unfold NothingLeft
        simp only [hstage]
        exact reason_poll hreason _
      · rintro ⟨e, status, hown, hfinal⟩
        cases hown
        rcases hanswer.event_eq with hnone | ⟨moment, hsome⟩
        · cases hnone
        · cases hsome
          obtain ⟨p, hr⟩ := request_of_final hfinal
          cases hr
  | run timing reply hstage hreply =>
      rename_i stage event
      unfold NothingLeft at hs
      rw [hstage] at hs
      -- Either the write is over, or the execution ends under a watch that knows of a deletion.
      cases stage with
      | finishing f =>
          cases hreply with
          | onFinish f reply =>
              refine ⟨trivial, ?_⟩
              rintro ⟨e, status, hown, -⟩
              cases hown
      | executing t =>
          cases hreply with
          | execute t verdict =>
              obtain ⟨f, hf⟩ := settled_deleted config timing t verdict hs
              constructor
              · show NothingLeft ⟨_, some (Stage.settled config timing t ⟨verdict, s.watch⟩), _⟩
                rw [hf]
                exact trivial
              · rintro ⟨e, status, hown, -⟩
                cases hown
      | _ => exact hs.elim

theorem NothingLeft.path (hs : NothingLeft s) (h : Path perform V config id s l t) :
    ∀ d ∈ l, ¬FinalWrite id d := by
  induction h with
  | refl s =>
      intro d hd
      cases hd
  | cons hstep hrest ih =>
      obtain ⟨hnext, hfirst⟩ := hs.progress hstep
      intro d hd
      rcases List.mem_cons.1 hd with hd | hd
      · rw [hd]
        exact hfirst
      · exact ih hnext d hd

/-! ## Runs with something left to write -/

/-- A run that can write its result, with nobody else at work. -/
def CanWrite (perform : σ → Moment → (r : Request) → Step σ r.Answer) (V : View σ ρ ω)
    (config : Config) (id : TaskId) (s : Scene σ) : Prop :=
  ∃ l t, Path perform V config id s l t ∧ (∀ d ∈ l, ∃ event, d = .own event) ∧
    ∃ d ∈ l, FinalWrite id d

theorem CanWrite.step {event : Option (Event σ)}
    (hstep : Progress perform V config id s (.own event) t)
    (hwrite : CanWrite perform V config id t) : CanWrite perform V config id s := by
  obtain ⟨l, u, hpath, hown, d, hd, hfinal⟩ := hwrite
  refine ⟨.own event :: l, u, .cons hstep hpath, ?_, d, List.mem_cons_of_mem _ hd, hfinal⟩
  intro d hd
  rcases List.mem_cons.1 hd with hd | hd
  · exact ⟨event, hd⟩
  · exact hown d hd

/-- Whether the store takes the last write of any run of the task. -/
def Accepts (perform : σ → Moment → (r : Request) → Step σ r.Answer) (id : TaskId) (store : σ) :
    Prop :=
  ∀ moment p status, status.isTerminal = true →
    (perform store moment (.finalize id p status)).result = (.ok () : Except Fault Unit)

/-- An execution that succeeds is written, unless the task was found to be deleted. -/
theorem settled_success (config : Config) (t : Task) {w : Watch} (h : w.reason ≠ some .deleted) :
    ∃ c, Stage.settled config ⟨0, 0⟩ t ⟨.success (.ofLogs []), w⟩ = .writing c ∧ c.task = t.id ∧
      c.status.isTerminal = true := by
  cases hreason : w.reason with
  | none =>
      unfold Stage.settled resolve reasonAtEnd
      simp only [hreason]
      exact ⟨_, rfl, rfl, rfl⟩
  | some reason =>
      cases reason with
      | deleted => exact absurd hreason h
      | paused =>
          unfold Stage.settled resolve reasonAtEnd
          simp only [hreason]
          exact ⟨_, rfl, rfl, rfl⟩

variable (haccepts : Accepts perform id s.store)
include haccepts

theorem canWrite_writing {c : Closing} (hstage : s.stage = some (.writing c)) (htask : c.task = id)
    (hstatus : c.status.isTerminal = true) : CanWrite perform V config id s := by
  let moment : Moment := default
  let request : Request := .finalize c.task c.patch c.status
  let event : Event σ := .ofStep s.store moment request (perform s.store moment request)
  have hreply : Answered perform s (Stage.writing c).call
      (perform s.store moment request).result (some event) :=
    .finalize c.task c.patch c.status (.answered moment)
  have hstep : Progress perform V config id s (.own (some event)) _ :=
    .run s ⟨0, 0⟩ _ hstage hreply
  have hresult := haccepts moment c.patch c.status hstatus
  have hfinal : event.effect = .finalized id c.status := by
    show request.effect (perform s.store moment request).result = _
    subst htask
    rw [hresult]
    rfl
  refine ⟨[.own (some event)], _, .cons hstep (.refl _), ?_, _, List.mem_cons_self, ?_⟩
  · intro d hd
    exact ⟨_, List.mem_singleton.1 hd⟩
  · exact ⟨event, c.status, rfl, hfinal⟩

theorem canWrite_waiting {delay : Time.Duration} {c : Closing}
    (hstage : s.stage = some (.waiting delay c)) (htask : c.task = id)
    (hstatus : c.status.isTerminal = true) : CanWrite perform V config id s := by
  have hreply : Answered perform s (Stage.waiting delay c).call () none := .wait delay
  have hstep : Progress perform V config id s (.own none) ⟨s.store, some (.writing c), s.watch⟩ :=
    .run s ⟨0, 0⟩ _ hstage hreply
  exact (canWrite_writing (s := ⟨s.store, some (.writing c), s.watch⟩) haccepts rfl htask
    hstatus).step hstep

theorem canWrite_executing {task : Task} (hstage : s.stage = some (.executing task))
    (htask : task.id = id) (hreason : s.watch.reason ≠ some .deleted) :
    CanWrite perform V config id s := by
  obtain ⟨c, hc, hctask, hcstatus⟩ := settled_success config task hreason
  have hreply : Answered perform s (Stage.executing task).call
      (⟨.success (.ofLogs []), s.watch⟩ : Executed) none := .execute task _
  have hstep : Progress perform V config id s (.own none) _ :=
    .run s ⟨0, 0⟩ _ hstage hreply
  have hnext : (Stage.next config ⟨0, 0⟩ (.executing task)
      (⟨.success (.ofLogs []), s.watch⟩ : Executed)).1 = some (.writing c) := congrArg some hc
  rw [hnext] at hstep
  exact (canWrite_writing (s := ⟨s.store, some (.writing c), s.watch⟩) haccepts rfl
    (hctask.trans htask) hcstatus).step hstep

theorem canWrite_resetting {task : Task} (hstage : s.stage = some (.resetting task))
    (htask : task.id = id) : CanWrite perform V config id s := by
  have hreply : Answered perform s (Stage.resetting task).call
      (.error (.error .database) : Except Fault Unit) none :=
    .reset task.id (.astray (.error .database))
  have hstep : Progress perform V config id s (.own none)
      ⟨s.store, some (.executing task), .start task.id⟩ := .run s ⟨0, 0⟩ _ hstage hreply
  exact (canWrite_executing (s := ⟨s.store, some (.executing task), .start task.id⟩) haccepts rfl
    htask (by simp [Watch.start])).step hstep

theorem canWrite_starting {task : Task} (hstage : s.stage = some (.starting task))
    (htask : task.id = id) : CanWrite perform V config id s := by
  have hreply : Answered perform s (Stage.starting task).call HookReply.fine none :=
    .onStart task .fine
  have hstep : Progress perform V config id s (.own none)
      ⟨s.store, some (.resetting task), s.watch⟩ := .run s ⟨0, 0⟩ _ hstage hreply
  exact (canWrite_resetting (s := ⟨s.store, some (.resetting task), s.watch⟩) haccepts rfl
    htask).step hstep

/-- A run that has something left to write can write it. -/
theorem canWrite_of_left {stage : Stage} (hstage : s.stage = some stage) (hof : stage.IsOf id)
    (hleft : ¬NothingLeft s) : CanWrite perform V config id s := by
  cases stage with
  | starting task => exact canWrite_starting haccepts hstage hof
  | resetting task => exact canWrite_resetting haccepts hstage hof
  | writing c => exact canWrite_writing haccepts hstage hof.1 hof.2
  | waiting delay c => exact canWrite_waiting haccepts hstage hof.1 hof.2
  | executing task =>
      refine canWrite_executing haccepts hstage hof ?_
      intro hreason
      apply hleft
      unfold NothingLeft
      rw [hstage]
      exact hreason
  | finishing f =>
      apply (hleft _).elim
      unfold NothingLeft
      rw [hstage]
      exact trivial

end TaskQueue.Runner
