import Mathlib.Tactic
import TaskQueue.Proofs.LawfulHistory
import TaskQueue.Runner.Stage

/-!
# A run among the requests of others

While a task runs, its runner makes requests of the store, and so do others.  The steps of the run,
the looks of its watch and the requests of others come in any order.  A request of the run may go
astray before it reaches the store or after it; the executor and the hooks may answer anything.
-/

namespace TaskQueue.Runner

open Execution (Verdict Watch)
open Store (Event Moment Request Step View)

variable {σ : Type}

/-- A run and the store in which it takes place. -/
structure Scene (σ : Type) where
  store : σ
  /-- None when the run is over. -/
  stage : Option Stage
  /-- The watch that is kept while the task is executed. -/
  watch : Watch

/-- What a step does to the store, and who does it. -/
inductive Deed (σ : Type) where
  /-- A step of the run; none if it does not reach the store. -/
  | own (event : Option (Event σ))
  | other (event : Event σ)

def Deed.event? : Deed σ → Option (Event σ)
  | .own event => event
  | .other event => some event

section Steps

variable (perform : σ → Moment → (r : Request) → Step σ r.Answer)

/-- What the run hears of a request, and what happens in the store. -/
inductive Requested (store : σ) (r : Request) :
    Except Fault r.Answer → Option (Event σ) → Prop where
  | answered (moment : Moment) :
    Requested store r (perform store moment r).result
      (some (.ofStep store moment r (perform store moment r)))
  | lost (moment : Moment) (fault : Fault) :
    Requested store r (.error fault) (some (.ofStep store moment r (perform store moment r)))
  | astray (fault : Fault) : Requested store r (.error fault) none

/-- What a call of the run is answered with, and what happens in the store. -/
inductive Answered (s : Scene σ) : (c : Call) → c.Reply → Option (Event σ) → Prop where
  | onStart (t : Task) (reply : HookReply) : Answered s (.onStart t) reply none
  | reset (id : TaskId) {reply : Except Fault Unit} {event : Option (Event σ)}
      (h : Requested perform s.store (.patch id .runReset) reply event) :
    Answered s (.reset id) reply event
  | execute (t : Task) (verdict : Verdict) :
    Answered s (.execute t) (⟨verdict, s.watch⟩ : Executed) none
  | finalize (id : TaskId) (p : ResultPatch) (status : Status) {reply : Except Fault Unit}
      {event : Option (Event σ)}
      (h : Requested perform s.store (.finalize id p status) reply event) :
    Answered s (.finalize id p status) reply event
  | wait (d : Time.Duration) : Answered s (.wait d) () none
  | onFinish (f : Finish) (reply : HookReply) : Answered s (.onFinish f) reply none

def storeAfter (store : σ) (event : Option (Event σ)) : σ :=
  (event.map Event.after).getD store

/-- The watch of the next stage; an execution starts with a new one. -/
def watchAt (w : Watch) : Option Stage → Watch
  | some (.executing t) => .start t.id
  | _ => w

/-- One step of a run of the task, or a request of somebody else, who neither finalizes the task nor
creates it anew. -/
inductive Progress (V : View σ ρ ω) (config : Config) (id : TaskId) :
    Scene σ → Deed σ → Scene σ → Prop where
  | run (s : Scene σ) {stage : Stage} (timing : Timing) (reply : stage.call.Reply)
      {event : Option (Event σ)} (hstage : s.stage = some stage)
      (hreply : Answered perform s stage.call reply event) :
    Progress V config id s (.own event)
      ⟨storeAfter s.store event, (stage.next config timing reply).1,
        watchAt s.watch (stage.next config timing reply).1⟩
  | poll (s : Scene σ) {t : Task} {answer : Except Fault (Option ControlState)}
      {event : Option (Event σ)} (hstage : s.stage = some (.executing t))
      (hvigil : s.watch.vigil = .watching)
      (hanswer : Requested perform s.store (.control t.id) answer event) :
    Progress V config id s (.own event)
      { s with store := storeAfter s.store event, watch := (s.watch.poll answer).1 }
  | other (s : Scene σ) (moment : Moment) (r : Request)
      (hfinal : ∀ p status, r ≠ .finalize id p status) (hnew : r.newId? moment ≠ some id)
      (hfresh : ∀ j, r.newId? moment = some j → V.find? s.store j = none) :
    Progress V config id s (.other (.ofStep s.store moment r (perform s.store moment r)))
      { s with store := (perform s.store moment r).store }

inductive Path (V : View σ ρ ω) (config : Config) (id : TaskId) :
    Scene σ → List (Deed σ) → Scene σ → Prop where
  | refl (s : Scene σ) : Path V config id s [] s
  | cons {s t u : Scene σ} {d : Deed σ} {l : List (Deed σ)}
      (hstep : Progress perform V config id s d t) (hrest : Path V config id t l u) :
    Path V config id s (d :: l) u

end Steps

def IsOwn : Request → Prop
  | .patch _ _ | .finalize _ _ _ | .control _ => True
  | _ => False

theorem IsOwn.newId_eq {r : Request} (h : IsOwn r) (moment : Moment) : r.newId? moment = none := by
  cases r with
  | patch id p | finalize id p status | control id => rfl
  | _ => exact h.elim

theorem IsOwn.effect_ne_claimed {r : Request} (h : IsOwn r) (result : Except Fault r.Answer)
    (id : TaskId) : r.effect result ≠ .claimed id := by
  cases r with
  | patch j p | finalize j p status | control j => cases result <;> exact Store.Effect.noConfusion
  | _ => exact h.elim

theorem IsOwn.effect_ne_paused {r : Request} (h : IsOwn r) (result : Except Fault r.Answer)
    (id : TaskId) : r.effect result ≠ .paused id := by
  cases r with
  | patch j p | finalize j p status | control j => cases result <;> exact Store.Effect.noConfusion
  | _ => exact h.elim

variable {perform : σ → Moment → (r : Request) → Step σ r.Answer}

theorem Requested.event_eq {store : σ} {r : Request} {reply : Except Fault r.Answer}
    {event : Option (Event σ)} (h : Requested perform store r reply event) :
    event = none ∨ ∃ moment, event = some (.ofStep store moment r (perform store moment r)) := by
  cases h with
  | answered moment => exact Or.inr ⟨moment, rfl⟩
  | lost moment fault => exact Or.inr ⟨moment, rfl⟩
  | astray fault => exact Or.inl rfl

theorem Answered.event_eq {s : Scene σ} {c : Call} {reply : c.Reply} {event : Option (Event σ)}
    (h : Answered perform s c reply event) :
    event = none ∨ ∃ moment r, IsOwn r ∧
      event = some (.ofStep s.store moment r (perform s.store moment r)) := by
  cases h with
  | reset id h =>
      rcases h.event_eq with h | ⟨moment, h⟩
      · exact Or.inl h
      · exact Or.inr ⟨moment, .patch id .runReset, trivial, h⟩
  | finalize id p status h =>
      rcases h.event_eq with h | ⟨moment, h⟩
      · exact Or.inl h
      · exact Or.inr ⟨moment, .finalize id p status, trivial, h⟩
  | _ => exact Or.inl rfl

variable {V : View σ ρ ω} {config : Config} {id : TaskId} {s t : Scene σ} {d : Deed σ}

theorem Progress.store_eq (h : Progress perform V config id s d t) :
    t.store = storeAfter s.store d.event? := by
  cases h <;> rfl

/-- Of the run come only requests of its own. -/
theorem Progress.own_event (h : Progress perform V config id s d t) {event : Option (Event σ)}
    (hown : d = .own event) :
    event = none ∨ ∃ moment r, IsOwn r ∧
      event = some (.ofStep s.store moment r (perform s.store moment r)) := by
  cases h with
  | run timing reply hstage hreply =>
      cases hown
      exact hreply.event_eq
  | poll hstage hvigil hanswer =>
      cases hown
      rcases hanswer.event_eq with h | ⟨moment, h⟩
      · exact Or.inl h
      · exact Or.inr ⟨moment, .control _, trivial, h⟩
  | other moment r hfinal hnew hfresh => cases hown

end TaskQueue.Runner
