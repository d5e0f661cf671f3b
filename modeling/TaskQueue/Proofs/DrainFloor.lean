import Mathlib.Tactic
import TaskQueue.Proofs.RunRequests
import TaskQueue.Runner.Drain

/-!
# A drain at work in a store

A drain claims tasks from a store and processes them.  Meanwhile others make requests of the store,
triggers are coalesced into the drain, and the watch of the current task looks after it; all this
happens in any order.  A write or a look of the drain may fail before it reaches the store, and then
the store is as it was; a hook or an executor may answer anything.
-/

namespace TaskQueue

open Execution (Verdict Watch)
open Store (Moment Request Step)
open Time (ZonedTime)

/-- Whether a write that failed is made again. -/
def StoreError.isTransient : StoreError → Bool
  | .taskNotFound _ | .invalidStatus _ => false
  | _ => true

namespace Runner

variable {σ : Type}

structure Floor (σ : Type) where
  store : σ
  drain : Drain
  shared : Shared
  /-- The watch of the last execution. -/
  watch : Watch

inductive Act where
  /-- A pass begins or ends. -/
  | turn
  | claim (moment : Moment) (time : ZonedTime) (answer : Except Fault (Option Task))
  | call (c : Call) (reply : c.Reply)
  /-- A trigger that is coalesced. -/
  | trigger
  | poll (answer : Except Fault (Option ControlState))
  /-- A request of somebody else. -/
  | request (moment : Moment) (r : Request) (result : Except Fault r.Answer)

def Act.isDrain : Act → Bool
  | .turn | .claim _ _ _ | .call _ _ => true
  | .trigger | .poll _ | .request _ _ _ => false

/-- Whether the call writes a result and has to do so again. -/
def Call.isRefused : (c : Call) → c.Reply → Bool
  | .finalize _ _ _, (reply : Except Fault Unit) =>
    match reply with
    | .error (.error e) => e.isTransient
    | _ => false
  | _, _ => false

def Act.isRefused : Act → Bool
  | .call c reply => c.isRefused reply
  | _ => false

def Drain.stage? : Drain → Option Stage
  | .processing _ _ s => some s
  | _ => none

section Moves

variable (perform : σ → Moment → (r : Request) → Step σ r.Answer) (config : Config)

/-- What a call may be answered with, and the store afterwards. -/
inductive Called (f : Floor σ) : (c : Call) → c.Reply → σ → Prop where
  | onStart (t : Task) (reply : HookReply) : Called f (.onStart t) reply f.store
  | reset (id : TaskId) (moment : Moment) :
    Called f (.reset id) (perform f.store moment (.patch id .runReset)).result
      (perform f.store moment (.patch id .runReset)).store
  | resetFailed (id : TaskId) (e : StoreError) :
    Called f (.reset id) (.error (.error e) : Except Fault Unit) f.store
  | execute (t : Task) (verdict : Verdict) :
    Called f (.execute t) (⟨verdict, f.watch⟩ : Executed) f.store
  | finalize (id : TaskId) (p : ResultPatch) (status : Status) (moment : Moment) :
    Called f (.finalize id p status) (perform f.store moment (.finalize id p status)).result
      (perform f.store moment (.finalize id p status)).store
  | finalizeFailed (id : TaskId) (p : ResultPatch) (status : Status) {e : StoreError}
      (htransient : e.isTransient = true) :
    Called f (.finalize id p status) (.error (.error e) : Except Fault Unit) f.store
  | wait (d : Time.Duration) : Called f (.wait d) () f.store
  | onFinish (report : Finish) (reply : HookReply) : Called f (.onFinish report) reply f.store

/-- What a drain may be answered with, how this is seen, and the store afterwards. -/
inductive Answers (f : Floor σ) : (d : Drain) → d.Answer → Act → σ → Prop where
  | opening (pass : Nat) : Answers f (.opening pass) () .turn f.store
  | claiming (pass : Nat) (moment : Moment) (time : ZonedTime) :
    Answers f (.claiming pass) (perform f.store moment (.claim config.scanLimit time)).result
      (.claim moment time (perform f.store moment (.claim config.scanLimit time)).result)
      (perform f.store moment (.claim config.scanLimit time)).store
  | claimFailed (pass : Nat) (moment : Moment) (time : ZonedTime) (e : StoreError) :
    Answers f (.claiming pass) (.error (.error e) : Except Fault (Option Task))
      (.claim moment time (.error (.error e))) f.store
  | processing (pass began : Nat) {s : Stage} {reply : s.call.Reply} {store : σ}
      (hcalled : Called perform f s.call reply store) :
    Answers f (.processing pass began s) reply (.call s.call reply) store
  | ending (pass : Nat) : Answers f (.ending pass) () .turn f.store

/-- What can happen next. -/
inductive Moves (f : Floor σ) : Act → Floor σ → Prop where
  | drain {d d' : Drain} {answer : d.Answer} {act : Act} {store : σ} {shared : Shared}
      {notices : List Notice} (now : Nat) (hdrain : f.drain = d)
      (hanswer : Answers perform config f d answer act store)
      (hnext : d.next config now f.shared answer = (some d', shared, notices)) :
    Moves f act ⟨store, d', shared, watchAt f.watch d'.stage?⟩
  | trigger {shared : Shared} (hcoalesced : Drain.start f.shared = (none, shared)) :
    Moves f .trigger { f with shared := shared }
  | poll {pass began : Nat} {t : Task} (moment : Moment)
      (hdrain : f.drain = .processing pass began (.executing t))
      (hvigil : f.watch.vigil = .watching) :
    Moves f (.poll (perform f.store moment (.control t.id)).result)
      { f with
        store := (perform f.store moment (.control t.id)).store
        watch := (f.watch.poll (perform f.store moment (.control t.id)).result).1 }
  | pollFailed {pass began : Nat} {t : Task} (e : StoreError)
      (hdrain : f.drain = .processing pass began (.executing t))
      (hvigil : f.watch.vigil = .watching) :
    Moves f (.poll (.error (.error e)))
      { f with watch := (f.watch.poll (.error (.error e))).1 }
  | request (moment : Moment) (r : Request) :
    Moves f (.request moment r (perform f.store moment r).result)
      { f with store := (perform f.store moment r).store }

structure Entry (σ : Type) where
  before : Floor σ
  act : Act
  after : Floor σ

/-- What happens one after the other. -/
inductive Works : Floor σ → List (Entry σ) → Floor σ → Prop where
  | refl (f : Floor σ) : Works f [] f
  | cons {f g h : Floor σ} {act : Act} {l : List (Entry σ)} (hmove : Moves perform config f act g)
      (hrest : Works g l h) : Works f (⟨f, act, g⟩ :: l) h

end Moves

variable {perform : σ → Moment → (r : Request) → Step σ r.Answer} {config : Config}
  {f g h : Floor σ} {act : Act} {l l' : List (Entry σ)}

theorem Works.split (hworks : Works perform config f (l ++ l') h) :
    ∃ g, Works perform config f l g ∧ Works perform config g l' h := by
  induction l generalizing f with
  | nil => exact ⟨f, .refl f, hworks⟩
  | cons e l ih =>
      cases hworks with
      | cons hmove hrest =>
          obtain ⟨g, hfirst, hlast⟩ := ih hrest
          exact ⟨g, .cons hmove hfirst, hlast⟩

/-! ## What a move does to the drain -/

/-- Only the drain itself goes on; what others do leaves it where it is. -/
theorem Moves.drain_eq (hmove : Moves perform config f act g) (hact : act.isDrain = false) :
    g.drain = f.drain := by
  cases hmove with
  | drain now hdrain hanswer hnext => cases hanswer <;> cases hact
  | _ => rfl

theorem Moves.of_opening {pass : Nat} (hmove : Moves perform config f act g)
    (hdrain : f.drain = .opening pass) (hact : act.isDrain = true) :
    act = .turn ∧ g.store = f.store ∧ (g.drain, g.shared) = Drain.opened pass f.shared := by
  cases hmove with
  | drain now hd hanswer hnext =>
      rw [hdrain] at hd
      subst hd
      cases hanswer with
      | opening =>
          cases hnext
          exact ⟨rfl, rfl, rfl⟩
  | trigger | poll | pollFailed | request => cases hact

theorem Moves.of_ending {pass : Nat} (hmove : Moves perform config f act g)
    (hdrain : f.drain = .ending pass) (hact : act.isDrain = true) :
    act = .turn ∧ g.store = f.store ∧ (g.drain, g.shared) = Drain.passed pass f.shared := by
  cases hmove with
  | drain now hd hanswer hnext =>
      rw [hdrain] at hd
      subst hd
      cases hanswer with
      | ending =>
          cases hnext
          exact ⟨rfl, rfl, rfl⟩
  | trigger | poll | pollFailed | request => cases hact

/-- A drain that is over does not move. -/
theorem Moves.of_done {passes : Nat} (hmove : Moves perform config f act g)
    (hdrain : f.drain = .done passes) : act.isDrain = false := by
  cases hmove with
  | drain now hd hanswer hnext =>
      rw [hdrain] at hd
      subst hd
      cases hanswer
  | trigger | poll | pollFailed | request => rfl

/-- A drain in a stage of a task makes the call of the stage and takes in the reply. -/
theorem Moves.of_processing {pass began : Nat} {s : Stage}
    (hmove : Moves perform config f act g) (hdrain : f.drain = .processing pass began s)
    (hact : act.isDrain = true) :
    ∃ reply timing, act = .call s.call reply ∧ Called perform f s.call reply g.store ∧
      g.drain = (Drain.staged pass began f.shared (s.next config timing reply).1).1 ∧
      g.shared = (Drain.staged pass began f.shared (s.next config timing reply).1).2 ∧
      g.watch = watchAt f.watch (s.next config timing reply).1 := by
  cases hmove with
  | drain now hd hanswer hnext =>
      rw [hdrain] at hd
      subst hd
      cases hanswer with
      | processing _ _ hcalled =>
          rw [Drain.next] at hnext
          rename_i reply
          rcases hstage : s.next config ⟨began, now⟩ reply with ⟨next, reported⟩
          rw [hstage] at hnext
          refine ⟨reply, ⟨began, now⟩, rfl, hcalled, ?_⟩
          rw [hstage]
          cases next <;> cases hnext <;> exact ⟨rfl, rfl, rfl⟩
  | trigger | poll | pollFailed | request => cases hact

theorem next_claiming {now pass : Nat} {shared shared' : Shared} {d : Drain}
    {notices : List Notice} (answer : Except Fault (Option Task))
    (hnext : (Drain.claiming pass).next config now shared answer = (some d, shared', notices)) :
    (Drain.claimed pass now answer).1 = some d ∧ shared' = shared := by
  rcases answer with (e | detail) | _ | t <;> cases hnext <;> exact ⟨rfl, rfl⟩

/-- A drain that is to claim makes a claim, or has one that fails. -/
theorem Moves.of_claiming {pass : Nat} (hmove : Moves perform config f act g)
    (hdrain : f.drain = .claiming pass) (hact : act.isDrain = true) :
    ∃ moment time now answer, act = .claim moment time answer ∧
      (Drain.claimed pass now answer).1 = some g.drain ∧ g.shared = f.shared ∧
      g.watch = watchAt f.watch g.drain.stage? ∧
      ((perform f.store moment (.claim config.scanLimit time)).result = answer ∧
          (perform f.store moment (.claim config.scanLimit time)).store = g.store ∨
        g.store = f.store ∧ ∃ e, answer = .error (.error e)) := by
  cases hmove with
  | drain now hd hanswer hnext =>
      rw [hdrain] at hd
      subst hd
      cases hanswer with
      | claiming _ moment time =>
          obtain ⟨hclaimed, hshared⟩ := next_claiming _ hnext
          exact ⟨moment, time, now, _, rfl, hclaimed, hshared, rfl, Or.inl ⟨rfl, rfl⟩⟩
      | claimFailed _ moment time e =>
          obtain ⟨hclaimed, hshared⟩ := next_claiming _ hnext
          exact ⟨moment, time, now, _, rfl, hclaimed, hshared, rfl, Or.inr ⟨rfl, e, rfl⟩⟩
  | trigger | poll | pollFailed | request => cases hact

/-! ## What a call does -/

/-- Whether the call does nothing in the store. -/
def Call.isLocal : Call → Bool
  | .reset _ | .finalize _ _ _ => false
  | .onStart _ | .execute _ | .wait _ | .onFinish _ => true

theorem Called.store_eq {c : Call} {reply : c.Reply} {store : σ}
    (hcalled : Called perform f c reply store) (hlocal : c.isLocal = true) : store = f.store := by
  cases hcalled with
  | onStart | execute | wait | onFinish => rfl
  | _ => cases hlocal

theorem Called.watch_eq {t : Task} {reply : Executed} {store : σ}
    (hcalled : Called perform f (.execute t) reply store) : reply.watch = f.watch := by
  cases hcalled
  rfl

/-- A run goes on to the execution whether or not the reset is made. -/
theorem next_resetting (config : Config) (timing : Timing) (t : Task) {reply : Except Fault Unit}
    (hreply : ∀ detail, reply ≠ .error (.crash detail)) :
    ((Stage.resetting t).next config timing reply).1 = some (.executing t) := by
  rcases reply with (e | detail) | _
  · rfl
  · exact absurd rfl (hreply detail)
  · rfl

/-- Whatever the call of a stage is answered with, the drain goes on. -/
theorem moves_of_called {pass began : Nat} {s : Stage} (hdrain : f.drain = .processing pass began s)
    {reply : s.call.Reply} {store : σ} (hcalled : Called perform f s.call reply store) :
    ∃ g, Moves perform config f (.call s.call reply) g :=
  ⟨_, .drain 0 hdrain (.processing pass began hcalled) rfl⟩

/-! ## The length of a run -/

/-- The number of calls that a stage has ahead of it, if no write is refused. -/
def Stage.callsAhead : Option Stage → Nat
  | none => 0
  | some (.starting _) => 5
  | some (.resetting _) => 4
  | some (.executing _) => 3
  | some (.waiting _ _) => 3
  | some (.writing _) => 2
  | some (.finishing _) => 1

theorem callsAhead_pos (s : Stage) : 0 < Stage.callsAhead (some s) := by
  cases s <;> exact Nat.succ_pos _

theorem callsAhead_settled (config : Config) (timing : Timing) (t : Task) (e : Executed) :
    Stage.callsAhead (some (Stage.settled config timing t e)) ≤ 2 := by
  unfold Stage.settled
  simp only
  split
  · exact Nat.le_succ 1
  · exact Nat.le_refl 2

/-- What becomes of a run when a write is refused: it waits and makes the write again, unless the
task is gone or its status is no end. -/
theorem next_writing_error (config : Config) (timing : Timing) (c : Closing) (e : StoreError) :
    let next := ((Stage.writing c).next config timing (.error (.error e) : Except Fault Unit)).1
    (e.isTransient = true ∧ ∃ delay attempts,
        next = some (.waiting delay { c with attempts := attempts })) ∨
      ((∃ id, e = .taskNotFound id) ∧
        next = some (.closed timing c.task c.disposition .deleted)) ∨
      ((∃ name, e = .invalidStatus name) ∧
        next = some (.closed timing c.task c.disposition c.disposition.finish)) := by
  cases e with
  | taskNotFound id => exact Or.inr (Or.inl ⟨⟨id, rfl⟩, rfl⟩)
  | invalidStatus name => exact Or.inr (Or.inr ⟨⟨name, rfl⟩, rfl⟩)
  | _ =>
      refine Or.inl ⟨rfl, ?_⟩
      unfold Stage.next Execution.Attempts.after
      simp only
      split <;> exact ⟨_, _, rfl⟩

/-- Every call brings a run nearer to its end, unless it is a write that is refused. -/
theorem callsAhead_next (config : Config) (timing : Timing) (s : Stage) (reply : s.call.Reply) :
    Stage.callsAhead (s.next config timing reply).1 + 1 ≤
      Stage.callsAhead (some s) + if s.call.isRefused reply then 2 else 0 := by
  cases s with
  | starting t => exact Nat.le_refl 5
  | resetting t =>
      rcases reply with (e | detail) | _
      · exact Nat.le_refl 4
      · exact Nat.succ_le_succ (Nat.zero_le 3)
      · exact Nat.le_refl 4
  | executing t => exact Nat.succ_le_succ (callsAhead_settled config timing t reply)
  | writing c =>
      rcases reply with (e | detail) | _
      · change _ ≤ 2 + if e.isTransient then 2 else 0
        rcases next_writing_error config timing c e with
          ⟨htransient, delay, attempts, hnext⟩ | ⟨-, hnext⟩ | ⟨-, hnext⟩
        · rw [hnext, htransient]
          exact Nat.le_refl 4
        · rw [hnext]
          exact Nat.le_add_right 2 _
        · rw [hnext]
          exact Nat.le_add_right 2 _
      · exact Nat.succ_le_succ (Nat.zero_le 1)
      · exact Nat.le_refl 2
  | waiting d c => exact Nat.le_refl 3
  | finishing report => exact Nat.le_refl 1

end Runner

end TaskQueue
