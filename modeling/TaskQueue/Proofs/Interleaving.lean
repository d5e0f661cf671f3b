import Mathlib.Tactic
import TaskQueue.Runner.Drain

/-!
# Triggers and drains interleaved

Any number of triggers share one runner.  A trigger starts a drain or is coalesced, and the drains
that are going on move one at a time, in any order and with any answers; one may be given up at any
point.  A run is a sequence of such moves.  Each move leaves a happening behind, and the happenings
tell what callers can know of the run.
-/

namespace TaskQueue.Runner

/-- A runner and the drains that are going on, each with a number of its own. -/
structure Crew where
  shared : Shared
  live : List (Nat × Drain)
  /-- The number of the next drain. -/
  fresh : Nat

inductive Happening where
  | coalesced
  | started (drain : Nat)
  | began (drain pass : Nat)
  | worked (drain : Nat)
  /-- The pass has ended: there is nothing more to claim, or the claim has failed. -/
  | completed (drain pass : Nat)
  /-- The drain goes on to another pass. -/
  | continued (drain pass : Nat)
  | drained (drain passes : Nat)
  | abandoned (drain : Nat)
  deriving DecidableEq, Repr

namespace Happening

/-- What is seen of a drain that moves. -/
def ofMove (k : Nat) : Drain → Drain → Happening
  | .opening pass, _ => .began k pass
  | .claiming pass, .ending _ => .completed k pass
  | .ending pass, .opening _ => .continued k pass
  | .ending _, .done passes => .drained k passes
  | _, _ => .worked k

def isBegun : Happening → Bool
  | .began _ _ => true
  | _ => false

def reported? : Happening → Option Nat
  | .drained _ passes => some passes
  | _ => none

end Happening

namespace Crew

def idle : Crew :=
  ⟨.idle, [], 0⟩

/-- The drain with the given number has become another one; at its end it is no longer live. -/
def settle (s : Crew) (k : Nat) (shared : Shared) : Option Drain → Crew
  | none | some (.done _) => { s with shared, live := s.live.filter fun p => p.1 ≠ k }
  | some d => { s with shared, live := s.live.map fun p => if p.1 = k then (k, d) else p }

end Crew

/-- What can happen to a runner next. -/
inductive Move (config : Config) : Crew → Happening → Crew → Prop where
  | coalesce (s : Crew) {shared : Shared} (hstart : Drain.start s.shared = (none, shared)) :
    Move config s .coalesced { s with shared := shared }
  | start (s : Crew) {d : Drain} {shared : Shared}
      (hstart : Drain.start s.shared = (some d, shared)) :
    Move config s (.started s.fresh) ⟨shared, s.live ++ [(s.fresh, d)], s.fresh + 1⟩
  | advance (s : Crew) {k : Nat} {d d' : Drain} {shared : Shared} {notices : List Notice}
      (now : Nat) (answer : d.Answer) (hlive : (k, d) ∈ s.live)
      (hnext : d.next config now s.shared answer = (some d', shared, notices)) :
    Move config s (.ofMove k d d') (s.settle k shared (some d'))
  | crash (s : Crew) {k : Nat} {d : Drain} {shared : Shared} {notices : List Notice}
      (now : Nat) (answer : d.Answer) (hlive : (k, d) ∈ s.live)
      (hnext : d.next config now s.shared answer = (none, shared, notices)) :
    Move config s (.abandoned k) (s.settle k shared none)
  | abandon (s : Crew) {k : Nat} {d : Drain} (hlive : (k, d) ∈ s.live) :
    Move config s (.abandoned k) (s.settle k s.shared.abandon none)

/-- Moves one after the other, and what is seen of them. -/
inductive Run (config : Config) (s : Crew) : List Happening → Crew → Prop where
  | refl : Run config s [] s
  | snoc {l : List Happening} {t u : Crew} {h : Happening} (hrun : Run config s l t)
      (hmove : Move config t h u) : Run config s (l ++ [h]) u

/-! ## What one move does -/

/-- A drain that has not come to its end. -/
def Drain.IsGoing : Drain → Prop
  | .done _ => False
  | _ => True

/-- A drain in the course of the pass with the given number. -/
inductive Drain.Busy (pass : Nat) : Drain → Prop where
  | claiming : Busy pass (.claiming pass)
  | processing (began : Nat) (s : Stage) : Busy pass (.processing pass began s)

theorem Drain.Busy.isGoing {pass : Nat} {d : Drain} (h : d.Busy pass) : d.IsGoing := by
  cases h <;> exact trivial

theorem Drain.Busy.pass_eq {pass pass' : Nat} {d : Drain} (h : d.Busy pass) (h' : d.Busy pass') :
    pass = pass' := by
  cases h <;> cases h' <;> rfl

/-- The gate is open and no drain is live, or it is closed and one is. -/
inductive Crew.Tidy : Crew → Prop where
  | idle (stats : Stats) (fresh : Nat) : Tidy ⟨⟨⟨false, false⟩, stats⟩, [], fresh⟩
  | busy (pending : Bool) (stats : Stats) (k : Nat) {d : Drain} (hd : d.IsGoing) :
    Tidy ⟨⟨⟨true, pending⟩, stats⟩, [(k, d)], k + 1⟩

/-- The moves of a tidy runner, one after the other. -/
inductive Outcome : Crew → Happening → Crew → Prop where
  | coalesced (pending : Bool) (stats : Stats) (k : Nat) {d : Drain} (hd : d.IsGoing) :
    Outcome ⟨⟨⟨true, pending⟩, stats⟩, [(k, d)], k + 1⟩ .coalesced
      ⟨⟨⟨true, true⟩, { stats with coalescedTriggers := stats.coalescedTriggers + 1 }⟩,
        [(k, d)], k + 1⟩
  | started (stats : Stats) (fresh : Nat) :
    Outcome ⟨⟨⟨false, false⟩, stats⟩, [], fresh⟩ (.started fresh)
      ⟨⟨⟨true, false⟩, stats⟩, [(fresh, .opening 1)], fresh + 1⟩
  | began (pending : Bool) (stats : Stats) (k pass : Nat) :
    Outcome ⟨⟨⟨true, pending⟩, stats⟩, [(k, .opening pass)], k + 1⟩ (.began k pass)
      ⟨⟨⟨true, pending⟩, { stats with drainPasses := stats.drainPasses + 1 }⟩,
        [(k, .claiming pass)], k + 1⟩
  | worked (pending : Bool) (stats : Stats) (k : Nat) {pass tasks : Nat} {d d' : Drain}
      (hd : d.Busy pass) (hd' : d'.Busy pass) (htasks : tasks ≤ stats.tasksProcessed + 1) :
    Outcome ⟨⟨⟨true, pending⟩, stats⟩, [(k, d)], k + 1⟩ (.worked k)
      ⟨⟨⟨true, pending⟩, { stats with tasksProcessed := tasks }⟩, [(k, d')], k + 1⟩
  | completed (pending : Bool) (stats : Stats) (k pass : Nat) :
    Outcome ⟨⟨⟨true, pending⟩, stats⟩, [(k, .claiming pass)], k + 1⟩ (.completed k pass)
      ⟨⟨⟨true, pending⟩, stats⟩, [(k, .ending pass)], k + 1⟩
  | continued (stats : Stats) (k pass : Nat) :
    Outcome ⟨⟨⟨true, true⟩, stats⟩, [(k, .ending pass)], k + 1⟩ (.continued k pass)
      ⟨⟨⟨true, false⟩, stats⟩, [(k, .opening (pass + 1))], k + 1⟩
  | drained (stats : Stats) (k pass : Nat) :
    Outcome ⟨⟨⟨true, false⟩, stats⟩, [(k, .ending pass)], k + 1⟩ (.drained k pass)
      ⟨⟨⟨false, false⟩, stats⟩, [], k + 1⟩
  | abandoned (pending : Bool) (stats : Stats) (k : Nat) {d : Drain} (hd : d.IsGoing) :
    Outcome ⟨⟨⟨true, pending⟩, stats⟩, [(k, d)], k + 1⟩ (.abandoned k)
      ⟨⟨⟨false, false⟩, stats⟩, [], k + 1⟩

theorem Outcome.tidy {s t : Crew} {h : Happening} (houtcome : Outcome s h t) : t.Tidy := by
  cases houtcome with
  | coalesced pending stats k hd => exact .busy true _ k hd
  | started stats fresh => exact .busy false stats fresh trivial
  | began pending stats k pass => exact .busy pending _ k trivial
  | worked pending stats k hd hd' htasks => exact .busy pending _ k hd'.isGoing
  | completed pending stats k pass => exact .busy pending stats k trivial
  | continued stats k pass => exact .busy false stats k trivial
  | drained stats k pass => exact .idle stats (k + 1)
  | abandoned pending stats k hd => exact .idle stats (k + 1)

theorem settle_none (shared shared' : Shared) (k fresh : Nat) (d : Drain) :
    Crew.settle ⟨shared, [(k, d)], fresh⟩ k shared' none = ⟨shared', [], fresh⟩ := by
  simp [Crew.settle]

theorem settle_done (shared shared' : Shared) (k fresh passes : Nat) (d : Drain) :
    Crew.settle ⟨shared, [(k, d)], fresh⟩ k shared' (some (.done passes)) =
      ⟨shared', [], fresh⟩ := by
  simp [Crew.settle]

theorem settle_going (shared shared' : Shared) (k fresh : Nat) (d : Drain) {d' : Drain}
    (hd' : d'.IsGoing) :
    Crew.settle ⟨shared, [(k, d)], fresh⟩ k shared' (some d') = ⟨shared', [(k, d')], fresh⟩ := by
  cases d' with
  | done passes => exact hd'.elim
  | _ => simp [Crew.settle]

/-- A drain that moves does so in one of few ways. -/
theorem outcome_of_next {config : Config} {now k : Nat} {pending : Bool} {stats : Stats}
    {d d' : Drain} {shared : Shared} {notices : List Notice} (hd : d.IsGoing) (answer : d.Answer)
    (hnext : d.next config now ⟨⟨true, pending⟩, stats⟩ answer = (some d', shared, notices)) :
    Outcome ⟨⟨⟨true, pending⟩, stats⟩, [(k, d)], k + 1⟩ (.ofMove k d d')
      (Crew.settle ⟨⟨⟨true, pending⟩, stats⟩, [(k, d)], k + 1⟩ k shared (some d')) := by
  cases d with
  | done passes => exact hd.elim
  | opening pass =>
      cases hnext
      rw [settle_going]
      · exact .began pending stats k pass
      · exact trivial
  | claiming pass =>
      rcases answer with (e | detail) | _ | t
      · cases hnext
        rw [settle_going]
        · exact .completed pending stats k pass
        · exact trivial
      · cases hnext
      · cases hnext
        rw [settle_going]
        · exact .completed pending stats k pass
        · exact trivial
      · cases hnext
        rw [settle_going]
        · exact .worked pending stats k .claiming (.processing now (.starting t)) (Nat.le_succ _)
        · exact trivial
  | processing pass began stage =>
      rw [Drain.next] at hnext
      rcases hstage : stage.next config ⟨began, now⟩ answer with ⟨next, reported⟩
      rw [hstage] at hnext
      cases next with
      | none =>
          cases hnext
          rw [settle_going]
          · exact .worked pending stats k (.processing began stage) .claiming le_rfl
          · exact trivial
      | some stage' =>
          cases hnext
          rw [settle_going]
          · exact .worked pending stats k (.processing began stage) (.processing began stage')
              (Nat.le_succ _)
          · exact trivial
  | ending pass =>
      cases pending with
      | true =>
          cases hnext
          rw [settle_going]
          · exact .continued stats k pass
          · exact trivial
      | false =>
          cases hnext
          rw [settle_done]
          exact .drained stats k pass

/-- A drain that crashes opens the gate. -/
theorem gate_of_crash {config : Config} {now : Nat} {shared shared' : Shared} {d : Drain}
    {notices : List Notice} (answer : d.Answer)
    (hnext : d.next config now shared answer = (none, shared', notices)) :
    shared' = shared.abandon := by
  cases d with
  | done passes => exact answer.elim
  | claiming pass =>
      rcases answer with (e | detail) | _ | t
      · cases hnext
      · cases hnext
        rfl
      · cases hnext
      · cases hnext
  | _ => cases hnext

theorem outcome_of_move {config : Config} {s t : Crew} {h : Happening} (hs : s.Tidy)
    (hmove : Move config s h t) : Outcome s h t := by
  cases hs with
  | idle stats fresh =>
      cases hmove with
      | coalesce hstart => cases hstart
      | start hstart =>
          cases hstart
          exact .started stats fresh
      | advance now answer hlive hnext => cases hlive
      | crash now answer hlive hnext => cases hlive
      | abandon hlive => cases hlive
  | busy pending stats k hd =>
      cases hmove with
      | coalesce hstart =>
          cases hstart
          exact .coalesced pending stats k hd
      | start hstart => cases hstart
      | advance now answer hlive hnext =>
          cases List.mem_singleton.1 hlive
          exact outcome_of_next hd answer hnext
      | crash now answer hlive hnext =>
          cases List.mem_singleton.1 hlive
          have hshared := gate_of_crash answer hnext
          rw [settle_none, hshared]
          exact .abandoned pending stats k hd
      | abandon hlive =>
          cases List.mem_singleton.1 hlive
          rw [settle_none]
          exact .abandoned pending stats k hd

end TaskQueue.Runner
