import Mathlib.Tactic
import TaskQueue.Proofs.DrainFloor
import TaskQueue.Proofs.QueueKeeping

/-!
# A drain finishes its queue

A drain that nobody disturbs comes to its end, whatever the executors and the hooks do and however
many writes are refused on the way.  It executes the tasks that are served at the hour, one after the
other and each one once; they end, and all other tasks stay as they are.  Which tasks are executed is
known from the store alone, before any of them is executed.
-/

namespace TaskQueue.Runner

open Execution (Verdict Watch)
open Store (KeepsQueue Memory Moment Ordered Request Row Step Table View firstOpen isOpenAt served)
open Time (ZonedTime)

variable {σ ρ ω : Type}

def Act.isTrigger : Act → Bool
  | .trigger => true
  | _ => false

/-- By how many steps the end of a drain is put off. -/
def Act.delay : Act → Nat
  | .trigger => 3
  | .call c reply => if c.isRefused reply then 2 else 0
  | _ => 0

/-- The task that is handed to the drain. -/
def Act.claimed? : Act → Option TaskId
  | .claim _ _ (.ok (some t)) => some t.id
  | _ => none

def Act.executed? : Act → Option TaskId
  | .call (.execute t) _ => some t.id
  | _ => none

def claimed (l : List (Entry σ)) : List TaskId :=
  l.filterMap fun e => e.act.claimed?

def executed (l : List (Entry σ)) : List TaskId :=
  l.filterMap fun e => e.act.executed?

theorem claimed_snoc (l : List (Entry σ)) (e : Entry σ) :
    claimed (l ++ [e]) = claimed l ++ e.act.claimed?.toList := by
  unfold claimed
  rw [List.filterMap_append, List.filterMap_cons]
  cases e.act.claimed? <;> rfl

theorem executed_snoc (l : List (Entry σ)) (e : Entry σ) :
    executed (l ++ [e]) = executed l ++ e.act.executed?.toList := by
  unfold executed
  rw [List.filterMap_append, List.filterMap_cons]
  cases e.act.executed? <;> rfl

/-- Whether the drain is left in peace: no claim fails, the clock stays within the hour, and others
only read, or are the executor of the current task and edit its result.  A line that the log of the
task can no longer count is not an edit. -/
def Entry.Quiet (Ready : Moment → Prop) (hour : Nat) : Entry σ → Prop
  | ⟨_, .claim moment time answer, _⟩ => Ready moment ∧ time.hour = hour ∧ ∃ t, answer = .ok t
  | ⟨f, .request _ r result, _⟩ =>
    r.IsRead ∨ ∃ t a, f.drain.stage? = some (.executing t) ∧ r.Edits t.id ∧ result = .ok a
  | _ => True

/-! ## The length of a drain -/

/-- The number of steps that a drain has ahead of it, if no write is refused and it is given no more
tasks. -/
def Drain.stepsAhead : Drain → Nat
  | .opening _ => 3
  | .claiming _ => 2
  | .processing _ _ s => 2 + Stage.callsAhead (some s)
  | .ending _ => 1
  | .done _ => 0

/-- The number of steps of the pass that a trigger has asked for. -/
def Shared.stepsOwed (s : Shared) : Nat :=
  if s.gate.pending then 3 else 0

/-- The number of steps ahead, if so many more tasks are handed to the drain. -/
def Floor.stepsAhead (tasks : Nat) (f : Floor σ) : Nat :=
  f.drain.stepsAhead + f.shared.stepsOwed + 6 * tasks

variable {V : View σ ρ ω} {perform : σ → Moment → (r : Request) → Step σ r.Answer} {config : Config}
  {f g : Floor σ} {act : Act} {l : List (Entry σ)}

theorem stepsOwed_trigger {shared shared' : Shared}
    (hcoalesced : Drain.start shared = (none, shared')) : shared'.stepsOwed = 3 := by
  unfold Drain.start Shared.trigger at hcoalesced
  split at hcoalesced
  · cases hcoalesced
  · rename_i hstart
    split at hstart
    · cases hstart
      cases hcoalesced
      rfl
    · cases hstart

theorem stepsOwed_passed (pass : Nat) (shared : Shared) :
    (Drain.passed pass shared).1.stepsAhead + (Drain.passed pass shared).2.stepsOwed =
      shared.stepsOwed := by
  obtain ⟨⟨running, pending⟩, stats⟩ := shared
  cases pending <;> rfl

theorem drain_passed (pass : Nat) (shared : Shared) :
    (Drain.passed pass shared).1 = .done pass ∨
      (Drain.passed pass shared).1 = .opening (pass + 1) := by
  obtain ⟨⟨running, pending⟩, stats⟩ := shared
  cases pending
  · exact Or.inl rfl
  · exact Or.inr rfl

theorem stepsAhead_staged (pass began : Nat) (shared : Shared) (s : Option Stage) :
    (Drain.staged pass began shared s).1.stepsAhead + (Drain.staged pass began shared s).2.stepsOwed =
      2 + Stage.callsAhead s + shared.stepsOwed := by
  cases s <;> rfl

/-- Every step of a drain brings it nearer to its end, unless a write is refused; a trigger puts the
end off. -/
theorem stepsAhead_move (hmove : Moves perform config f act g) (tasks : Nat) :
    (if act.isDrain then 1 else 0) + g.stepsAhead tasks ≤
      f.stepsAhead (tasks + act.claimed?.toList.length) + act.delay := by
  unfold Floor.stepsAhead
  cases hact : act.isDrain with
  | false =>
      cases hmove with
      | drain now hdrain hanswer hnext => cases hanswer <;> cases hact
      | trigger hcoalesced =>
          rw [stepsOwed_trigger hcoalesced]
          simp [Act.claimed?, Act.delay]
          omega
      | poll moment hdrain hvigil | pollFailed e hdrain hvigil | request moment r =>
          simp [Act.claimed?, Act.delay]
  | true =>
      cases hdrain : f.drain with
      | opening pass =>
          obtain ⟨rfl, -, hopened⟩ := hmove.of_opening hdrain hact
          obtain ⟨hd, hs⟩ := Prod.mk.inj hopened
          have howed : g.shared.stepsOwed = f.shared.stepsOwed := by
            rw [hs]
            rfl
          rw [hd, howed]
          simp [Drain.stepsAhead, Act.claimed?, Act.delay]
          omega
      | claiming pass =>
          obtain ⟨moment, time, now, answer, rfl, hclaimed, hs, -⟩ := hmove.of_claiming hdrain hact
          rw [hs]
          rcases answer with (e | detail) | _ | t
          · rw [← Option.some.inj hclaimed]
            simp [Drain.stepsAhead, Act.claimed?, Act.delay]
            omega
          · cases hclaimed
          · rw [← Option.some.inj hclaimed]
            simp [Drain.stepsAhead, Act.claimed?, Act.delay]
            omega
          · rw [← Option.some.inj hclaimed]
            simp [Drain.stepsAhead, Stage.callsAhead, Act.claimed?, Act.delay]
            omega
      | processing pass began s =>
          -- The last call of a task leads back to a claim, which is the first of two steps to the end.
          obtain ⟨reply, timing, rfl, -, hd, hs, -⟩ := hmove.of_processing hdrain hact
          have hstaged := stepsAhead_staged pass began f.shared (s.next config timing reply).1
          rw [← hd, ← hs] at hstaged
          have hnext := callsAhead_next config timing s reply
          show 1 + _ ≤ 2 + Stage.callsAhead (some s) + f.shared.stepsOwed + 6 * tasks +
            if s.call.isRefused reply then 2 else 0
          omega
      | ending pass =>
          obtain ⟨rfl, -, hpassed⟩ := hmove.of_ending hdrain hact
          have howed := stepsOwed_passed pass f.shared
          rw [← hpassed] at howed
          change g.drain.stepsAhead + g.shared.stepsOwed = _ at howed
          show 1 + _ ≤ 1 + f.shared.stepsOwed + 6 * tasks + 0
          omega
      | done passes =>
          rw [hmove.of_done hdrain] at hact
          cases hact

theorem stepsAhead_works (hworks : Works perform config f l g) (tasks : Nat) :
    (l.countP fun e => e.act.isDrain) + g.stepsAhead tasks ≤
      f.stepsAhead (tasks + (claimed l).length) + (l.map fun e => e.act.delay).sum := by
  induction hworks with
  | refl f => simp [claimed]
  | cons hmove hrest ih =>
      rename_i f g h act l
      have hclaimed : (claimed (⟨f, act, g⟩ :: l)).length =
          (claimed l).length + act.claimed?.toList.length := by
        unfold claimed
        rw [List.filterMap_cons]
        cases act.claimed? <;> simp
      have hfirst := stepsAhead_move hmove (tasks + (claimed l).length)
      rw [List.countP_cons, List.map_cons, List.sum_cons, hclaimed, ← Nat.add_assoc tasks]
      simp only at hfirst ⊢
      omega

theorem sum_delay (l : List (Entry σ)) :
    (l.map fun e => e.act.delay).sum =
      (2 * l.countP fun e => e.act.isRefused) + 3 * l.countP fun e => e.act.isTrigger := by
  induction l with
  | nil => rfl
  | cons e l ih =>
      have hdelay : e.act.delay =
          2 * (if e.act.isRefused then 1 else 0) + 3 * (if e.act.isTrigger then 1 else 0) := by
        cases e.act with
        | call c reply =>
            show (if c.isRefused reply then 2 else 0) =
              2 * (if c.isRefused reply then 1 else 0) + 3 * 0
            split <;> rfl
        | _ => rfl
      rw [List.map_cons, List.sum_cons, List.countP_cons, List.countP_cons, ih, hdelay]
      omega

/-! ## Records of other tasks -/

/-- The records of a store while the tasks `ran` have been processed, and `current` still is. -/
structure Ledger (V : View σ ρ ω) (start : σ) (ran : List TaskId) (current : Option TaskId)
    (s : σ) : Prop where
  started : ∀ id, current = some id → id ∈ ran
  untouched : ∀ id, id ∉ ran → V.find? s id = V.find? start id
  ended : ∀ id, id ∈ ran → current ≠ some id →
    ∃ a, V.find? s id = some a ∧ (V.status a).any Status.isTerminal = true

namespace Ledger

variable {start s s' : σ} {ran : List TaskId} {id : TaskId}

theorem claim (h : Ledger V start ran none s) (hspares : V.SparesOthers id s s') :
    Ledger V start (ran ++ [id]) (some id) s' where
  started j hj := by
    cases hj
    simp
  untouched j hj := by
    rw [List.mem_append, not_or, List.mem_singleton] at hj
    rw [hspares j hj.2, h.untouched j hj.1]
  ended j hj hne := by
    have hother : j ≠ id := fun h => hne (by rw [h])
    rw [List.mem_append, List.mem_singleton] at hj
    rw [hspares j hother]
    exact h.ended j (hj.resolve_right hother) (by simp)

theorem edit (h : Ledger V start ran (some id) s) (hspares : V.SparesOthers id s s') :
    Ledger V start ran (some id) s' where
  started := h.started
  untouched j hj := by
    have hother : j ≠ id := by
      rintro rfl
      exact hj (h.started j rfl)
    rw [hspares j hother, h.untouched j hj]
  ended j hj hne := by
    have hother : j ≠ id := fun h => hne (by rw [h])
    rw [hspares j hother]
    exact h.ended j hj hne

theorem finish (h : Ledger V start ran (some id) s) (hspares : V.SparesOthers id s s') {a : ρ}
    {status : Status} (hfind : V.find? s' id = some a) (hstatus : V.status a = some status)
    (hterminal : status.isTerminal = true) : Ledger V start ran none s' where
  started j hj := by cases hj
  untouched := (h.edit hspares).untouched
  ended j hj _ := by
    by_cases hid : j = id
    · rw [hid]
      refine ⟨a, hfind, ?_⟩
      rw [hstatus]
      exact hterminal
    · exact (h.edit hspares).ended j hj fun h => hid (Option.some.inj h).symm

end Ledger

/-! ## Calls in a store that keeps a queue -/

variable {Ready : Moment → Prop} {Holds : σ → List Task → Option TaskId → Prop}
  {waiting : List Task} {id : TaskId}

theorem called_reset (hkeeps : KeepsQueue V perform Ready Holds)
    (hholds : Holds f.store waiting (some id)) {reply : Except Fault Unit} {store : σ}
    (hcalled : Called perform f (.reset id) reply store) :
    (∀ detail, reply ≠ .error (.crash detail)) ∧ Holds store waiting (some id) ∧
      V.SparesOthers id f.store store := by
  cases hcalled with
  | reset _ moment =>
      have hok := hkeeps.patches moment .runReset hholds
      obtain ⟨hheld, hspares⟩ := hkeeps.edits hholds (Store.edits_runReset id) hok
      refine ⟨?_, hheld, hspares⟩
      intro detail hcrash
      rw [hok] at hcrash
      cases hcrash
  | resetFailed _ e => exact ⟨fun detail => by simp, hholds, fun j _ => rfl⟩

/-- A write of the current task is made, or it is refused and the store stays as it is. -/
theorem called_finalize (hkeeps : KeepsQueue V perform Ready Holds)
    (hholds : Holds f.store waiting (some id)) {p : ResultPatch} {status : Status}
    (hterminal : status.isTerminal = true) {reply : Except Fault Unit} {store : σ}
    (hcalled : Called perform f (.finalize id p status) reply store) :
    (reply = .ok () ∧ Holds store waiting none ∧ V.SparesOthers id f.store store ∧
        ∃ a, V.find? store id = some a ∧ V.status a = some status) ∨
      store = f.store ∧ ∃ e, e.isTransient = true ∧ reply = .error (.error e) := by
  cases hcalled with
  | finalize _ _ _ moment => exact Or.inl (hkeeps.ends moment p hholds hterminal)
  | finalizeFailed _ _ _ htransient => exact Or.inr ⟨rfl, _, htransient, rfl⟩

/-- Without a reason to stop, a result is written. -/
theorem settled_writing (config : Config) (timing : Timing) (t : Task) {e : Executed}
    (hreason : e.watch.reason = none) :
    ∃ c, Stage.settled config timing t e = .writing c ∧ c.task = t.id ∧
      c.status.isTerminal = true := by
  obtain ⟨verdict, watch⟩ := e
  obtain ⟨task, reason, cancelled, vigil⟩ := watch
  cases hreason
  rcases verdict with o | f
  · exact ⟨_, rfl, rfl, rfl⟩
  · cases hf : f.aborted with
    | true =>
        have hpaused : reasonAtEnd ⟨task, none, cancelled, vigil⟩ (.failure f) = some .paused := by
          unfold reasonAtEnd
          simp only [hf, if_true]
          rfl
        unfold Stage.settled resolve
        simp only [hpaused]
        exact ⟨_, rfl, rfl, rfl⟩
    | false =>
        have hnone : reasonAtEnd ⟨task, none, cancelled, vigil⟩ (.failure f) = none := by
          unfold reasonAtEnd
          simp [hf]
        unfold Stage.settled resolve
        simp only [hnone]
        exact ⟨_, rfl, rfl, rfl⟩

/-! ## A drain on its way -/

/-- The task that is being processed, until its result is written. -/
def Stage.current? : Stage → Option TaskId
  | .starting t | .resetting t | .executing t => some t.id
  | .writing c | .waiting _ c => some c.task
  | .finishing _ => none

def Drain.current? (d : Drain) : Option TaskId :=
  d.stage?.bind Stage.current?

/-- The task that is to be executed. -/
def Stage.unexecuted : Stage → List TaskId
  | .starting t | .resetting t | .executing t => [t.id]
  | .writing _ | .waiting _ _ | .finishing _ => []

def Drain.unexecuted (d : Drain) : List TaskId :=
  (d.stage?.map Stage.unexecuted).getD []

/-- Whether the drain has met nothing unforeseen: no reason to stop an execution, no result that
does not end its task, and no end of a pass while a window is open. -/
def Drain.Steady (hour limit : Nat) (waiting : List Task) (watch : Watch) : Drain → Prop
  | .processing _ _ (.executing _) => watch.reason = none
  | .processing _ _ (.writing c) | .processing _ _ (.waiting _ c) => c.status.isTerminal = true
  | .ending _ | .done _ => firstOpen hour limit waiting = none
  | _ => True

/-- A drain that has begun in the store `start`, where the tasks `all` waited, and has come as far as
the floor `f`, where the tasks `waiting` are left. -/
structure Underway (V : View σ ρ ω) (Holds : σ → List Task → Option TaskId → Prop)
    (hour limit : Nat) (start : σ) (all : List Task) (l : List (Entry σ)) (waiting : List Task)
    (f : Floor σ) : Prop where
  holds : Holds f.store waiting f.drain.current?
  steady : f.drain.Steady hour limit waiting f.watch
  agenda : (served hour limit all).map Task.id =
    claimed l ++ (served hour limit waiting).map Task.id
  executed : claimed l = executed l ++ f.drain.unexecuted
  ledger : Ledger V start (claimed l) f.drain.current? f.store

variable {hour : Nat} {start : σ} {all : List Task}

namespace Underway

/-- A step in which no task is claimed. -/
theorem next (h : Underway V Holds hour config.scanLimit start all l waiting f) {d d' : Drain}
    (hdrain : f.drain = d) (hnext : g.drain = d') (hclaimed : act.claimed? = none)
    (hholds : Holds g.store waiting d'.current?)
    (hsteady : d'.Steady hour config.scanLimit waiting g.watch)
    (hexecuted : act.executed?.toList ++ d'.unexecuted = d.unexecuted)
    (hledger : Ledger V start (claimed l) d'.current? g.store) :
    Underway V Holds hour config.scanLimit start all (l ++ [⟨f, act, g⟩]) waiting g := by
  subst hdrain hnext
  have hkept : claimed (l ++ [⟨f, act, g⟩]) = claimed l := by
    rw [claimed_snoc, hclaimed]
    exact List.append_nil _
  refine ⟨hholds, hsteady, ?_, ?_, ?_⟩
  · rw [hkept]
    exact h.agenda
  · rw [hkept, executed_snoc, h.executed, ← hexecuted, List.append_assoc]
  · rw [hkept]
    exact hledger

/-- A step that leaves the store as it is. -/
theorem stay (h : Underway V Holds hour config.scanLimit start all l waiting f) {d d' : Drain}
    (hdrain : f.drain = d) (hnext : g.drain = d') (hstore : g.store = f.store)
    (hclaimed : act.claimed? = none) (hcurrent : d'.current? = d.current?)
    (hsteady : d'.Steady hour config.scanLimit waiting g.watch)
    (hexecuted : act.executed?.toList ++ d'.unexecuted = d.unexecuted) :
    Underway V Holds hour config.scanLimit start all (l ++ [⟨f, act, g⟩]) waiting g := by
  refine h.next hdrain hnext hclaimed ?_ hsteady hexecuted ?_
  · rw [hstore, hcurrent, ← hdrain]
    exact h.holds
  · rw [hstore, hcurrent, ← hdrain]
    exact h.ledger

/-- What others do leaves the drain where it is. -/
theorem aside (hkeeps : KeepsQueue V perform Ready Holds)
    (h : Underway V Holds hour config.scanLimit start all l waiting f)
    (hmove : Moves perform config f act g) (hact : act.isDrain = false)
    (hquiet : Entry.Quiet Ready hour ⟨f, act, g⟩) :
    Underway V Holds hour config.scanLimit start all (l ++ [⟨f, act, g⟩]) waiting g := by
  cases hmove with
  | drain now hdrain hanswer hnext => cases hanswer <;> cases hact
  | trigger hcoalesced => exact h.stay rfl rfl rfl rfl rfl h.steady rfl
  | pollFailed e hdrain hvigil => exact h.stay rfl rfl rfl rfl rfl h.steady rfl
  | @poll pass began t moment hdrain hvigil =>
      have hholds : Holds f.store waiting (some t.id) := by
        have hholds := h.holds
        rw [hdrain] at hholds
        exact hholds
      obtain ⟨archived, hlooks⟩ := hkeeps.looks moment hholds
      have hstore := hkeeps.reads f.store moment (.control t.id) trivial
      rw [hlooks, hstore]
      exact h.stay rfl rfl rfl rfl rfl h.steady rfl
  | request moment r =>
      rcases hquiet with hread | ⟨t, a, hstage, hedits, hok⟩
      · exact h.stay rfl rfl (hkeeps.reads f.store moment r hread) rfl rfl h.steady rfl
      · have hcurrent : f.drain.current? = some t.id := by
          unfold Drain.current?
          rw [hstage]
          rfl
        have hholds := h.holds
        have hledger := h.ledger
        rw [hcurrent] at hholds hledger
        obtain ⟨hheld, hspares⟩ := hkeeps.edits hholds hedits hok
        refine h.next rfl rfl rfl ?_ h.steady rfl ?_
        · rw [hcurrent]
          exact hheld
        · rw [hcurrent]
          exact hledger.edit hspares

/-- The task that is handed to the drain is the next one that is served. -/
theorem take (h : Underway V Holds hour config.scanLimit start all l waiting f) {pass began : Nat}
    {t t' : Task} (hdrain : f.drain = .claiming pass)
    (hnext : g.drain = .processing pass began (.starting t')) (hclaimed : act.claimed? = some t'.id)
    (hexecuted : act.executed? = none) (hnodup : (waiting.map Task.id).Nodup)
    (hfirst : firstOpen hour config.scanLimit waiting = some t) (hid : t'.id = t.id)
    (hholds : Holds g.store (waiting.filter fun u => u.id ≠ t.id) (some t.id))
    (hspares : V.SparesOthers t.id f.store g.store) :
    Underway V Holds hour config.scanLimit start all (l ++ [⟨f, act, g⟩])
      (waiting.filter fun u => u.id ≠ t.id) g := by
  have hgrown : claimed (l ++ [⟨f, act, g⟩]) = claimed l ++ [t.id] := by
    rw [claimed_snoc, hclaimed, hid]
    rfl
  have hkept : Runner.executed (l ++ [⟨f, act, g⟩]) = Runner.executed l := by
    rw [executed_snoc, hexecuted]
    exact List.append_nil _
  have hran : claimed l = Runner.executed l := by
    have hran := h.executed
    rw [hdrain] at hran
    exact hran.trans (List.append_nil _)
  have hcurrent : g.drain.current? = some t.id := by
    rw [hnext, ← hid]
    rfl
  have hledger := h.ledger
  rw [hdrain] at hledger
  refine ⟨?_, ?_, ?_, ?_, ?_⟩
  · rw [hcurrent]
    exact hholds
  · rw [hnext]
    exact trivial
  · rw [h.agenda, Store.served_eq_cons hnodup hfirst, hgrown, List.append_assoc]
    rfl
  · rw [hgrown, hkept, hran, hnext, ← hid]
    rfl
  · rw [hgrown, hcurrent]
    exact hledger.claim hspares

/-- A task is handed to the drain, or there is none to hand out. -/
theorem claim (hkeeps : KeepsQueue V perform Ready Holds)
    (h : Underway V Holds hour config.scanLimit start all l waiting f) {pass : Nat}
    (hdrain : f.drain = .claiming pass) (hmove : Moves perform config f act g)
    (hact : act.isDrain = true) (hquiet : Entry.Quiet Ready hour ⟨f, act, g⟩) :
    ∃ left, Underway V Holds hour config.scanLimit start all (l ++ [⟨f, act, g⟩]) left g := by
  obtain ⟨moment, time, now, answer, rfl, hclaimed, -, -, hanswer⟩ := hmove.of_claiming hdrain hact
  obtain ⟨hready, hhour, picked, rfl⟩ := hquiet
  have hholds := h.holds
  rw [hdrain] at hholds
  obtain ⟨hresult, hstore⟩ : _ ∧ _ := hanswer.resolve_right (by rintro ⟨-, e, he⟩; cases he)
  subst hhour
  cases hfirst : firstOpen time.hour config.scanLimit waiting with
  | none =>
      obtain ⟨hnone, hsame⟩ := hkeeps.passes moment config.scanLimit time hholds hfirst
      rw [hresult] at hnone
      cases hnone
      have hending : g.drain = .ending pass := (Option.some.inj hclaimed).symm
      rw [hstore] at hsame
      exact ⟨waiting, h.stay hdrain hending hsame rfl rfl hfirst rfl⟩
  | some t =>
      obtain ⟨t', hsome, hid, hheld, hspares⟩ :=
        hkeeps.claims config.scanLimit time hholds hready hfirst
      rw [hresult] at hsome
      cases hsome
      rw [hstore] at hheld hspares
      have hprocessing : g.drain = .processing pass now (.starting t') :=
        (Option.some.inj hclaimed).symm
      exact ⟨_, h.take hdrain hprocessing rfl rfl (hkeeps.nodup hholds) hfirst hid hheld hspares⟩

/-- The drain goes on to the next stage of its task. -/
theorem call (hkeeps : KeepsQueue V perform Ready Holds)
    (h : Underway V Holds hour config.scanLimit start all l waiting f) {pass began : Nat} {s : Stage}
    (hdrain : f.drain = .processing pass began s) (hmove : Moves perform config f act g)
    (hact : act.isDrain = true) :
    Underway V Holds hour config.scanLimit start all (l ++ [⟨f, act, g⟩]) waiting g := by
  obtain ⟨reply, timing, rfl, hcalled, hnext, -, hwatch⟩ := hmove.of_processing hdrain hact
  have hholds := h.holds
  have hledger := h.ledger
  have hsteady := h.steady
  rw [hdrain] at hholds hledger hsteady
  cases s with
  | starting t => exact h.stay hdrain hnext (hcalled.store_eq rfl) rfl rfl trivial rfl
  | resetting t =>
      obtain ⟨hreply, hheld, hspares⟩ := called_reset hkeeps hholds hcalled
      have hstage := next_resetting config timing t hreply
      have hexecuting : g.drain = .processing pass began (.executing t) :=
        hnext.trans (congrArg (fun s => (Drain.staged pass began f.shared s).1) hstage)
      have hwatching : g.watch = .start t.id := hwatch.trans (congrArg (watchAt f.watch) hstage)
      exact h.next hdrain hexecuting rfl hheld (congrArg Watch.reason hwatching) rfl
        (hledger.edit hspares)
  | executing t =>
      have hreason : reply.watch.reason = none := by
        rw [Called.watch_eq hcalled]
        exact hsteady
      obtain ⟨c, hsettled, htask, hterminal⟩ := settled_writing config timing t hreason
      have hwriting : g.drain = .processing pass began (.writing c) :=
        hnext.trans (congrArg (fun s => Drain.processing pass began s) hsettled)
      exact h.stay hdrain hwriting (hcalled.store_eq rfl) rfl (congrArg some htask) hterminal rfl
  | writing c =>
      rcases called_finalize hkeeps hholds hsteady hcalled with
        ⟨rfl, hheld, hspares, a, hfind, hstatus⟩ | ⟨hstore, e, htransient, rfl⟩
      · exact h.next hdrain hnext rfl hheld trivial rfl
          (hledger.finish hspares hfind hstatus hsteady)
      · rcases next_writing_error config timing c e with
          ⟨-, delay, attempts, hstage⟩ | ⟨⟨j, rfl⟩, -⟩ | ⟨⟨name, rfl⟩, -⟩
        · have hwaiting :
              g.drain = .processing pass began (.waiting delay { c with attempts := attempts }) :=
            hnext.trans (congrArg (fun s => (Drain.staged pass began f.shared s).1) hstage)
          exact h.stay hdrain hwaiting hstore rfl rfl hsteady rfl
        · cases htransient
        · cases htransient
  | waiting d c => exact h.stay hdrain hnext (hcalled.store_eq rfl) rfl rfl hsteady rfl
  | finishing report => exact h.stay hdrain hnext (hcalled.store_eq rfl) rfl rfl trivial rfl

/-- Whatever happens next, the drain stays on its way. -/
theorem move (hkeeps : KeepsQueue V perform Ready Holds)
    (h : Underway V Holds hour config.scanLimit start all l waiting f)
    (hmove : Moves perform config f act g) (hquiet : Entry.Quiet Ready hour ⟨f, act, g⟩) :
    ∃ left, Underway V Holds hour config.scanLimit start all (l ++ [⟨f, act, g⟩]) left g := by
  cases hact : act.isDrain with
  | false => exact ⟨waiting, h.aside hkeeps hmove hact hquiet⟩
  | true =>
      cases hdrain : f.drain with
      | opening pass =>
          obtain ⟨rfl, hstore, hopened⟩ := hmove.of_opening hdrain hact
          exact ⟨waiting, h.stay hdrain (congrArg Prod.fst hopened) hstore rfl rfl trivial rfl⟩
      | claiming pass => exact h.claim hkeeps hdrain hmove hact hquiet
      | processing pass began s => exact ⟨waiting, h.call hkeeps hdrain hmove hact⟩
      | ending pass =>
          obtain ⟨rfl, hstore, hpassed⟩ := hmove.of_ending hdrain hact
          have hsteady := h.steady
          rw [hdrain] at hsteady
          rcases drain_passed pass f.shared with hlast | hlast
          · exact ⟨waiting, h.stay hdrain ((congrArg Prod.fst hpassed).trans hlast) hstore rfl rfl
              hsteady rfl⟩
          · exact ⟨waiting, h.stay hdrain ((congrArg Prod.fst hpassed).trans hlast) hstore rfl rfl
              trivial rfl⟩
      | done passes =>
          rw [hmove.of_done hdrain] at hact
          cases hact

theorem works (hkeeps : KeepsQueue V perform Ready Holds) {l' : List (Entry σ)}
    (h : Underway V Holds hour config.scanLimit start all l waiting f)
    (hworks : Works perform config f l' g) (hquiet : ∀ e ∈ l', e.Quiet Ready hour) :
    ∃ left, Underway V Holds hour config.scanLimit start all (l ++ l') left g := by
  -- The past `l` grows with every step, so the drain may have begun at any floor before.
  induction hworks generalizing l waiting with
  | refl f => exact ⟨waiting, by rw [List.append_nil]; exact h⟩
  | cons hmove hrest ih =>
      obtain ⟨left, hnext⟩ := h.move hkeeps hmove (hquiet _ List.mem_cons_self)
      obtain ⟨left', hlast⟩ := ih hnext fun e he => hquiet e (List.mem_cons_of_mem _ he)
      exact ⟨left', by rw [List.append_cons]; exact hlast⟩

end Underway

/-! ## Whole drains -/

theorem moves_of_claim {pass : Nat} (hdrain : f.drain = .claiming pass) {moment : Moment}
    {time : ZonedTime} {picked : Option Task}
    (hok : (perform f.store moment (.claim config.scanLimit time)).result = .ok picked) :
    ∃ g, Moves perform config f (.claim moment time (.ok picked)) g := by
  have hanswer := @Answers.claiming _ perform config f pass moment time
  rw [hok] at hanswer
  cases picked with
  | none => exact ⟨_, .drain 0 hdrain hanswer rfl⟩
  | some t => exact ⟨_, .drain 0 hdrain hanswer rfl⟩

theorem moves_of_turn {pass : Nat} (hdrain : f.drain = .opening pass ∨ f.drain = .ending pass) :
    ∃ g, Moves perform config f .turn g := by
  rcases hdrain with hdrain | hdrain
  · exact ⟨_, .drain 0 hdrain (.opening pass) rfl⟩
  · exact ⟨_, .drain 0 hdrain (.ending pass) rfl⟩

/-- Whether the drain, unless it is over, goes on with whatever it is answered. -/
def Floor.GoesOn (perform : σ → Moment → (r : Request) → Step σ r.Answer) (config : Config)
    (Ready : Moment → Prop) (hour : Nat) (f : Floor σ) : Prop :=
  match f.drain with
  | .opening _ | .ending _ => ∃ g, Moves perform config f .turn g
  | .claiming _ => ∀ moment time, Ready moment → time.hour = hour →
    ∃ picked g, Moves perform config f (.claim moment time (.ok picked)) g
  | .processing _ _ s => ∀ reply store, Called perform f s.call reply store →
    ∃ g, Moves perform config f (.call s.call reply) g
  | .done _ => True

theorem Underway.goesOn (hkeeps : KeepsQueue V perform Ready Holds)
    (h : Underway V Holds hour config.scanLimit start all l waiting f) :
    f.GoesOn perform config Ready hour := by
  have hholds := h.holds
  unfold Floor.GoesOn
  cases hdrain : f.drain with
  | opening pass => exact moves_of_turn (Or.inl hdrain)
  | claiming pass =>
      rw [hdrain] at hholds
      intro moment time hready _
      cases hfirst : firstOpen time.hour config.scanLimit waiting with
      | none =>
          have hnone := hkeeps.passes moment config.scanLimit time hholds hfirst
          exact ⟨none, moves_of_claim hdrain hnone.1⟩
      | some t =>
          obtain ⟨t', hsome, -⟩ := hkeeps.claims config.scanLimit time hholds hready hfirst
          exact ⟨some t', moves_of_claim hdrain hsome⟩
  | processing pass began s => exact fun reply store => moves_of_called hdrain
  | ending pass => exact moves_of_turn (Or.inr hdrain)
  | done passes => exact trivial

/-- The state of affairs when a drain is over that began in the store `start`, where the tasks
`waiting` waited. -/
structure Drained (V : View σ ρ ω) (perform : σ → Moment → (r : Request) → Step σ r.Answer)
    (config : Config) (hour : Nat) (waiting : List Task) (start : σ) (l : List (Entry σ)) (s : σ) :
    Prop where
  executed : executed l = (served hour config.scanLimit waiting).map Task.id
  ended : ∀ id, id ∈ Runner.executed l →
    ∃ a, V.find? s id = some a ∧ (V.status a).any Status.isTerminal = true
  untouched : ∀ id, id ∉ Runner.executed l → V.find? s id = V.find? start id
  /-- The oldest tasks that still wait have their windows closed. -/
  closed : ∀ moment, ∃ ts : List Task,
    (perform s moment (.list .waiting config.scanLimit)).result = .ok ts ∧
      ∀ t ∈ ts, isOpenAt hour t = false

/-- What can be relied on of a drain that nobody disturbs. -/
structure Finishes (V : View σ ρ ω) (perform : σ → Moment → (r : Request) → Step σ r.Answer)
    (config : Config) (Ready : Moment → Prop) (hour : Nat) (waiting : List Task) (f : Floor σ) :
    Prop where
  ordered : Ordered (served hour config.scanLimit waiting)
  distinct : ((served hour config.scanLimit waiting).map Task.id).Nodup
  /-- The drain does not go on forever, unless it is triggered or refused a write forever. -/
  bounded : ∀ l g, Works perform config f l g → (∀ e ∈ l, e.Quiet Ready hour) →
    (l.countP fun e => e.act.isDrain) ≤
      3 + 6 * (served hour config.scanLimit waiting).length +
        (2 * l.countP fun e => e.act.isRefused) + 3 * l.countP fun e => e.act.isTrigger
  goesOn : ∀ l g, Works perform config f l g → (∀ e ∈ l, e.Quiet Ready hour) →
    g.GoesOn perform config Ready hour
  drained : ∀ l g passes, Works perform config f l g → (∀ e ∈ l, e.Quiet Ready hour) →
    g.drain = .done passes → Drained V perform config hour waiting f.store l g.store

theorem underway_start {shared shared' : Shared} {d : Drain} {watch : Watch}
    (hstart : Drain.start shared = (some d, shared')) (hholds : Holds start all none) :
    Underway V Holds hour config.scanLimit start all [] all ⟨start, d, shared', watch⟩ ∧
      ∀ tasks, Floor.stepsAhead tasks ⟨start, d, shared', watch⟩ = 3 + 6 * tasks := by
  obtain ⟨⟨running, pending⟩, stats⟩ := shared
  cases running with
  | true => cases hstart
  | false =>
      cases hstart
      have hledger : Ledger V start [] none start := ⟨by simp, fun _ _ => rfl, by simp⟩
      exact ⟨⟨hholds, trivial, rfl, rfl, hledger⟩, fun tasks => rfl⟩

theorem Underway.drained (hkeeps : KeepsQueue V perform Ready Holds)
    (h : Underway V Holds hour config.scanLimit start all l waiting f) {passes : Nat}
    (hdone : f.drain = .done passes) :
    Drained V perform config hour all start l f.store := by
  have hholds := h.holds
  have hsteady := h.steady
  have hexecuted := h.executed
  have hledger := h.ledger
  rw [hdone] at hholds hsteady hexecuted hledger
  have hall : claimed l = Runner.executed l := by
    rw [hexecuted]
    exact List.append_nil _
  rw [hall] at hledger
  refine ⟨?_, fun id hid => hledger.ended id hid (by simp [Drain.current?, Drain.stage?]), hledger.untouched, ?_⟩
  · have hagenda := h.agenda
    rw [Store.served_eq_nil hsteady, hall] at hagenda
    rw [hagenda]
    exact (List.append_nil _).symm
  · intro moment
    refine ⟨_, hkeeps.lists moment config.scanLimit hholds, ?_⟩
    intro t ht
    simpa using List.find?_eq_none.1 hsteady t ht

theorem finishes_of_keeps (hkeeps : KeepsQueue V perform Ready Holds) (hordered : Ordered waiting)
    (hholds : Holds start waiting none) {shared shared' : Shared} {d : Drain} (watch : Watch)
    (hstart : Drain.start shared = (some d, shared')) :
    Finishes V perform config Ready hour waiting ⟨start, d, shared', watch⟩ := by
  obtain ⟨hunderway, hsteps⟩ :
      Underway V Holds hour config.scanLimit start waiting [] waiting ⟨start, d, shared', watch⟩ ∧ _ :=
    underway_start hstart hholds
  have hsub := Store.served_sublist hour config.scanLimit waiting
  refine ⟨hordered.sublist hsub, (hkeeps.nodup hholds).sublist (hsub.map Task.id), ?_, ?_, ?_⟩
  · intro l g hworks hquiet
    obtain ⟨left, hlast⟩ := hunderway.works hkeeps hworks hquiet
    have hlength := congrArg List.length hlast.agenda
    rw [List.length_append, List.length_map, List.length_map] at hlength
    have hsteps' := stepsAhead_works hworks 0
    rw [sum_delay, hsteps] at hsteps'
    simp only [List.nil_append] at hlength
    omega
  · intro l g hworks hquiet
    obtain ⟨left, hlast⟩ := hunderway.works hkeeps hworks hquiet
    exact hlast.goesOn hkeeps
  · intro l g passes hworks hquiet hdone
    obtain ⟨left, hlast⟩ := hunderway.works hkeeps hworks hquiet
    exact hlast.drained hkeeps hdone

/-- In both stores a drain that nobody disturbs finishes its queue in the order of age, whatever the
executors and the hooks do and whatever writes are refused. -/
theorem finishes_queue (config : Config) (hour : Nat) (watch : Watch) {shared shared' : Shared}
    {d : Drain} (hstart : Drain.start shared = (some d, shared')) :
    (∀ m : Memory, m.poisoned = false → m.Unique →
        Finishes Memory.view Memory.perform config (fun _ => True) hour
          (Store.byAge (m.tasks.filter TaskFilter.waiting.matches)) ⟨m, d, shared', watch⟩) ∧
      ∀ rows tasks, Table.Keyed rows → (∀ t ∈ tasks, t.Storable) →
        (rows.filter (·.isAdmitted .waiting)).Perm (tasks.map Row.ofTask) →
        Finishes Table.view Table.perform config Table.Ready hour (Store.byAge tasks)
          ⟨⟨some rows⟩, d, shared', watch⟩ := by
  constructor
  · intro m hopen hunique
    have hordered : Ordered (Store.byAge (m.tasks.filter TaskFilter.waiting.matches)) :=
      Store.ordered_byAge (hunique.sublist (List.filter_sublist.map _))
    exact finishes_of_keeps Memory.keepsQueue hordered
      ⟨hopen, hunique, (Store.perm_byAge _).symm, hordered, by simp⟩ watch hstart
  · intro rows tasks hkeyed hstorable hselected
    have hnodup := hkeyed.nodup_of_selected hselected
    have hperm := Store.perm_byAge tasks
    refine finishes_of_keeps Table.keepsQueue (Store.ordered_byAge hnodup) ⟨rows, rfl, hkeyed, ?_,
      hselected.trans (hperm.map Row.ofTask).symm, Store.ordered_byAge hnodup, by simp⟩ watch hstart
    exact fun t ht => hstorable t (hperm.mem_iff.1 ht)

/-- A runner without a drain, and a store in which two tasks wait. -/
def twoTasks : Memory :=
  Store.final Memory.perform .empty
    [(Store.firstMoment, .enqueue ⟨none, "push", .object []⟩),
     ({ Store.firstMoment with freshId := ⟨2⟩ }, .enqueue ⟨none, "push", .object []⟩)]

theorem storable_twoTasks : ∀ t ∈ twoTasks.tasks, t.Storable := by
  have hmoment : Store.firstMoment.Stampable := ⟨by decide, by decide⟩
  have hpayload : (Json.object []).Readable Json.maxNesting := ⟨trivial, ⟨.nil, trivial⟩, by decide⟩
  have hretries : -retryBound ≤ 0 ∧ 0 < retryBound := by decide
  intro t ht
  rcases List.mem_pair.1 ht with rfl | rfl <;>
    exact ⟨hpayload, TaskResult.storable_empty, hretries.1, hretries.2, hmoment.created,
      hmoment.created⟩

theorem keyed_twoTasks : Table.Keyed (twoTasks.tasks.map Row.ofTask) where
  nodup := by decide
  text := by
    intro r hr
    obtain ⟨t, -, rfl⟩ := List.mem_map.1 hr
    exact ⟨t.id, rfl⟩

/-- In memory the hook of the first task crashes, its reset and a write are refused, and it fails;
both tasks are executed all the same. -/
theorem finishes_queue_twoTasks :
    ∃ d shared l g, Drain.start .idle = (some d, shared) ∧
      (Works Memory.perform .standard ⟨twoTasks, d, shared, .start ⟨0⟩⟩ l g ∧
        (∀ e ∈ l, e.Quiet (fun _ => True) 0) ∧ g.drain = .done 1 ∧ executed l = [⟨1⟩, ⟨2⟩]) ∧
      Finishes Memory.view Memory.perform .standard (fun _ => True) 0
        (Store.byAge (twoTasks.tasks.filter TaskFilter.waiting.matches))
        ⟨twoTasks, d, shared, .start ⟨0⟩⟩ ∧
      Finishes Table.view Table.perform .standard Table.Ready 0 (Store.byAge twoTasks.tasks)
        ⟨⟨some (twoTasks.tasks.map Row.ofTask)⟩, d, shared, .start ⟨0⟩⟩ := by
  have hstart : Drain.start .idle = (some (.opening 1), ⟨⟨true, false⟩, ⟨0, 0, 0⟩⟩) := rfl
  have hworks : Works Memory.perform .standard
      ⟨twoTasks, .opening 1, ⟨⟨true, false⟩, ⟨0, 0, 0⟩⟩, .start ⟨0⟩⟩ _ _ :=
    .cons (.drain 0 rfl (.opening 1) rfl) <|
    .cons (.drain 0 rfl (.claiming 1 Store.firstMoment ⟨⟨0, 0⟩, 0⟩) rfl) <|
    .cons (.drain 0 rfl (.processing 1 0 (.onStart _ .crashed)) rfl) <|
    .cons (.drain 0 rfl (.processing 1 0 (.resetFailed _ .lockPoisoned)) rfl) <|
    .cons (.drain 0 rfl (.processing 1 0 (.execute _ (.failure (.ofMessage "no")))) rfl) <|
    .cons (.drain 0 rfl (.processing 1 0 (.finalizeFailed _ _ _ (e := .lockPoisoned) rfl)) rfl) <|
    .cons (.drain 0 rfl (.processing 1 0 (.wait _)) rfl) <|
    .cons (.drain 0 rfl (.processing 1 0 (.finalize _ _ _ Store.firstMoment)) rfl) <|
    .cons (.drain 0 rfl (.processing 1 0 (.onFinish _ .fine)) rfl) <|
    .cons (.drain 0 rfl (.claiming 1 Store.firstMoment ⟨⟨0, 0⟩, 0⟩) rfl) <|
    .cons (.drain 0 rfl (.processing 1 0 (.onStart _ .fine)) rfl) <|
    .cons (.drain 0 rfl (.processing 1 0 (.reset _ Store.firstMoment)) rfl) <|
    .cons (.drain 0 rfl (.processing 1 0 (.execute _ (.success (.ofLogs ["done"])))) rfl) <|
    .cons (.drain 0 rfl (.processing 1 0 (.finalize _ _ _ Store.firstMoment)) rfl) <|
    .cons (.drain 0 rfl (.processing 1 0 (.onFinish _ .fine)) rfl) <|
    .cons (.drain 0 rfl (.claiming 1 Store.firstMoment ⟨⟨0, 0⟩, 0⟩) rfl) <|
    .cons (.drain 0 rfl (.ending 1) rfl) (.refl _)
  obtain ⟨hmemory, htable⟩ := finishes_queue .standard 0 (.start ⟨0⟩) hstart
  refine ⟨_, _, _, _, hstart, ⟨hworks, ?_, rfl, rfl⟩, hmemory twoTasks rfl ?_,
    htable _ _ keyed_twoTasks storable_twoTasks (.of_eq rfl)⟩
  · rw [List.forall_mem_cons, List.forall_mem_cons]
    refine ⟨trivial, ⟨trivial, rfl, _, rfl⟩, ?_⟩
    iterate 7 refine List.forall_mem_cons.2 ⟨trivial, ?_⟩
    refine List.forall_mem_cons.2 ⟨⟨trivial, rfl, _, rfl⟩, ?_⟩
    iterate 5 refine List.forall_mem_cons.2 ⟨trivial, ?_⟩
    refine List.forall_mem_cons.2 ⟨⟨trivial, rfl, _, rfl⟩, ?_⟩
    exact List.forall_mem_cons.2 ⟨trivial, List.forall_mem_nil _⟩
  · unfold Memory.Unique
    decide

end TaskQueue.Runner
