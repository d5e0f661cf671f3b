import Mathlib.Tactic
import TaskQueue.Proofs.DrainFloor
import TaskQueue.Proofs.MemoryLifecycle
import TaskQueue.Proofs.StoreAgreement
import TaskQueue.Proofs.TableLifecycle

/-!
# Every claimed task is reported once

A task that a drain claims is announced once, executed once and reported once.  The report agrees
with what the run has written: one write of the reported status is in the store and it is the last
one of the run, or the task is reported as deleted and nothing is written.  A run whose writes are
refused goes on until one of them is decided.
-/

namespace TaskQueue.Runner

open Execution (Verdict Watch)
open Store (Memory Moment Request Step Table View)
open Time (ZonedTime)

variable {σ ρ ω : Type}

/-- A call of a run with its reply, and the store before and after it. -/
structure Exchange (σ : Type) where
  call : Call
  reply : call.Reply
  before : σ
  after : σ

namespace Exchange

def isWrite (x : Exchange σ) : Bool :=
  match x.call with
  | .finalize _ _ _ => true
  | _ => false

/-- Whether the exchange is a write that has to be made again. -/
def isRefused (x : Exchange σ) : Bool :=
  x.call.isRefused x.reply

/-- The task and the status of a write that has been made. -/
def written? : Exchange σ → Option (TaskId × Status)
  | ⟨.finalize id _ status, (reply : Except Fault Unit), _, _⟩ =>
    match reply with
    | .ok () => some (id, status)
    | .error _ => none
  | _ => none

/-- A write that has been made is in the store, and one that has not has left it as it was. -/
structure Stored (V : View σ ρ ω) (x : Exchange σ) : Prop where
  made : ∀ id status, x.written? = some (id, status) →
    ∃ a, V.find? x.after id = some a ∧ V.status a = some status
  spared : x.isWrite = true → x.written? = none → x.after = x.before

theorem written_eq_none {x : Exchange σ} (hx : x.isWrite = false) : x.written? = none := by
  obtain ⟨c, reply, before, after⟩ := x
  cases c with
  | finalize => cases hx
  | _ => rfl

theorem Stored.of_isWrite {V : View σ ρ ω} {x : Exchange σ} (hx : x.isWrite = false) :
    x.Stored V where
  made id status hwritten := by
    rw [written_eq_none hx] at hwritten
    cases hwritten
  spared hwrite := by
    rw [hx] at hwrite
    cases hwrite

end Exchange

/-- The status that a report stands for; none if nothing is written. -/
def FinishStatus.status? : FinishStatus → Option Status
  | .succeeded => some .succeeded
  | .failed => some .failed
  | .paused => some .paused
  | .deleted => none

def Call.IsWriteOf (id : TaskId) : Call → Prop
  | .finalize j _ _ => j = id
  | .wait _ => True
  | _ => False

/-- Whether all writes but the last one are refused. -/
def Decided (writes : List (Exchange σ)) : Prop :=
  ∃ refused decisive, writes = refused ++ [decisive] ∧
    (∀ x ∈ refused, x.isRefused = true) ∧ decisive.isRefused = false

/-- The exchanges of a run that has come to its end: after the first calls only writes follow, and
then the report, which agrees with the writes. -/
structure Reported (id : TaskId) (first : List Call) (xs : List (Exchange σ)) (report : Finish) :
    Prop where
  calls : ∃ writes, xs.map Exchange.call = first ++ (writes ++ [.onFinish report]) ∧
    ∀ c ∈ writes, c.IsWriteOf id
  task : report.task = id
  tries : xs.filter Exchange.isWrite = [] ∨ Decided (xs.filter Exchange.isWrite)
  written : xs.filterMap Exchange.written? =
    (report.status.status?.map fun status => (id, status)).toList

/-! ## Runs by themselves -/

/-- Whether a store may give the reply: it does not crash, and it takes a status that ends a task. -/
def Call.Proper : (c : Call) → c.Reply → Prop
  | .reset _, (reply : Except Fault Unit) => ∀ detail, reply ≠ .error (.crash detail)
  | .finalize _ _ status, (reply : Except Fault Unit) =>
    ∀ fault, reply = .error fault → ∃ e, fault = .error e ∧
      (status.isTerminal = true → ∀ name, e ≠ .invalidStatus name)
  | _, _ => True

inductive Runs (config : Config) : Option Stage → List (Exchange σ) → Option Stage → Prop where
  | refl (s : Option Stage) : Runs config s [] s
  | cons {s : Stage} {l : List (Exchange σ)} {r : Option Stage} (timing : Timing)
      (reply : s.call.Reply) (before after : σ) (hproper : s.call.Proper reply)
      (hrest : Runs config (s.next config timing reply).1 l r) :
    Runs config (some s) (⟨s.call, reply, before, after⟩ :: l) r

variable {config : Config} {id : TaskId} {xs : List (Exchange σ)} {report : Finish}
  {V : View σ ρ ω} {perform : σ → Moment → (r : Request) → Step σ r.Answer}

theorem Runs.length_le {s r : Option Stage} (hruns : Runs config s xs r) :
    xs.length + Stage.callsAhead r ≤ Stage.callsAhead s + 2 * xs.countP Exchange.isRefused := by
  induction hruns with
  | refl s => exact Nat.le_of_eq (Nat.add_comm 0 _)
  | cons timing reply before after hproper hrest ih =>
      rename_i s l r
      have hnext := callsAhead_next config timing s reply
      rw [List.length_cons, List.countP_cons]
      change l.length + 1 + _ ≤ _ + 2 * (_ + if s.call.isRefused reply = true then 1 else 0)
      split at hnext
      · rename_i hrefused
        rw [if_pos hrefused]
        omega
      · rename_i hrefused
        rw [if_neg hrefused]
        omega

/-- The write of a run that is yet to be made: it ends the task as the report will say. -/
structure Closing.Faithful (c : Closing) : Prop where
  terminal : c.status.isTerminal = true
  finish : c.disposition.finish.status? = some c.status

theorem resolve_write (w : Watch) (v : Verdict) :
    ((resolve w v).write = none ∧ (resolve w v).finish = .deleted) ∨
      ∃ status p, (resolve w v).write = some (status, p) ∧ status.isTerminal = true ∧
        (resolve w v).finish.status? = some status := by
  unfold resolve
  split
  · exact Or.inl ⟨rfl, rfl⟩
  · exact Or.inr ⟨_, _, rfl, rfl, rfl⟩
  · exact Or.inr ⟨_, _, rfl, rfl, rfl⟩
  · exact Or.inr ⟨_, _, rfl, rfl, rfl⟩

/-- After an execution the end of a deleted task is reported, and the result of any other task is
written first. -/
theorem settled_cases (config : Config) (timing : Timing) (t : Task) (e : Executed) :
    (∃ report, Stage.settled config timing t e = .finishing report ∧ report.task = t.id ∧
        report.status = .deleted) ∨
      ∃ c, Stage.settled config timing t e = .writing c ∧ c.task = t.id ∧ c.Faithful := by
  unfold Stage.settled
  rcases resolve_write e.watch e.verdict with ⟨hwrite, hfinish⟩ | ⟨status, p, hwrite, hends, hfinish⟩
  · simp only [hwrite]
    exact Or.inl ⟨_, rfl, rfl, hfinish⟩
  · simp only [hwrite]
    exact Or.inr ⟨_, rfl, rfl, hends, hfinish⟩

theorem calls_of_finishing (hruns : Runs config (some (.finishing report)) xs none) :
    ∃ x, xs = [x] ∧ x.call = .onFinish report := by
  cases hruns with
  | cons timing reply before after hproper hrest =>
      cases hrest with
      | refl => exact ⟨_, rfl, rfl⟩

namespace Reported

/-- A call before all writes. -/
theorem cons {first : List Call} (h : Reported id first xs report) {x : Exchange σ}
    (hx : x.isWrite = false) : Reported id (x.call :: first) (x :: xs) report := by
  obtain ⟨writes, hcalls, hwrites⟩ := h.calls
  refine ⟨⟨writes, congrArg (List.cons x.call) hcalls, hwrites⟩, h.task, ?_, ?_⟩
  · rw [List.filter_cons_of_neg (by simp [hx])]
    exact h.tries
  · rw [List.filterMap_cons_none (Exchange.written_eq_none hx)]
    exact h.written

/-- One more call among the writes, which stores nothing. -/
theorem unwritten (h : Reported id [] xs report) {x : Exchange σ} (hcall : x.call.IsWriteOf id)
    (hwritten : x.written? = none)
    (htries : (x :: xs).filter Exchange.isWrite = [] ∨ Decided ((x :: xs).filter Exchange.isWrite)) :
    Reported id [] (x :: xs) report := by
  obtain ⟨writes, hcalls, hwrites⟩ := h.calls
  refine ⟨⟨x.call :: writes, ?_, ?_⟩, h.task, htries, ?_⟩
  · exact congrArg (List.cons x.call) hcalls
  · intro c hc
    rcases List.mem_cons.1 hc with rfl | hc
    · exact hcall
    · exact hwrites c hc
  · rw [List.filterMap_cons_none hwritten]
    exact h.written

/-- A write that is decided, and the report after it. -/
theorem decisive (hruns : Runs config (some (.finishing report)) xs none) {x : Exchange σ}
    {p : ResultPatch} {status : Status} (hcall : x.call = .finalize report.task p status)
    (hrefused : x.isRefused = false)
    (hwritten : x.written? = report.status.status?.map fun status => (report.task, status)) :
    Reported report.task [] (x :: xs) report ∧ Decided ((x :: xs).filter Exchange.isWrite) := by
  obtain ⟨last, rfl, hlast⟩ := calls_of_finishing hruns
  have hwrite : x.isWrite = true := by
    unfold Exchange.isWrite
    rw [hcall]
  have hother : last.isWrite = false := by
    unfold Exchange.isWrite
    rw [hlast]
  have hnone := Exchange.written_eq_none hother
  have hfilter : [x, last].filter Exchange.isWrite = [x] := by
    rw [List.filter_cons_of_pos hwrite, List.filter_cons_of_neg (by simp [hother])]
    rfl
  have hdecided : Decided ([x, last].filter Exchange.isWrite) := by
    rw [hfilter]
    exact ⟨[], x, rfl, by simp, hrefused⟩
  refine ⟨⟨⟨[x.call], ?_, ?_⟩, rfl, Or.inr hdecided, ?_⟩, hdecided⟩
  · show [x.call, last.call] = _
    rw [hlast]
    rfl
  · intro c hc
    rw [List.mem_singleton.1 hc, hcall]
    exact rfl
  · rw [← hwritten]
    cases h : x.written? with
    | none => simp [h, hnone]
    | some w => simp [h, hnone]

end Reported

theorem Decided.cons (h : Decided xs) {x : Exchange σ} (hx : x.isRefused = true) :
    Decided (x :: xs) := by
  obtain ⟨refused, decisive, hxs, hrefused, hdecisive⟩ := h
  refine ⟨x :: refused, decisive, by rw [hxs]; rfl, ?_, hdecisive⟩
  intro y hy
  rcases List.mem_cons.1 hy with rfl | hy
  · exact hx
  · exact hrefused y hy

/-- The stages in which a result is to be written. -/
inductive Stage.Writes (c : Closing) : Stage → Prop where
  | writing : Writes c (.writing c)
  | waiting (d : Time.Duration) : Writes c (.waiting d c)

/-- A run that has a result to write makes the write until it is decided, and reports what has
become of it. -/
theorem reported_of_writes {s : Option Stage} (hruns : Runs config s xs none) {stage : Stage}
    {c : Closing} (hs : s = some stage) (hstage : stage.Writes c) (hfaithful : c.Faithful) :
    ∃ report, Reported c.task [] xs report ∧ Decided (xs.filter Exchange.isWrite) := by
  generalize hend : (none : Option Stage) = r at hruns
  -- Writes and waits alternate, and each refused write changes `c`, so both are generalized.
  induction hruns generalizing stage c with
  | refl s =>
      rw [← hend] at hs
      cases hs
  | cons timing reply before after hproper hrest ih =>
      subst hend
      cases hs
      cases hstage with
      | waiting d =>
          obtain ⟨report, hreported, hdecided⟩ := ih rfl .writing hfaithful rfl
          exact ⟨report, hreported.unwritten trivial rfl (Or.inr hdecided), hdecided⟩
      | writing =>
          rcases reply with fault | _
          · obtain ⟨e, rfl, hvalid⟩ := hproper fault rfl
            rcases next_writing_error config timing c e with
              ⟨htransient, delay, attempts, hnext⟩ | ⟨⟨j, rfl⟩, hnext⟩ | ⟨⟨name, rfl⟩, -⟩
            · have hwaiting := ih (c := { c with attempts := attempts }) hnext (.waiting delay)
                ⟨hfaithful.terminal, hfaithful.finish⟩ rfl
              obtain ⟨report, hreported, hdecided⟩ := hwaiting
              have hdecided' := hdecided.cons
                (x := ⟨.finalize c.task c.patch c.status, .error (.error e), before, after⟩)
                htransient
              exact ⟨report, hreported.unwritten rfl rfl (Or.inr hdecided'), hdecided'⟩
            · rw [hnext] at hrest
              exact ⟨_, Reported.decisive hrest rfl rfl rfl⟩
            · exact absurd rfl (hvalid hfaithful.terminal name)
          · refine ⟨_, Reported.decisive hrest rfl rfl ?_⟩
            exact (congrArg (Option.map _) hfaithful.finish).symm

/-- The end of a run, after the execution. -/
theorem reported_of_settled {timing : Timing} {t : Task} {e : Executed}
    (hruns : Runs config (some (.settled config timing t e)) xs none) :
    ∃ report, Reported t.id [] xs report := by
  rcases settled_cases config timing t e with
    ⟨report, hsettled, htask, hdeleted⟩ | ⟨c, hsettled, htask, hfaithful⟩
  · rw [hsettled] at hruns
    obtain ⟨⟨c, reply, before, after⟩, rfl, hcall⟩ := calls_of_finishing hruns
    cases hcall
    refine ⟨report, ⟨[], rfl, by simp⟩, htask, Or.inl rfl, ?_⟩
    rw [hdeleted]
    rfl
  · rw [hsettled] at hruns
    obtain ⟨report, hreported, -⟩ := reported_of_writes hruns rfl .writing hfaithful
    rw [htask] at hreported
    exact ⟨report, hreported⟩

/-- A run that comes to its end is reported. -/
theorem reported_of_runs {t : Task} (hruns : Runs config (some (.starting t)) xs none) :
    ∃ report, Reported t.id [.onStart t, .reset t.id, .execute t] xs report := by
  cases hruns with
  | cons timing₁ reply₁ before₁ after₁ hproper₁ hrest₁ =>
      cases hrest₁ with
      | cons timing₂ reply₂ before₂ after₂ hproper₂ hrest₂ =>
          have hnext := next_resetting config timing₂ t hproper₂
          change Runs config ((Stage.resetting t).next config timing₂ reply₂).1 _ none at hrest₂
          rw [hnext] at hrest₂
          cases hrest₂ with
          | cons timing₃ reply₃ before₃ after₃ hproper₃ hrest₃ =>
              obtain ⟨report, hreported⟩ := reported_of_settled hrest₃
              have hexecuted := hreported.cons (x := ⟨.execute t, reply₃, before₃, after₃⟩) rfl
              have hreset := hexecuted.cons (x := ⟨.reset t.id, reply₂, before₂, after₂⟩) rfl
              exact ⟨report, hreset.cons (x := ⟨.onStart t, reply₁, before₁, after₁⟩) rfl⟩

/-! ## Runs of a drain -/

/-- The call of an entry, if it is one. -/
def Entry.exchange? : Entry σ → Option (Exchange σ)
  | ⟨f, .call c reply, g⟩ => some ⟨c, reply, f.store, g.store⟩
  | _ => none

/-- Whether the drain stays with its task. -/
def Act.isWithin : Act → Bool
  | .turn | .claim _ _ _ => false
  | _ => true

/-- The calls that a drain makes until it goes on to another task. -/
def currentCalls (l : List (Entry σ)) : List (Exchange σ) :=
  (l.takeWhile fun e => e.act.isWithin).filterMap Entry.exchange?

/-- What a run relies on when it writes to a store. -/
structure TakesResults (V : View σ ρ ω) (perform : σ → Moment → (r : Request) → Step σ r.Answer) :
    Prop where
  resets : ∀ s moment id detail,
    (perform s moment (.patch id .runReset)).result ≠ .error (.crash detail)
  makes : ∀ s moment id p status,
    (perform s moment (.finalize id p status)).result = (.ok () : Except Fault Unit) →
    ∃ a, V.find? (perform s moment (.finalize id p status)).store id = some a ∧
      V.status a = some status
  refuses : ∀ s moment id p status fault,
    (perform s moment (.finalize id p status)).result = .error fault →
    (perform s moment (.finalize id p status)).store = s ∧ ∃ e, fault = .error e ∧
      (status.isTerminal = true → ∀ name, e ≠ .invalidStatus name)

variable {f g : Floor σ} {act : Act} {l : List (Entry σ)}

theorem Called.proper (htakes : TakesResults V perform) {c : Call} {reply : c.Reply} {store : σ}
    (hcalled : Called perform f c reply store) :
    c.Proper reply ∧ Exchange.Stored V ⟨c, reply, f.store, store⟩ := by
  cases hcalled with
  | reset id moment => exact ⟨htakes.resets f.store moment id, .of_isWrite rfl⟩
  | resetFailed id e => exact ⟨fun detail => by simp, .of_isWrite rfl⟩
  | finalize id p status moment =>
      have hmakes := htakes.makes f.store moment id p status
      have hrefuses := htakes.refuses f.store moment id p status
      refine ⟨fun fault hfault => (hrefuses fault hfault).2, ?_⟩
      generalize (perform f.store moment (.finalize id p status)).result = reply at hmakes hrefuses
      rcases reply with fault | _
      · constructor
        · intro j status' hwritten
          cases hwritten
        · exact fun _ _ => (hrefuses fault rfl).1
      · constructor
        · intro j status' hwritten
          cases hwritten
          exact hmakes rfl
        · intro _ hwritten
          cases hwritten
  | finalizeFailed id p status htransient =>
      constructor
      · intro fault hfault
        cases hfault
        refine ⟨_, rfl, ?_⟩
        rintro - name rfl
        cases htransient
      · constructor
        · intro j status' hwritten
          cases hwritten
        · exact fun _ _ => rfl
  | _ => exact ⟨trivial, .of_isWrite rfl⟩

/-- What others do is no call of the drain. -/
theorem currentCalls_aside (f g : Floor σ) (l : List (Entry σ)) (hact : act.isDrain = false) :
    act.isWithin = true ∧ currentCalls (⟨f, act, g⟩ :: l) = currentCalls l := by
  unfold currentCalls
  cases act with
  | turn | claim | call => cases hact
  | trigger | poll | request => exact ⟨rfl, rfl⟩

/-- A drain that has come to the end of a task makes no more calls before its next claim. -/
theorem currentCalls_claiming {pass : Nat} (hworks : Works perform config f l g)
    (hdrain : f.drain = .claiming pass) : currentCalls l = [] := by
  induction hworks with
  | refl f => rfl
  | cons hmove hrest ih =>
      rename_i f g h act l
      cases hact : act.isDrain with
      | true =>
          obtain ⟨moment, time, now, answer, rfl, -⟩ := hmove.of_claiming hdrain hact
          rfl
      | false =>
          rw [(currentCalls_aside f g l hact).2]
          exact ih ((hmove.drain_eq hact).trans hdrain)

/-- The calls that a drain makes for its task are those of a run, which is over or in the stage of
the drain. -/
theorem runs_of_works (htakes : TakesResults V perform) {pass began : Nat} {s : Stage}
    (hworks : Works perform config f l g) (hdrain : f.drain = .processing pass began s) :
    (∀ x ∈ currentCalls l, x.Stored V) ∧
      (Runs config (some s) (currentCalls l) none ∨
        ∃ s', Runs config (some s) (currentCalls l) (some s') ∧
          (∀ e ∈ l, e.act.isWithin = true) ∧ g.drain = .processing pass began s') := by
  induction hworks generalizing s with
  | refl f => exact ⟨by simp [currentCalls], Or.inr ⟨s, .refl _, by simp, hdrain⟩⟩
  | cons hmove hrest ih =>
      rename_i f g h act l
      cases hact : act.isDrain with
      | true =>
          obtain ⟨reply, timing, rfl, hcalled, hnext, -⟩ := hmove.of_processing hdrain hact
          obtain ⟨hproper, hstored⟩ := hcalled.proper htakes
          have hcalls : currentCalls (⟨f, .call s.call reply, g⟩ :: l) =
              ⟨s.call, reply, f.store, g.store⟩ :: currentCalls l := rfl
          rw [hcalls]
          cases hstage : (s.next config timing reply).1 with
          | none =>
              rw [hstage] at hnext
              rw [currentCalls_claiming hrest hnext]
              refine ⟨by simpa using hstored, Or.inl (.cons timing reply _ _ hproper ?_)⟩
              rw [hstage]
              exact .refl _
          | some s' =>
              rw [hstage] at hnext
              obtain ⟨hall, hruns⟩ := ih hnext
              refine ⟨List.forall_mem_cons.2 ⟨hstored, hall⟩, ?_⟩
              rcases hruns with hruns | ⟨s'', hruns, hwithin, hlast⟩
              · refine Or.inl (.cons timing reply _ _ hproper ?_)
                rw [hstage]
                exact hruns
              · refine Or.inr ⟨s'', .cons timing reply _ _ hproper ?_, ?_, hlast⟩
                · rw [hstage]
                  exact hruns
                · exact List.forall_mem_cons.2 ⟨rfl, hwithin⟩
      | false =>
          obtain ⟨hall, hruns⟩ := ih ((hmove.drain_eq hact).trans hdrain)
          obtain ⟨hwithin, hcalls⟩ := currentCalls_aside f g l hact
          rw [hcalls]
          refine ⟨hall, hruns.imp id ?_⟩
          rintro ⟨s', hruns, hrest, hlast⟩
          exact ⟨s', hruns, List.forall_mem_cons.2 ⟨hwithin, hrest⟩, hlast⟩

/-- What becomes of a claimed task.  When its run is over, it is reported.  Until then the run goes
on, whatever it is answered, and only writes that are refused make it longer. -/
structure Accounted (V : View σ ρ ω) (perform : σ → Moment → (r : Request) → Step σ r.Answer)
    (config : Config) (t : Task) (l : List (Entry σ)) (g : Floor σ) : Prop where
  stored : ∀ x ∈ currentCalls l, x.Stored V
  ends :
    (∃ report, Reported t.id [.onStart t, .reset t.id, .execute t] (currentCalls l) report) ∨
      ∃ pass began s, g.drain = .processing pass began s ∧ (∀ e ∈ l, e.act.isWithin = true) ∧
        (currentCalls l).length ≤ 4 + 2 * (currentCalls l).countP Exchange.isRefused ∧
          ∀ reply store, Called perform g s.call reply store →
            ∃ h, Moves perform config g (.call s.call reply) h

/-- The drain begins with a task that it is given by a claim. -/
theorem Moves.of_claimed {moment : Moment} {time : ZonedTime} {t : Task}
    (hmove : Moves perform config f (.claim moment time (.ok (some t))) g) :
    ∃ pass began, g.drain = .processing pass began (.starting t) := by
  have hclaiming : ∃ pass, f.drain = .claiming pass := by
    cases hmove with
    | drain now hdrain hanswer hnext =>
        generalize hact : Act.claim moment time (.ok (some t)) = act at hanswer
        cases hanswer with
        | claiming pass => exact ⟨pass, hdrain⟩
        | _ => cases hact
  obtain ⟨pass, hdrain⟩ := hclaiming
  obtain ⟨moment', time', now, answer, hact, hclaimed, -⟩ := hmove.of_claiming hdrain rfl
  cases hact
  exact ⟨pass, now, (Option.some.inj hclaimed).symm⟩

theorem accounted_of_works (htakes : TakesResults V perform) {l₁ l₂ : List (Entry σ)} {e : Entry σ}
    {moment : Moment} {time : ZonedTime} {t : Task}
    (hworks : Works perform config f (l₁ ++ e :: l₂) g)
    (hclaim : e.act = .claim moment time (.ok (some t))) :
    Accounted V perform config t l₂ g := by
  obtain ⟨_, -, hrest⟩ := hworks.split
  cases hrest with
  | cons hmove hrest =>
      cases hclaim
      obtain ⟨pass, began, hdrain⟩ := hmove.of_claimed
      obtain ⟨hstored, hruns⟩ := runs_of_works htakes hrest hdrain
      refine ⟨hstored, hruns.imp reported_of_runs ?_⟩
      rintro ⟨s, hruns, hwithin, hlast⟩
      have hlength := hruns.length_le
      have hpos := callsAhead_pos s
      refine ⟨pass, began, s, hlast, hwithin, ?_, fun reply store => moves_of_called hlast⟩
      rw [show Stage.callsAhead (some (.starting t)) = 5 from rfl] at hlength
      omega

/-! ## Both stores -/

/-- A result is taken if the task is there and the status ends it; otherwise the write is refused
and the store stays as it is. -/
theorem finalize_memory (m : Memory) (moment : Moment) (id : TaskId) (p : ResultPatch)
    (status : Status) :
    (∃ e, m.finalize moment id p status = .fail m e ∧
        (status.isTerminal = true → ∀ name, e ≠ .invalidStatus name)) ∨
      ∃ t, m.find? id = some t ∧ m.finalize moment id p status =
        .done
          (m.replace { t with
            result := t.result.applyFinal p, status := status, updatedAt := moment.now })
          () := by
  unfold Memory.finalize
  split
  · unfold Memory.withTask Memory.locked
    split
    · exact Or.inl ⟨_, rfl, by simp⟩
    · cases hfind : m.find? id with
      | none => exact Or.inl ⟨_, rfl, by simp⟩
      | some t => exact Or.inr ⟨t, rfl, rfl⟩
  · rename_i hstatus
    exact Or.inl ⟨_, rfl, fun h => absurd h hstatus⟩

theorem finalize_table (t : Table) (moment : Moment) (id : TaskId) (p : ResultPatch)
    (status : Status) :
    (∃ e, t.finalize moment id p status = .fail t e ∧
        (status.isTerminal = true → ∀ name, e ≠ .invalidStatus name)) ∨
      ∃ rows row result, t.rows = some rows ∧ Table.findRow? rows id.text = some row ∧
        t.finalize moment id p status =
          .done
            (Table.replaceRow rows { row with
              result := result, status := status.name, updatedAt := moment.now.stamp })
            () := by
  unfold Table.finalize
  split
  · unfold Table.modify Table.withRows
    cases hrows : t.rows with
    | none => exact Or.inl ⟨_, rfl, by simp⟩
    | some rows =>
        simp only
        cases hfind : Table.findRow? rows id.text with
        | none => exact Or.inl ⟨_, rfl, by simp⟩
        | some row =>
            simp only
            cases Store.Row.resultOf? row.result with
            | none => exact Or.inl ⟨_, rfl, by simp⟩
            | some result => exact Or.inr ⟨rows, row, _, rfl, hfind, rfl⟩
  · rename_i hstatus
    exact Or.inl ⟨_, rfl, fun h => absurd h hstatus⟩

theorem takesResults_memory : TakesResults Memory.view Memory.perform where
  resets m moment id detail := by
    show (m.patch moment id .runReset).result ≠ _
    unfold Memory.patch Memory.withTask Memory.locked
    split
    · exact fun h => by cases h
    · split <;> exact fun h => by cases h
  makes m moment id p status hmade := by
    change (m.finalize moment id p status).result = _ at hmade
    show ∃ a, (m.finalize moment id p status).store.find? id = some a ∧ _
    rcases finalize_memory m moment id p status with ⟨e, hstep, -⟩ | ⟨t, hfind, hstep⟩
    · rw [hstep] at hmade
      cases hmade
    · rw [hstep]
      exact ⟨_, Memory.find_replace_self hfind (Memory.mem_of_find hfind).2, rfl⟩
  refuses m moment id p status fault hfault := by
    change (m.finalize moment id p status).result = _ at hfault
    show (m.finalize moment id p status).store = m ∧ _
    rcases finalize_memory m moment id p status with ⟨e, hstep, hvalid⟩ | ⟨t, -, hstep⟩
    · rw [hstep] at hfault ⊢
      cases hfault
      exact ⟨rfl, e, rfl, hvalid⟩
    · rw [hstep] at hfault
      cases hfault

theorem takesResults_table : TakesResults Table.view Table.perform where
  resets t moment id detail := by
    show (t.patch moment id .runReset).result ≠ _
    unfold Table.patch Table.modify Table.withRows
    split
    · exact fun h => by cases h
    · simp only
      split
      · exact fun h => by cases h
      · split <;> exact fun h => by cases h
  makes t moment id p status hmade := by
    change (t.finalize moment id p status).result = _ at hmade
    show ∃ a, Table.view.find? (t.finalize moment id p status).store id = some a ∧ _
    rcases finalize_table t moment id p status with
      ⟨e, hstep, -⟩ | ⟨rows, row, result, hrows, hfind, hstep⟩
    · rw [hstep] at hmade
      cases hmade
    · rw [hstep]
      have hid := (Table.id_of_find hfind).2
      exact ⟨_, Table.find_replaceRow_self hfind hid, Status.ofName?_name status⟩
  refuses t moment id p status fault hfault := by
    change (t.finalize moment id p status).result = _ at hfault
    show (t.finalize moment id p status).store = t ∧ _
    rcases finalize_table t moment id p status with ⟨e, hstep, hvalid⟩ | ⟨_, _, _, -, -, hstep⟩
    · rw [hstep] at hfault ⊢
      cases hfault
      exact ⟨rfl, e, rfl, hvalid⟩
    · rw [hstep] at hfault
      cases hfault

/-- In both stores every task that a drain claims is finished and reported once, whatever the
executor and the hooks do, whatever fails and whatever others ask of the store meanwhile. -/
theorem reported_once (config : Config) :
    (∀ f l₁ e l₂ g moment time t, Works Memory.perform config f (l₁ ++ e :: l₂) g →
        e.act = .claim moment time (.ok (some t)) →
        Accounted Memory.view Memory.perform config t l₂ g) ∧
      ∀ f l₁ e l₂ g moment time t, Works Table.perform config f (l₁ ++ e :: l₂) g →
        e.act = .claim moment time (.ok (some t)) →
        Accounted Table.view Table.perform config t l₂ g :=
  ⟨fun _ _ _ _ _ _ _ _ hworks hclaim => accounted_of_works takesResults_memory hworks hclaim,
    fun _ _ _ _ _ _ _ _ hworks hclaim => accounted_of_works takesResults_table hworks hclaim⟩

/-- A drain that has begun, and a task that waits for it. -/
def waitingFloor : Floor Memory where
  store := (Memory.empty.perform Store.firstMoment (.enqueue ⟨none, "push", .object []⟩)).store
  drain := .claiming 1
  shared := ⟨⟨true, false⟩, ⟨1, 0, 0⟩⟩
  watch := .start ⟨0⟩

/-- The first write of the run fails, the second one is made. -/
theorem reported_once_retried :
    ∃ e l g t, Works Memory.perform .standard waitingFloor ([] ++ e :: l) g ∧
      e.act = .claim Store.firstMoment ⟨⟨0, 0⟩, 0⟩ (.ok (some t)) ∧
      ((currentCalls l).countP Exchange.isRefused = 1 ∧
        (currentCalls l).filterMap Exchange.written? = [(⟨1⟩, .failed)]) ∧
      Accounted Memory.view Memory.perform .standard t l g := by
  have hworks : Works Memory.perform .standard waitingFloor _ _ :=
    .cons (.drain 0 rfl (.claiming 1 Store.firstMoment ⟨⟨0, 0⟩, 0⟩) rfl) <|
    .cons (.drain 0 rfl (.processing 1 0 (.onStart _ .crashed)) rfl) <|
    .cons (.drain 0 rfl (.processing 1 0 (.reset _ Store.firstMoment)) rfl) <|
    .cons (.drain 0 rfl (.processing 1 0 (.execute _ (.failure (.ofMessage "no")))) rfl) <|
    .cons (.drain 0 rfl (.processing 1 0 (.finalizeFailed _ _ _ (e := .lockPoisoned) rfl)) rfl) <|
    .cons (.drain 0 rfl (.processing 1 0 (.wait _)) rfl) <|
    .cons (.drain 0 rfl (.processing 1 0 (.finalize _ _ _ Store.firstMoment)) rfl) <|
    .cons (.drain 0 rfl (.processing 1 0 (.onFinish _ .fine)) rfl) (.refl _)
  exact ⟨_, _, _, _, hworks, rfl, ⟨rfl, rfl⟩,
    (reported_once .standard).1 _ [] _ _ _ _ _ _ hworks rfl⟩

end TaskQueue.Runner
