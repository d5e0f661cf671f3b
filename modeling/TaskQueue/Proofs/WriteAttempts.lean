import Mathlib.Tactic
import TaskQueue.Proofs.DrainFloor

/-!
# The attempts to write a result

A result is written again and again until the store takes it or answers that it never will.  After
every failure the run waits for the delay of that failure.  The first two failures are reported; a
later one is reported if the last report is old enough, and says how many have been passed over
since.
-/

namespace TaskQueue

namespace Execution

/-- A failed attempt: when it failed and with what error, and the number of failures that its report
gives as passed over.  It has no such number if it is passed over itself. -/
structure Setback where
  now : Nat
  error : StoreError
  passed : Option Nat

namespace Setback

/-- What is reported of a failure that comes after a number of others. -/
def notices (s : Setback) (id : TaskId) (status : Status) (policy : RetryPolicy) (earlier : Nat) :
    List Notice :=
  (s.passed.map fun n =>
      .persistFailed id status (earlier + 1) ((policy.delay earlier).millis % 2 ^ 64) n
        s.error).toList

/-- How a failure is to be reported that comes after the others of a list. -/
structure Throttled (interval : Nat) (earlier : List Setback) (s : Setback) : Prop where
  opening : earlier = [] → s.passed = some 0
  first : earlier.length < 2 → s.passed.isSome = true
  later : earlier ≠ [] → ∃ older last silent, earlier = older ++ last :: silent ∧
    last.passed.isSome = true ∧ (∀ x ∈ silent, x.passed = none) ∧
    (∀ n, s.passed = some n → n = silent.length) ∧
    (2 ≤ earlier.length → (s.passed.isSome = true ↔ interval ≤ s.now - last.now))

end Setback

def Throttles (interval : Nat) (failed : List Setback) : Prop :=
  ∀ earlier s rest, failed = earlier ++ s :: rest → s.Throttled interval earlier

/-- The end that an answer puts to the attempts, if it is the answer to the last of so many. -/
def decided? (attempts : Nat) : Except StoreError Unit → Option Persisted
  | .ok () => some (.applied attempts)
  | .error (.taskNotFound _) => some (.gone attempts)
  | .error (.invalidStatus _) => some (.rejected attempts)
  | .error _ => none

def refusal (id : TaskId) : Except StoreError Unit → List Notice
  | .error (.invalidStatus name) => [.persistRefused id name]
  | _ => []

theorem decided_or_transient (attempts : Nat) (answer : Except StoreError Unit) :
    (∃ r, decided? attempts answer = some r) ∨
      ∃ e, answer = .error e ∧ e.isTransient = true := by
  rcases answer with e | _
  · cases e with
    | taskNotFound | invalidStatus => exact Or.inl ⟨_, rfl⟩
    | connection | database | corrupt | lockPoisoned => exact Or.inr ⟨_, rfl, rfl⟩
  · exact Or.inl ⟨_, rfl⟩

namespace Attempts

def setback (a : Attempts) (policy : RetryPolicy) (now : Nat) (e : StoreError) : Setback :=
  ⟨now, e,
    if { a with count := a.count + 1 }.isThrottled policy now then .none else some a.suppressed⟩

def resume (a : Attempts) (s : Setback) : Attempts :=
  match s.passed with
  | .none => ⟨a.count + 1, a.lastReport, a.suppressed + 1⟩
  | some _ => ⟨a.count + 1, some s.now, 0⟩

/-- The failures that are met one after the other. -/
def setbacks (policy : RetryPolicy) : Attempts → List (Nat × StoreError) → List Setback
  | _, [] => []
  | a, (now, e) :: faults =>
    a.setback policy now e :: setbacks policy (a.resume (a.setback policy now e)) faults

variable {a : Attempts} {policy : RetryPolicy} {now : Nat} {id : TaskId} {status : Status}
  {e : StoreError}

@[simp] theorem count_resume (a : Attempts) (s : Setback) : (a.resume s).count = a.count + 1 := by
  unfold resume
  split <;> rfl

/-- No more failures have been passed over than there were. -/
theorem suppressed_resume_le (h : a.suppressed ≤ a.count) (s : Setback) :
    (a.resume s).suppressed ≤ (a.resume s).count := by
  unfold resume
  split
  · exact Nat.succ_le_succ h
  · exact Nat.zero_le _

@[simp] theorem now_setback (a : Attempts) (policy : RetryPolicy) (now : Nat) (e : StoreError) :
    (a.setback policy now e).now = now :=
  rfl

theorem after_transient (a : Attempts) (policy : RetryPolicy) (now : Nat) (id : TaskId)
    (status : Status) (htransient : e.isTransient = true) :
    a.after policy now id status (.error e) =
      (.again (policy.delay a.count) (a.resume (a.setback policy now e)),
        (a.setback policy now e).notices id status policy a.count) := by
  cases e with
  | taskNotFound | invalidStatus => cases htransient
  | connection | database | corrupt | lockPoisoned =>
      unfold after resume setback Setback.notices
      by_cases hthrottled : { a with count := a.count + 1 }.isThrottled policy now = true
      · simp [hthrottled]
      · simp [hthrottled]

theorem after_decided {answer : Except StoreError Unit} {r : Persisted}
    (hanswer : decided? (a.count + 1) answer = some r) :
    a.after policy now id status answer = (.ended r, refusal id answer) := by
  rcases answer with e | _
  · cases e <;> cases hanswer <;> rfl
  · cases hanswer
    rfl

/-! ## What the attempts know of the failures -/

/-- What is known after some failures: how many there were, when the last one was reported, and how
many have been passed over since. -/
inductive Remembers : List Setback → Attempts → Prop where
  | start : Remembers [] .none
  | since (older : List Setback) (last : Setback) (silent : List Setback)
      (hlast : last.passed.isSome = true) (hsilent : ∀ x ∈ silent, x.passed = .none) :
    Remembers (older ++ last :: silent)
      ⟨(older ++ last :: silent).length, some last.now, silent.length⟩

theorem Remembers.count_eq {earlier : List Setback} (h : Remembers earlier a) :
    a.count = earlier.length := by
  cases h <;> rfl

theorem Remembers.resume {earlier : List Setback} (h : Remembers earlier a) (s : Setback)
    (hfirst : earlier = [] → s.passed.isSome = true) :
    Remembers (earlier ++ [s]) (a.resume s) := by
  have hlength : (earlier ++ [s]).length = a.count + 1 := by simp [h.count_eq]
  cases hpassed : s.passed with
  | some n =>
      have hresume : a.resume s = ⟨(earlier ++ [s]).length, some s.now, 0⟩ := by
        unfold Attempts.resume
        rw [hpassed, hlength]
      rw [hresume]
      exact .since earlier s [] (by rw [hpassed]; rfl) (by simp)
  | none =>
      cases h with
      | start =>
          have hsome := hfirst rfl
          rw [hpassed] at hsome
          cases hsome
      | since older last silent hlast hsilent =>
          have hall : ∀ x ∈ silent ++ [s], x.passed = .none := by
            intro x hx
            rcases List.mem_append.1 hx with hx | hx
            · exact hsilent x hx
            · rw [List.mem_singleton.1 hx]
              exact hpassed
          have hnext := Remembers.since older last (silent ++ [s]) hlast hall
          unfold Attempts.resume
          simpa [hpassed, Nat.add_assoc] using hnext

theorem isSome_passed_setback (a : Attempts) (policy : RetryPolicy) (now : Nat) (e : StoreError) :
    (a.setback policy now e).passed.isSome = true ↔
      { a with count := a.count + 1 }.isThrottled policy now = false := by
  unfold setback
  by_cases hthrottled : { a with count := a.count + 1 }.isThrottled policy now = true
  · simp [hthrottled]
  · simp [hthrottled]

theorem isThrottled_of_few (hfew : a.count < 2) (policy : RetryPolicy) (now : Nat) :
    { a with count := a.count + 1 }.isThrottled policy now = false := by
  have hcount : ¬reportedFailures < a.count + 1 := by
    change ¬2 < a.count + 1
    omega
  unfold isThrottled
  simp [hcount]

theorem isThrottled_of_many {count at_ suppressed : Nat} (hmany : 2 ≤ count) :
    Attempts.isThrottled ⟨count + 1, some at_, suppressed⟩ policy now = false ↔
      policy.logInterval.total ≤ now - at_ := by
  have hcount : reportedFailures < count + 1 := Nat.lt_succ_of_le hmany
  unfold isThrottled
  rw [decide_eq_false_iff_not, not_and, Option.any_some, decide_eq_true_eq, not_lt]
  exact ⟨fun h => h hcount, fun h _ => h⟩

theorem Remembers.throttled {earlier : List Setback} (h : Remembers earlier a)
    (policy : RetryPolicy) (now : Nat) (e : StoreError) :
    (a.setback policy now e).Throttled policy.logInterval.total earlier where
  opening hnil := by
    cases h with
    | start =>
        have hopen := isThrottled_of_few (a := .none) (Nat.zero_lt_two) policy now
        unfold setback
        rw [hopen]
        rfl
    | since older last silent hlast hsilent => simp at hnil
  first hfew := by
    rw [← h.count_eq] at hfew
    exact (isSome_passed_setback a policy now e).2 (isThrottled_of_few hfew policy now)
  later hne := by
    cases h with
    | start => exact absurd rfl hne
    | since older last silent hlast hsilent =>
        refine ⟨older, last, silent, rfl, hlast, hsilent, ?_, ?_⟩
        · intro n hn
          unfold setback at hn
          split at hn
          · cases hn
          · cases hn
            rfl
        · intro hmany
          rw [isSome_passed_setback, now_setback]
          exact isThrottled_of_many hmany

theorem throttles_setbacks {earlier : List Setback} (h : Remembers earlier a)
    (faults : List (Nat × StoreError)) {met : List Setback} {s : Setback} {rest : List Setback}
    (hmet : a.setbacks policy faults = met ++ s :: rest) :
    s.Throttled policy.logInterval.total (earlier ++ met) := by
  induction faults generalizing a earlier met with
  | nil => simp [setbacks] at hmet
  | cons fault faults ih =>
      obtain ⟨now, e⟩ := fault
      have hnow := h.throttled policy now e
      have hnext : Remembers (earlier ++ [a.setback policy now e])
          (a.resume (a.setback policy now e)) := by
        refine h.resume _ ?_
        intro hnil
        rw [hnow.opening hnil]
        rfl
      cases met with
      | nil =>
          cases hmet
          simpa using hnow
      | cons first met =>
          have hsplit := List.cons.inj hmet
          rw [← hsplit.1]
          simpa using ih hnext hsplit.2

theorem fault_setbacks (a : Attempts) (policy : RetryPolicy) (faults : List (Nat × StoreError)) :
    (a.setbacks policy faults).map (fun s => (s.now, s.error)) = faults := by
  induction faults generalizing a with
  | nil => rfl
  | cons fault faults ih => exact congrArg (fault :: ·) (ih _)

end Attempts

end Execution

namespace Runner

open Execution (Attempts Persisted Setback Throttles)

/-- A call of a run with its reply, the time when the reply is taken in, and what is reported
then. -/
structure Taken where
  stage : Stage
  reply : stage.call.Reply
  now : Nat
  notices : List Notice

def Taken.heard? : Taken → Option (Nat × Except Fault Unit)
  | ⟨.writing _, (reply : Except Fault Unit), now, _⟩ => some (now, reply)
  | _ => none

/-- The attempts so far, if the call is one of those that write a result. -/
def Taken.attempts? : Taken → Option Attempts
  | ⟨.writing c, _, _, _⟩ | ⟨.waiting _ c, _, _, _⟩ => some c.attempts
  | _ => none

/-- How a run goes from stage to stage; none is its end. -/
inductive Advances (config : Config) (began : Nat) :
    Option Stage → List Taken → Option Stage → Prop where
  | refl (s : Option Stage) : Advances config began s [] s
  | cons {s : Stage} {l : List Taken} {r : Option Stage} (now : Nat) (reply : s.call.Reply)
      (hrest : Advances config began (s.next config ⟨began, now⟩ reply).1 l r) :
    Advances config began (some s)
      (⟨s, reply, now, (s.next config ⟨began, now⟩ reply).2⟩ :: l) r

/-- Writes that fail at certain times, and the answer to the one after them. -/
def heard (faults : List (Nat × StoreError)) (now : Nat) (answer : Except StoreError Unit) :
    List (Nat × Except Fault Unit) :=
  faults.map (fun fault => (fault.1, .error (.error fault.2))) ++ [(now, answer.mapError .error)]

/-- A run from the first write of a result to the last one, the writes being answered so. -/
def Delivers (config : Config) (began : Nat) (c : Closing) (faults : List (Nat × StoreError))
    (now : Nat) (answer : Except StoreError Unit) (l : List Taken) (f : Finish) : Prop :=
  Advances config began (some (.writing c)) l (some (.finishing f)) ∧
    l.filterMap Taken.heard? = heard faults now answer

def Closing.write (c : Closing) : Call :=
  .finalize c.task c.patch c.status

def Closing.failed (c : Closing) (policy : Execution.RetryPolicy) (now : Nat) (e : StoreError) :
    Closing :=
  { c with attempts := c.attempts.resume (c.attempts.setback policy now e) }

/-- A failed write and the wait after it, with what is reported; the failures before it are
counted. -/
def Closing.failedWrite (c : Closing) (policy : Execution.RetryPolicy) :
    Setback × Nat → List (Call × List Notice)
  | (s, earlier) =>
    [(c.write, s.notices c.task c.status policy earlier), (.wait (policy.delay earlier), [])]

/-- The calls of a run from the first write of its result to the last one, with what is reported
after each of them, and the end of it. -/
structure Persists (config : Config) (began : Nat) (c : Closing) (faults : List (Nat × StoreError))
    (now : Nat) (answer : Except StoreError Unit) (r : Persisted) (l : List Taken) (f : Finish) :
    Prop where
  exchanges : ∃ failed, failed.map (fun s => (s.now, s.error)) = faults ∧
    Throttles config.retry.logInterval.total failed ∧
    l.map (fun x => (x.stage.call, x.notices)) =
      failed.zipIdx.flatMap (c.failedWrite config.retry) ++
        [(c.write, Execution.refusal c.task answer)]
  outcome : ∃ a : Attempts, a.count = faults.length ∧
    l.getLast?.map Taken.stage = some (.writing { c with attempts := a }) ∧
    (a.after config.retry now c.task c.status answer).1 = .ended r ∧
    .finishing f = Stage.attempted ⟨began, now⟩ c (.ended r)
  /-- If so many attempts can be counted, none of the counts on the way comes to its bound. -/
  counts : faults.length + 1 < Execution.attemptBound → ∀ x ∈ l, ∀ a, x.attempts? = some a →
    a.suppressed + 1 < Execution.attemptBound ∧ a.count + 1 < Execution.attemptBound

variable {config : Config} {began now : Nat} {c : Closing} {faults : List (Nat × StoreError)}
  {answer : Except StoreError Unit} {r : Persisted} {l : List Taken} {f g : Finish}

theorem next_writing (config : Config) (timing : Timing) (c : Closing)
    (answer : Except StoreError Unit) :
    (Stage.writing c).next config timing (answer.mapError Fault.error : Except Fault Unit) =
      (some (.attempted timing c
          (c.attempts.after config.retry timing.now c.task c.status answer).1),
        (c.attempts.after config.retry timing.now c.task c.status answer).2) := by
  rcases answer with e | _ <;> rfl

theorem attempted_transient (timing : Timing) (c : Closing) {e : StoreError}
    (htransient : e.isTransient = true) :
    Stage.attempted timing c
        (c.attempts.after config.retry timing.now c.task c.status (.error e)).1 =
      .waiting (config.retry.delay c.attempts.count) (c.failed config.retry timing.now e) := by
  rw [Attempts.after_transient _ _ _ _ _ htransient]
  rfl

theorem decided_failed (policy : Execution.RetryPolicy) (at_ : Nat) (e : StoreError) (n : Nat)
    (hanswer : Execution.decided? (c.attempts.count + (n + 1) + 1) answer = some r) :
    Execution.decided? ((c.failed policy at_ e).attempts.count + n + 1) answer = some r := by
  unfold Closing.failed
  rw [Attempts.count_resume, Nat.add_right_comm _ 1]
  exact hanswer

theorem attempted_decided (timing : Timing) (c : Closing) (r : Persisted) :
    ∃ f, Stage.attempted timing c (.ended r) = .finishing f := by
  cases r <;> exact ⟨_, rfl⟩

theorem Advances.write {s : Stage} {t : Option Stage}
    (hnext : Stage.attempted ⟨began, now⟩ c
      (c.attempts.after config.retry now c.task c.status answer).1 = s)
    (hrest : Advances config began (some s) l t) :
    Advances config began (some (.writing c))
      (⟨.writing c, (answer.mapError .error : Except Fault Unit), now,
        (c.attempts.after config.retry now c.task c.status answer).2⟩ :: l) t := by
  subst hnext
  have hwriting := next_writing config ⟨began, now⟩ c answer
  have hcons := Advances.cons (s := .writing c) now (answer.mapError .error : Except Fault Unit)
    (by rw [hwriting]; exact hrest)
  rw [hwriting] at hcons
  exact hcons

theorem advances_finishing (hadvances : Advances config began (some (.finishing f)) l
    (some (.finishing g))) : l = [] ∧ f = g := by
  cases hadvances with
  | refl => exact ⟨rfl, rfl⟩
  | cons now reply hrest => cases hrest

theorem Advances.wait {s : Option Stage} {d : Time.Duration} (later : Nat)
    (hrest : Advances config began (some (.writing c)) l s) :
    Advances config began (some (.waiting d c)) (⟨.waiting d c, (), later, []⟩ :: l) s :=
  .cons (s := .waiting d c) later () hrest

theorem advances_waiting {d : Time.Duration}
    (hadvances : Advances config began (some (.waiting d c)) l (some (.finishing f))) :
    ∃ later rest, l = ⟨.waiting d c, (), later, []⟩ :: rest ∧
      Advances config began (some (.writing c)) rest (some (.finishing f)) := by
  cases hadvances with
  | cons later reply hrest => exact ⟨later, _, rfl, hrest⟩

/-- A run that writes a result hears of one write, and goes on as the answer has it. -/
theorem advances_writing (answer : Except StoreError Unit) {rest : List (Nat × Except Fault Unit)}
    (hadvances : Advances config began (some (.writing c)) l (some (.finishing f)))
    (hheard : l.filterMap Taken.heard? = (now, answer.mapError .error) :: rest) :
    ∃ l', l = ⟨.writing c, (answer.mapError .error : Except Fault Unit), now,
        (c.attempts.after config.retry now c.task c.status answer).2⟩ :: l' ∧
      l'.filterMap Taken.heard? = rest ∧
      Advances config began
        (some (.attempted ⟨began, now⟩ c
          (c.attempts.after config.retry now c.task c.status answer).1))
        l' (some (.finishing f)) := by
  cases hadvances with
  | cons now' reply hrest =>
      rename_i l'
      have hsplit := List.cons.inj hheard
      have hfirst := Prod.mk.inj hsplit.1
      obtain rfl : now' = now := hfirst.1
      obtain rfl : reply = (answer.mapError .error : Except Fault Unit) := hfirst.2
      rw [next_writing] at hrest ⊢
      exact ⟨l', rfl, hsplit.2, hrest⟩

/-- When an answer decides, the run comes to the end of its attempts. -/
theorem delivers_decided
    (hanswer : Execution.decided? (c.attempts.count + 1) answer = some r)
    (hdelivers : Delivers config began c [] now answer l f) :
    l = [⟨.writing c, (answer.mapError .error : Except Fault Unit), now,
        Execution.refusal c.task answer⟩] ∧
      .finishing f = Stage.attempted ⟨began, now⟩ c (.ended r) := by
  obtain ⟨l', rfl, -, hrest⟩ := advances_writing answer hdelivers.1 hdelivers.2
  obtain ⟨g, hg⟩ := attempted_decided ⟨began, now⟩ c r
  rw [Attempts.after_decided hanswer] at hrest ⊢
  rw [hg] at hrest
  obtain ⟨rfl, rfl⟩ := advances_finishing hrest
  exact ⟨rfl, hg.symm⟩

/-- When a write has failed, the run waits and writes again. -/
theorem delivers_transient {at_ : Nat} {e : StoreError} (htransient : e.isTransient = true)
    (hdelivers : Delivers config began c ((at_, e) :: faults) now answer l f) :
    ∃ later l', l =
        ⟨.writing c, (Except.error (.error e) : Except Fault Unit), at_,
          (c.attempts.setback config.retry at_ e).notices c.task c.status config.retry
            c.attempts.count⟩ ::
        ⟨.waiting (config.retry.delay c.attempts.count) (c.failed config.retry at_ e), (), later,
          []⟩ :: l' ∧
      Delivers config began (c.failed config.retry at_ e) faults now answer l' f := by
  obtain ⟨l', rfl, hheard, hrest⟩ := advances_writing (.error e) hdelivers.1 hdelivers.2
  rw [attempted_transient _ _ htransient] at hrest
  obtain ⟨later, rest, rfl, hagain⟩ := advances_waiting hrest
  refine ⟨later, rest, ?_, hagain, hheard⟩
  rw [Attempts.after_transient _ _ _ _ _ htransient]
  rfl

/-- What the writes of a run come to that have failed before, by induction on the failures that are
still to come. -/
theorem exchanges_of_delivers (htransient : ∀ fault ∈ faults, fault.2.isTransient = true)
    (hanswer : Execution.decided? (c.attempts.count + faults.length + 1) answer = some r)
    (hdelivers : Delivers config began c faults now answer l f) :
    ∃ a : Attempts,
      l.map (fun x => (x.stage.call, x.notices)) =
        ((c.attempts.setbacks config.retry faults).zipIdx c.attempts.count).flatMap
          (c.failedWrite config.retry) ++ [(c.write, Execution.refusal c.task answer)] ∧
      a.count = c.attempts.count + faults.length ∧
      l.getLast?.map Taken.stage = some (.writing { c with attempts := a }) ∧
      (a.after config.retry now c.task c.status answer).1 = .ended r ∧
      .finishing f = Stage.attempted ⟨began, now⟩ c (.ended r) := by
  induction faults generalizing c l with
  | nil =>
      obtain ⟨rfl, hf⟩ := delivers_decided hanswer hdelivers
      exact ⟨c.attempts, rfl, rfl, rfl, congrArg Prod.fst (Attempts.after_decided hanswer), hf⟩
  | cons fault faults ih =>
      obtain ⟨at_, e⟩ := fault
      obtain ⟨later, rest, rfl, hagain⟩ :=
        delivers_transient (htransient _ List.mem_cons_self) hdelivers
      obtain ⟨a, hmap, hcount, hlast, hended, hf⟩ :=
        ih (fun fault hfault => htransient fault (List.mem_cons_of_mem _ hfault))
          (decided_failed _ _ _ _ hanswer) hagain
      refine ⟨a, ?_, ?_, ?_, hended, hf⟩
      · rw [List.map_cons, List.map_cons, hmap]
        unfold Closing.failed
        rw [Attempts.count_resume]
        rfl
      · unfold Closing.failed at hcount
        rw [hcount, Attempts.count_resume, List.length_cons]
        omega
      · cases rest with
        | nil => cases hlast
        | cons x rest =>
            rw [List.getLast?_cons_cons, List.getLast?_cons_cons]
            exact hlast

/-- The attempts of a call that writes count no more failures than there are, and no more of them as
passed over. -/
theorem counts_of_delivers (htransient : ∀ fault ∈ faults, fault.2.isTransient = true)
    (hanswer : Execution.decided? (c.attempts.count + faults.length + 1) answer = some r)
    (hsuppressed : c.attempts.suppressed ≤ c.attempts.count)
    (hdelivers : Delivers config began c faults now answer l f) :
    ∀ x ∈ l, ∀ a, x.attempts? = some a →
      a.suppressed ≤ a.count ∧ a.count ≤ c.attempts.count + faults.length := by
  induction faults generalizing c l with
  | nil =>
      obtain ⟨rfl, -⟩ := delivers_decided hanswer hdelivers
      rw [List.forall_mem_singleton]
      rintro a ⟨⟩
      exact ⟨hsuppressed, le_rfl⟩
  | cons fault faults ih =>
      obtain ⟨at_, e⟩ := fault
      obtain ⟨later, rest, rfl, hagain⟩ :=
        delivers_transient (htransient _ List.mem_cons_self) hdelivers
      have hnext : (c.failed config.retry at_ e).attempts.count = c.attempts.count + 1 :=
        Attempts.count_resume _ _
      have hsuppressed' := Attempts.suppressed_resume_le hsuppressed
        (c.attempts.setback config.retry at_ e)
      have hrest := ih (fun fault hfault => htransient fault (List.mem_cons_of_mem _ hfault))
        (decided_failed _ _ _ _ hanswer) hsuppressed' hagain
      rw [hnext, Nat.add_right_comm, Nat.add_assoc, ← List.length_cons] at hrest
      rw [List.forall_mem_cons, List.forall_mem_cons]
      refine ⟨?_, ?_, hrest⟩
      · rintro a ⟨⟩
        exact ⟨hsuppressed, Nat.le_add_right _ _⟩
      · rintro a ⟨⟩
        refine ⟨hsuppressed', ?_⟩
        rw [hnext, List.length_cons]
        omega

theorem persists_of_delivers (htransient : ∀ fault ∈ faults, fault.2.isTransient = true)
    (hfresh : c.attempts = .none)
    (hanswer : Execution.decided? (faults.length + 1) answer = some r)
    (hdelivers : Delivers config began c faults now answer l f) :
    Persists config began c faults now answer r l f := by
  have hcount : c.attempts.count = 0 := by
    rw [hfresh]
    rfl
  have hanswer' : Execution.decided? (c.attempts.count + faults.length + 1) answer = some r := by
    rw [hcount, Nat.zero_add]
    exact hanswer
  obtain ⟨a, hmap, htries, hlast, hended, hf⟩ :=
    exchanges_of_delivers htransient hanswer' hdelivers
  have hsuppressed : c.attempts.suppressed ≤ c.attempts.count := by
    rw [hfresh]
    exact le_rfl
  have hcounts := counts_of_delivers htransient hanswer' hsuppressed hdelivers
  rw [hcount] at hmap htries hcounts
  refine ⟨⟨c.attempts.setbacks config.retry faults, ?_, ?_, hmap⟩,
    ⟨a, htries.trans (Nat.zero_add _), hlast, hended, hf⟩, ?_⟩
  · exact Attempts.fault_setbacks _ _ _
  · intro earlier s rest hsplit
    rw [hfresh] at hsplit
    simpa using Attempts.throttles_setbacks .start faults hsplit
  · intro hbound x hx a ha
    obtain ⟨hless, hmost⟩ := hcounts x hx a ha
    omega

theorem Persists.calls (h : Persists config began c faults now answer r l f) :
    ∃ failed : List (Setback × Nat), failed.length = faults.length ∧
      l.map (fun x => x.stage.call) =
        (failed.flatMap (c.failedWrite config.retry)).map Prod.fst ++ [c.write] := by
  obtain ⟨failed, hfaults, -, hexchanges⟩ := h.exchanges
  refine ⟨failed.zipIdx, by rw [← hfaults]; simp, ?_⟩
  have hfirst := congrArg (List.map Prod.fst) hexchanges
  rw [List.map_map, List.map_append] at hfirst
  exact hfirst

/-- However often a write fails, the run gets to the answer that decides. -/
theorem exists_delivers (config : Config) (began now : Nat)
    (htransient : ∀ fault ∈ faults, fault.2.isTransient = true)
    (hanswer : Execution.decided? (c.attempts.count + faults.length + 1) answer = some r) :
    ∃ l f, Delivers config began c faults now answer l f := by
  induction faults generalizing c with
  | nil =>
      have hended : (c.attempts.after config.retry now c.task c.status answer).1 = .ended r :=
        congrArg Prod.fst (Attempts.after_decided hanswer)
      obtain ⟨f, hf⟩ := attempted_decided ⟨began, now⟩ c r
      rw [← hended] at hf
      refine ⟨_, f, .write hf (.refl _), ?_⟩
      rfl
  | cons fault faults ih =>
      obtain ⟨at_, e⟩ := fault
      have hnow : e.isTransient = true := htransient _ List.mem_cons_self
      obtain ⟨l, f, hadvances, hheard⟩ :=
        ih (c := c.failed config.retry at_ e)
          (fun fault hfault => htransient fault (List.mem_cons_of_mem _ hfault))
          (decided_failed _ _ _ _ hanswer)
      refine ⟨_, f, .write (attempted_transient ⟨began, at_⟩ c hnow) (.wait at_ hadvances), ?_⟩
      exact congrArg ((at_, .error (.error e)) :: ·) hheard

/-- A result is written again and again until an answer decides: the run makes one call more than
there are failures, always the same, and waits for the delays of the failures in turn. -/
theorem writes_until_decided (config : Config) (began : Nat) (task : TaskId) (d : Disposition)
    (p : ResultPatch) (status : Status) (faults : List (Nat × StoreError)) (now : Nat)
    (answer : Except StoreError Unit) (r : Persisted)
    (htransient : ∀ fault ∈ faults, fault.2.isTransient = true)
    (hanswer : Execution.decided? (faults.length + 1) answer = some r) :
    let c : Closing := ⟨task, d, p, status, .none⟩
    (∃ l f, Delivers config began c faults now answer l f) ∧
      ∀ l f, Delivers config began c faults now answer l f →
        Persists config began c faults now answer r l f := by
  intro c
  constructor
  · refine exists_delivers config began now htransient (r := r) ?_
    rw [show c.attempts.count = 0 from rfl, Nat.zero_add]
    exact hanswer
  · exact fun l f hdelivers => persists_of_delivers htransient rfl hanswer hdelivers

/-- Four failures, of which the third comes soon after the second, and the task is gone. -/
theorem writes_until_decided_gone :
    let faults : List (Nat × StoreError) :=
      [(0, .database), (10 ^ 9, .lockPoisoned), (2 * 10 ^ 9, .database), (31 * 10 ^ 9, .database)]
    let c : Closing := ⟨⟨1⟩, ⟨.succeeded, none, none, none⟩, .empty, .succeeded, .none⟩
    (∀ fault ∈ faults, fault.2.isTransient = true) ∧
      Execution.decided? 5 (.error (.taskNotFound ⟨1⟩)) = some (.gone 5) ∧
      faults.length + 1 < Execution.attemptBound ∧
      (c.attempts.setbacks Config.standard.retry faults).map Setback.passed =
        [some 0, some 0, none, some 1] ∧
      ∃ l f, Delivers Config.standard 0 c faults (32 * 10 ^ 9) (.error (.taskNotFound ⟨1⟩)) l f ∧
        Persists Config.standard 0 c faults (32 * 10 ^ 9) (.error (.taskNotFound ⟨1⟩)) (.gone 5) l
          f := by
  intro faults c
  have htransient : ∀ fault ∈ faults, fault.2.isTransient = true := by decide
  obtain ⟨⟨l, f, hdelivers⟩, hpersists⟩ :=
    writes_until_decided Config.standard 0 ⟨1⟩ ⟨.succeeded, none, none, none⟩ .empty .succeeded
      faults (32 * 10 ^ 9) (.error (.taskNotFound ⟨1⟩)) (.gone 5) htransient rfl
  exact ⟨htransient, rfl, by decide, by decide, l, f, hdelivers, hpersists l f hdelivers⟩

end Runner

end TaskQueue
