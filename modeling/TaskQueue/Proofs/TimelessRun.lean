import Mathlib.Tactic
import TaskQueue.Proofs.WriteAttempts

/-!
# Runs that differ in time only

What a run does depends on what it hears, not on when it hears it.  Time decides which failures are
reported and is told at the end; two runs that are at the same point and hear the same make the same
calls, but for the time that is told.
-/

namespace TaskQueue

open Execution (Attempts)

namespace Runner

/-! ## What is left without the times -/

def Finish.timeless (f : Finish) : Finish :=
  { f with elapsedMs := 0 }

def Closing.timeless (c : Closing) : Closing :=
  { c with attempts := ⟨c.attempts.count, none, 0⟩ }

def Stage.timeless : Stage → Stage
  | .writing c => .writing c.timeless
  | .waiting d c => .waiting d c.timeless
  | .finishing f => .finishing f.timeless
  | s => s

def Call.timeless : Call → Call
  | .onFinish f => .onFinish f.timeless
  | c => c

inductive Response where
  | hook (reply : HookReply)
  | stored (reply : Except Fault Unit)
  | executed (e : Executed)
  | waited

def Call.response : (c : Call) → c.Reply → Response
  | .onStart _, (reply : HookReply) => .hook reply
  | .reset _, (reply : Except Fault Unit) => .stored reply
  | .execute _, (e : Executed) => .executed e
  | .finalize _ _ _, (reply : Except Fault Unit) => .stored reply
  | .wait _, _ => .waited
  | .onFinish _, (reply : HookReply) => .hook reply

def Taken.response (x : Taken) : Response :=
  x.stage.call.response x.reply

variable {config : Config} {timing timing' : Timing} {began began' : Nat} {s s' : Stage}
  {c c' : Closing} {l l' : List Taken}

theorem timeless_call (s : Stage) : s.timeless.call.timeless = s.call.timeless := by
  cases s <;> rfl

theorem call_timeless_congr (h : s.timeless = s'.timeless) :
    s.call.timeless = s'.call.timeless := by
  rw [← timeless_call s, ← timeless_call s', h]

theorem Closing.parts_of_timeless (h : c.timeless = c'.timeless) :
    c.task = c'.task ∧ c.disposition = c'.disposition ∧ c.patch = c'.patch ∧
      c.status = c'.status ∧ c.attempts.count = c'.attempts.count := by
  unfold timeless at h
  simp only [Closing.mk.injEq, Attempts.mk.injEq, and_true] at h
  exact h

/-! ## One step of two runs -/

theorem timeless_failed (h : c.timeless = c'.timeless) (policy : Execution.RetryPolicy)
    (now now' : Nat) (e : StoreError) :
    (c.failed policy now e).timeless = (c'.failed policy now' e).timeless := by
  obtain ⟨htask, hdisposition, hpatch, hstatus, hcount⟩ := Closing.parts_of_timeless h
  unfold Closing.failed Closing.timeless
  simp [htask, hdisposition, hpatch, hstatus, hcount]

theorem timeless_attempted (config : Config) (h : c.timeless = c'.timeless)
    (timing timing' : Timing) (answer : Except StoreError Unit) :
    (Stage.attempted timing c
        (c.attempts.after config.retry timing.now c.task c.status answer).1).timeless =
      (Stage.attempted timing' c'
        (c'.attempts.after config.retry timing'.now c'.task c'.status answer).1).timeless := by
  obtain ⟨htask, hdisposition, -, -, hcount⟩ := Closing.parts_of_timeless h
  rcases Execution.decided_or_transient (c.attempts.count + 1) answer with
    ⟨r, hr⟩ | ⟨e, rfl, htransient⟩
  · have hr' : Execution.decided? (c'.attempts.count + 1) answer = some r := by
      rw [← hcount]
      exact hr
    rw [Attempts.after_decided hr, Attempts.after_decided hr']
    cases r <;> simp only [Stage.attempted, htask, hdisposition] <;> rfl
  · rw [attempted_transient _ _ htransient, attempted_transient _ _ htransient, hcount]
    exact congrArg (Stage.waiting _) (timeless_failed h _ _ _ _)

theorem timeless_settled (config : Config) (timing timing' : Timing) (t : Task) (e : Executed) :
    (Stage.settled config timing t e).timeless = (Stage.settled config timing' t e).timeless := by
  unfold Stage.settled
  simp only
  split <;> rfl

theorem timeless_next_writing (config : Config) (h : c.timeless = c'.timeless)
    (timing timing' : Timing) (reply : Except Fault Unit) :
    ((Stage.writing c).next config timing reply).1.map Stage.timeless =
      ((Stage.writing c').next config timing' reply).1.map Stage.timeless := by
  rcases reply with (e | detail) | ⟨⟩
  · exact congrArg some (timeless_attempted config h timing timing' (.error e))
  · rfl
  · exact congrArg some (timeless_attempted config h timing timing' (.ok ()))

/-- Two runs at the same point that hear the same go on to the same point. -/
theorem timeless_next (config : Config) (h : s.timeless = s'.timeless) (timing timing' : Timing)
    {reply : s.call.Reply} {reply' : s'.call.Reply}
    (hreply : s.call.response reply = s'.call.response reply') :
    (s.next config timing reply).1.map Stage.timeless =
      (s'.next config timing' reply').1.map Stage.timeless := by
  cases s with
  | starting t =>
      cases s' with
      | starting t' =>
          cases h
          rfl
      | _ => cases h
  | resetting t =>
      cases s' with
      | resetting t' =>
          cases h
          cases hreply
          rcases reply with (e | detail) | ⟨⟩ <;> rfl
      | _ => cases h
  | executing t =>
      cases s' with
      | executing t' =>
          cases h
          cases hreply
          exact congrArg some (timeless_settled config timing timing' t reply)
      | _ => cases h
  | writing c =>
      cases s' with
      | writing c' =>
          cases hreply
          exact timeless_next_writing config (Stage.writing.inj h) timing timing' reply
      | _ => cases h
  | waiting d c =>
      cases s' with
      | waiting d' c' => exact congrArg (some ∘ Stage.writing) (Stage.waiting.inj h).2
      | _ => cases h
  | finishing f =>
      cases s' with
      | finishing f' => rfl
      | _ => cases h

/-! ## Whole runs -/

/-- Two runs from the same point that hear the same make the same calls and get to the same
point. -/
theorem timeless_advances {s r s' r' : Option Stage}
    (hs : s.map Stage.timeless = s'.map Stage.timeless)
    (hadvances : Advances config began s l r) (hadvances' : Advances config began' s' l' r')
    (hheard : l.map Taken.response = l'.map Taken.response) :
    l.map (fun x => x.stage.call.timeless) = l'.map (fun x => x.stage.call.timeless) ∧
      r.map Stage.timeless = r'.map Stage.timeless := by
  induction hadvances generalizing s' l' with
  | refl s =>
      cases hadvances' with
      | refl => exact ⟨rfl, hs⟩
      | cons now reply hrest => cases hheard
  | cons now reply hrest ih =>
      cases hadvances' with
      | refl => cases hheard
      | cons now' reply' hrest' =>
          have hstage := Option.some.inj hs
          have hsplit := List.cons.inj hheard
          have hnext := timeless_next config hstage ⟨began, now⟩ ⟨began', now'⟩ hsplit.1
          obtain ⟨hcalls, hend⟩ := ih hnext hrest' hsplit.2
          exact ⟨congrArg₂ List.cons (call_timeless_congr hstage) hcalls, hend⟩

end Runner

end TaskQueue
