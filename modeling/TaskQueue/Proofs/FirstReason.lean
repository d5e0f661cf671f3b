import Mathlib.Tactic
import TaskQueue.Runner.Disposition

/-!
# The first reason to stop

A watch looks at its task and the runner records reasons of its own, one step at a time and in any
order.  Both write to one place.  Whoever writes first decides, and whoever writes later is told.

A round of the watch has several steps: it asks, hears the answer, records the reason that the answer
gives, and then cancels the execution.  The runner may act between any two of them.  A watch that is
called off gives up where it waits, for the next round or for an answer, and nowhere else.
-/

namespace TaskQueue.Execution

/-- The answers that tell a task to stop: it is gone, or it is paused, archived or not. -/
inductive Decides : Except Fault (Option ControlState) → AbortReason → Prop where
  | missing : Decides (.ok none) .deleted
  | paused (archived : Bool) : Decides (.ok (some ⟨.paused, archived⟩)) .paused

theorem detected_eq_some_iff {state : Option ControlState} {r : AbortReason} :
    detected state = some r ↔ Decides (.ok state) r := by
  constructor
  · intro h
    rcases state with _ | ⟨status, archived⟩
    · cases h
      exact .missing
    · unfold detected at h
      dsimp only at h
      split_ifs at h with hpaused
      cases h
      cases hpaused
      exact .paused archived
  · intro h
    cases h with
    | missing => rfl
    | paused archived => rfl

theorem Decides.unique {answer : Except Fault (Option ControlState)} {r r' : AbortReason}
    (h : Decides answer r) (h' : Decides answer r') : r = r' := by
  cases h <;> cases h' <;> rfl

/-- Where a watch is between two of its steps. -/
inductive Post where
  | waiting
  | asking
  /-- An answer has given a reason, which is not recorded yet. -/
  | found (r : AbortReason)
  /-- A reason is recorded, and the execution is not cancelled yet. -/
  | noted
  | gone

/-- Whether the watch has heard enough, or is gone. -/
def Post.IsPast : Post → Prop
  | .waiting | .asking => False
  | _ => True

/-- A watch in the course of its rounds. -/
structure Lookout where
  watch : Watch
  post : Post

/-- What is seen of a watch and of the runner. -/
inductive Sight where
  | asked
  | heard (answer : Except Fault (Option ControlState))
  | noted (r : AbortReason)
  | cancelled
  | calledOff
  /-- The runner records a reason and is told which one holds. -/
  | recorded (r given : AbortReason)

/-- The reason that somebody wants to record. -/
def Sight.written? : Sight → Option AbortReason
  | .noted r | .recorded r _ => some r
  | _ => none

/-- Whether a watch is seen to look at its task, or to give up looking. -/
def Sight.isLook : Sight → Bool
  | .asked | .heard _ | .calledOff => true
  | _ => false

/-- Whether a watch is seen to stop its task. -/
def Sight.isDeed : Sight → Bool
  | .heard (.ok state) => (detected state).isSome
  | .noted _ | .cancelled => true
  | _ => false

theorem Decides.isDeed {answer : Except Fault (Option ControlState)} {r : AbortReason}
    (h : Decides answer r) : (Sight.heard answer).isDeed = true := by
  cases h <;> rfl

/-- Whether some answer told the task to stop, and why. -/
def Finds (l : List Sight) (r : AbortReason) : Prop :=
  ∃ answer, .heard answer ∈ l ∧ Decides answer r

theorem Watch.reason_record (w : Watch) (r : AbortReason) :
    (w.record r).2.reason = w.reason.or (some r) := by
  unfold record
  cases hreason : w.reason with
  | none => rfl
  | some first => exact hreason

theorem Watch.cancelled_record (w : Watch) (r : AbortReason) :
    (w.record r).2.cancelled = w.cancelled := by
  unfold record
  split <;> rfl

theorem Watch.vigil_record (w : Watch) (r : AbortReason) : (w.record r).2.vigil = w.vigil := by
  unfold record
  split <;> rfl

namespace Lookout

def start (task : TaskId) : Lookout :=
  ⟨.start task, .waiting⟩

/-- A watch that has heard an answer.  It does not survive a crash. -/
def hear (w : Watch) : Except Fault (Option ControlState) → Lookout
  | .error (.crash _) => ⟨{ w with vigil := .crashed }, .gone⟩
  | .error (.error _) => ⟨w, .waiting⟩
  | .ok state =>
    match detected state with
    | none => ⟨w, .waiting⟩
    | some r => ⟨w, .found r⟩

/-- What can happen next. -/
inductive Move : Lookout → Sight → Lookout → Prop where
  | ask (w : Watch) : Move ⟨w, .waiting⟩ .asked ⟨w, .asking⟩
  | hear (w : Watch) (answer : Except Fault (Option ControlState)) :
    Move ⟨w, .asking⟩ (.heard answer) (hear w answer)
  | note (w : Watch) (r : AbortReason) :
    Move ⟨w, .found r⟩ (.noted r) ⟨(w.record r).2, .noted⟩
  | cancel (w : Watch) :
    Move ⟨w, .noted⟩ .cancelled ⟨{ w with cancelled := true, vigil := .ended }, .gone⟩
  | stopWaiting (w : Watch) : Move ⟨w, .waiting⟩ .calledOff ⟨w, .gone⟩
  | stopAsking (w : Watch) : Move ⟨w, .asking⟩ .calledOff ⟨w, .gone⟩
  | record (w : Watch) (post : Post) (r : AbortReason) :
    Move ⟨w, post⟩ (.recorded r (w.record r).1) ⟨(w.record r).2, post⟩

/-- Steps one after the other, and what is seen of them. -/
inductive Run : Lookout → List Sight → Lookout → Prop where
  | refl (s : Lookout) : Run s [] s
  | cons {s t u : Lookout} {e : Sight} {l : List Sight} (hmove : Move s e t) (hrest : Run t l u) :
    Run s (e :: l) u

/-- What a watch has done to stop its task, going by where it is: nothing as long as no answer has
decided, then one thing after the other. -/
inductive Story : Post → List Sight → Prop where
  | waiting : Story .waiting []
  | asking : Story .asking []
  | found {answer : Except Fault (Option ControlState)} {r : AbortReason}
      (h : Decides answer r) : Story (.found r) [.heard answer]
  | noted {answer : Except Fault (Option ControlState)} {r : AbortReason}
      (h : Decides answer r) : Story .noted [.heard answer, .noted r]
  | calledOff : Story .gone []
  | cancelled {answer : Except Fault (Option ControlState)} {r : AbortReason}
      (h : Decides answer r) : Story .gone [.heard answer, .noted r, .cancelled]

variable {s t u : Lookout} {e : Sight} {l before after : List Sight} {r : AbortReason}
  {answer : Except Fault (Option ControlState)}

theorem Run.split (h : Run s (before ++ after) u) : ∃ t, Run s before t ∧ Run t after u := by
  induction before generalizing s with
  | nil => exact ⟨s, .refl s, h⟩
  | cons e before ih =>
      cases h with
      | cons hmove hrest =>
          obtain ⟨t, hbefore, hafter⟩ := ih hrest
          exact ⟨t, .cons hmove hbefore, hafter⟩

/-! ## Who writes first -/

theorem watch_hear (w : Watch) (answer : Except Fault (Option ControlState)) :
    (hear w answer).watch.reason = w.reason ∧ (hear w answer).watch.cancelled = w.cancelled := by
  unfold hear
  split
  · exact ⟨rfl, rfl⟩
  · exact ⟨rfl, rfl⟩
  · split <;> exact ⟨rfl, rfl⟩

/-- A step writes a reason where there is none yet. -/
theorem Move.reason (h : Move s e t) : t.watch.reason = s.watch.reason.or e.written? := by
  cases h with
  | hear w answer =>
      rw [(watch_hear w answer).1]
      exact (Option.or_none).symm
  | note w r => exact w.reason_record r
  | record w post r => exact w.reason_record r
  | _ => exact (Option.or_none).symm

/-- The reason that holds is the first one that anybody wrote. -/
theorem Run.reason (h : Run s l t) :
    t.watch.reason = s.watch.reason.or (l.filterMap Sight.written?).head? := by
  induction h with
  | refl s => exact (Option.or_none).symm
  | @cons s t u e l hmove _ ih =>
      rw [ih, hmove.reason, Option.or_assoc]
      cases hwritten : e.written? with
      | none => rw [List.filterMap_cons_none hwritten, Option.none_or]
      | some r => rw [List.filterMap_cons_some hwritten, Option.some_or, List.head?_cons]

theorem Run.reason_kept (h : Run s l t) (hreason : s.watch.reason = some r) :
    t.watch.reason = some r := by
  rw [h.reason, hreason, Option.some_or]

theorem Run.given_eq (h : Run s l t) (hreason : s.watch.reason = some r) {r' given : AbortReason}
    (hrecorded : .recorded r' given ∈ l) : given = r := by
  obtain ⟨before, after, rfl⟩ := List.append_of_mem hrecorded
  obtain ⟨u, hbefore, hafter⟩ := h.split
  have hheld := hbefore.reason_kept hreason
  cases hafter with
  | cons hmove _ =>
      cases hmove with
      | record w post r' =>
          unfold Watch.record
          rw [hheld]

/-! ## What the watch does -/

theorem Story.hear (w : Watch) (answer : Except Fault (Option ControlState)) :
    Story (hear w answer).post ([.heard answer].filter Sight.isDeed) := by
  unfold Lookout.hear
  split
  · exact .calledOff
  · exact .waiting
  · next state =>
      cases hdetected : detected state with
      | none =>
          have hdeed : (Sight.heard (.ok state)).isDeed = false := by
            simp [Sight.isDeed, hdetected]
          rw [List.filter_cons_of_neg (by simp [hdeed])]
          exact .waiting
      | some r =>
          have hdecides := detected_eq_some_iff.1 hdetected
          rw [List.filter_cons_of_pos hdecides.isDeed]
          exact .found hdecides

theorem Move.story (h : Move s e t) {deeds : List Sight} (hstory : Story s.post deeds) :
    Story t.post (deeds ++ [e].filter Sight.isDeed) := by
  cases h with
  | ask w =>
      cases hstory
      exact .asking
  | hear w answer =>
      cases hstory
      exact .hear w answer
  | note w r =>
      cases hstory with
      | found hdecides => exact .noted hdecides
  | cancel w =>
      cases hstory with
      | noted hdecides => exact .cancelled hdecides
  | stopWaiting w =>
      cases hstory
      exact .calledOff
  | stopAsking w =>
      cases hstory
      exact .calledOff
  | record w post r =>
      have hnothing : [Sight.recorded r (w.record r).1].filter Sight.isDeed = [] := rfl
      rwa [hnothing, List.append_nil]

theorem Run.story (h : Run s l t) {deeds : List Sight} (hstory : Story s.post deeds) :
    Story t.post (deeds ++ l.filter Sight.isDeed) := by
  induction h generalizing deeds with
  | refl s => rwa [List.filter_nil, List.append_nil]
  | @cons s t u e l hmove _ ih =>
      have hnext := ih (hmove.story hstory)
      rwa [List.append_assoc, ← List.filter_append, List.singleton_append] at hnext

theorem Run.story_start {task : TaskId} (h : Run (start task) l t) :
    Story t.post (l.filter Sight.isDeed) :=
  h.story .waiting

theorem Move.cancelled_iff (h : Move s e t) :
    t.watch.cancelled = true ↔ s.watch.cancelled = true ∨ e = .cancelled := by
  cases h with
  | hear w answer => simp [(watch_hear w answer).2]
  | note w r => simp [w.cancelled_record]
  | record w post r => simp [w.cancelled_record]
  | _ => simp

theorem Run.cancelled_iff (h : Run s l t) :
    t.watch.cancelled = true ↔ s.watch.cancelled = true ∨ .cancelled ∈ l := by
  induction h with
  | refl s => simp
  | @cons s t u e l hmove _ ih =>
      rw [ih, hmove.cancelled_iff, List.mem_cons, or_assoc, eq_comm (a := e)]

/-- A watch that is past its rounds does not look any more. -/
theorem Move.past (h : Move s e t) (hpast : s.post.IsPast) :
    t.post.IsPast ∧ e.isLook = false := by
  cases h with
  | note w r => exact ⟨trivial, rfl⟩
  | cancel w => exact ⟨trivial, rfl⟩
  | record w post r => exact ⟨hpast, rfl⟩
  | _ => exact hpast.elim

theorem Run.past (h : Run s l t) (hpast : s.post.IsPast) : ∀ e ∈ l, e.isLook = false := by
  induction h with
  | refl s => exact fun e he => absurd he List.not_mem_nil
  | cons hmove _ ih =>
      obtain ⟨hnext, hseen⟩ := hmove.past hpast
      exact List.forall_mem_cons.2 ⟨hseen, ih hnext⟩

/-- A watch that was told to stop its task is about to do so, or has done so. -/
theorem Story.of_finds {post : Post} {deeds : List Sight} (hstory : Story post deeds)
    (hfinds : Finds deeds r) :
    (∃ r, post = .found r) ∨ post = .noted ∨ post = .gone ∧ .cancelled ∈ deeds := by
  obtain ⟨answer, hheard, -⟩ := hfinds
  cases hstory with
  | waiting | asking | calledOff => exact absurd hheard List.not_mem_nil
  | found hdecides => exact .inl ⟨_, rfl⟩
  | noted hdecides => exact .inr (.inl rfl)
  | cancelled hdecides => exact .inr (.inr ⟨rfl, by simp⟩)

theorem Story.of_cancelled {post : Post} {deeds : List Sight} (hstory : Story post deeds)
    (hcancelled : .cancelled ∈ deeds) : post = .gone := by
  cases hstory with
  | cancelled hdecides => rfl
  | _ => simp at hcancelled

theorem Story.of_found {deeds : List Sight} (h : Story (.found r) deeds) :
    ∃ answer, deeds = [.heard answer] ∧ Decides answer r := by
  cases h with
  | found hdecides => exact ⟨_, rfl, hdecides⟩

theorem Story.of_noted {deeds : List Sight} (h : Story .noted deeds) :
    ∃ answer r, deeds = [.heard answer, .noted r] ∧ Decides answer r := by
  cases h with
  | noted hdecides => exact ⟨_, _, rfl, hdecides⟩

theorem Story.of_gone {deeds : List Sight} (h : Story .gone deeds) :
    deeds = [] ∨ ∃ answer r, deeds = [.heard answer, .noted r, .cancelled] ∧ Decides answer r := by
  cases h with
  | calledOff => exact .inl rfl
  | cancelled hdecides => exact .inr ⟨_, _, rfl, hdecides⟩

theorem mem_deeds_iff (hdeed : e.isDeed = true) : e ∈ l.filter Sight.isDeed ↔ e ∈ l := by
  rw [List.mem_filter, and_iff_left hdeed]

theorem finds_deeds_iff : Finds (l.filter Sight.isDeed) r ↔ Finds l r := by
  constructor
  · rintro ⟨answer, hheard, hdecides⟩
    exact ⟨answer, (mem_deeds_iff hdecides.isDeed).1 hheard, hdecides⟩
  · rintro ⟨answer, hheard, hdecides⟩
    exact ⟨answer, (mem_deeds_iff hdecides.isDeed).2 hheard, hdecides⟩

/-! ## Rounds -/

/-- What is seen of a round that nobody comes in between. -/
def round (answer : Except Fault (Option ControlState)) : List Sight :=
  .asked :: .heard answer :: match answer with
    | .error _ => []
    | .ok state =>
      match detected state with
      | none => []
      | some r => [.noted r, .cancelled]

/-- A watch that has polled: it waits for the next round if it still watches, and is gone if not. -/
def polled (w : Watch) (answer : Except Fault (Option ControlState)) : Lookout :=
  ⟨(w.poll answer).1, if (w.poll answer).1.vigil = .watching then .waiting else .gone⟩

theorem vigil_hear {w : Watch} (hwatching : w.vigil = .watching)
    (hpost : (hear w answer).post ≠ .gone) : (hear w answer).watch.vigil = .watching := by
  unfold hear at hpost ⊢
  split at hpost
  · exact absurd rfl hpost
  · exact hwatching
  · split <;> exact hwatching

/-- A watch that is not gone still watches. -/
theorem Move.vigil (h : Move s e t) (hs : s.post ≠ .gone → s.watch.vigil = .watching)
    (ht : t.post ≠ .gone) : t.watch.vigil = .watching := by
  cases h with
  | ask w => exact hs nofun
  | hear w answer => exact vigil_hear (hs nofun) ht
  | note w r => exact (w.vigil_record r).trans (hs nofun)
  | cancel w | stopWaiting w | stopAsking w => exact absurd rfl ht
  | record w post r => exact (w.vigil_record r).trans (hs ht)

theorem Run.vigil (h : Run s l t) (hs : s.post ≠ .gone → s.watch.vigil = .watching) :
    t.post ≠ .gone → t.watch.vigil = .watching := by
  induction h with
  | refl s => exact hs
  | cons hmove _ ih => exact ih (hmove.vigil hs)

theorem Move.unique (h : Move s e t) (h' : Move s e u) : t = u := by
  cases h <;> cases h' <;> rfl

theorem Run.unique (h : Run s l t) (h' : Run s l u) : t = u := by
  induction h with
  | refl s =>
      cases h'
      rfl
  | cons hmove _ ih =>
      cases h' with
      | cons hmove' hrest' =>
          cases hmove.unique hmove'
          exact ih hrest'

/-- A round that nobody comes in between is a poll. -/
theorem run_round_iff {w : Watch} (hwatching : w.vigil = .watching) :
    Run ⟨w, .waiting⟩ (round answer) t ↔ t = polled w answer := by
  have hround : Run ⟨w, .waiting⟩ (round answer) (polled w answer) := by
    refine .cons (.ask w) (.cons (.hear w answer) ?_)
    unfold polled
    rcases answer with (e | detail) | state
    · simp only [Watch.poll, hear, hwatching, if_true]
      exact .refl _
    · simp only [Watch.poll, hear]
      exact .refl _
    · unfold Watch.poll hear
      cases hdetected : detected state with
      | none =>
          simp only [hdetected, hwatching, if_true]
          exact .refl _
      | some r =>
          simp only [hdetected]
          exact .cons (.note w r) (.cons (.cancel _) (.refl _))
  constructor
  · exact fun h => h.unique hround
  · rintro rfl
    exact hround

/-! ## Runs of a watch -/

/-- What is known of a watch that has got from its start to `s`, given what was seen of it and of the
runner. -/
structure ActsOnce (l : List Sight) (s : Lookout) : Prop where
  /-- The reason that holds is the first one that anybody wrote. -/
  first : s.watch.reason = (l.filterMap Sight.written?).head?
  /-- A reason stays, and whoever records one later is told that it holds. -/
  kept : ∀ {more : List Sight} {t : Lookout} {r : AbortReason}, Run s more t →
    s.watch.reason = some r → t.watch.reason = some r ∧
      ∀ {r' given : AbortReason}, .recorded r' given ∈ more → given = r
  /-- When the execution is cancelled there is a reason, and an answer told the task to stop. -/
  cancels : ∀ {t : Lookout}, Move s .cancelled t →
    s.watch.reason ≠ none ∧ ∃ r, Finds l r ∧ .noted r ∈ l
  cancelled_iff : s.watch.cancelled = true ↔ .cancelled ∈ l
  /-- After an answer that tells the task to stop the watch neither asks nor gives up. -/
  decisive : ∀ {before after : List Sight} {answer : Except Fault (Option ControlState)}
    {r : AbortReason}, l = before ++ .heard answer :: after → Decides answer r →
      ∀ e ∈ after, e.isLook = false
  /-- The execution is never cancelled but after an answer that told the task to stop. -/
  told : s.watch.cancelled = true → ∃ r, Finds l r
  /-- When the watch is gone the execution is cancelled exactly if there was such an answer. -/
  ended : s.post = .gone → (s.watch.cancelled = true ↔ ∃ r, Finds l r)
  /-- Until then the watch is one or two steps of its own from cancelling it. -/
  going : ∀ {r : AbortReason}, Finds l r → s.watch.cancelled = false →
    ∃ more t, Run s more t ∧ t.watch.cancelled = true ∧
      ((∃ r, more = [.noted r, .cancelled]) ∨ more = [.cancelled])
  /-- A watch that records its reason before the runner does gives the one that it was told. -/
  unrivalled : ∀ {before after : List Sight} {r : AbortReason}, l = before ++ .noted r :: after →
    (∀ r' given, .recorded r' given ∉ before) →
      ∀ {told : AbortReason}, Finds l told → s.watch.reason = some told
  /-- Where the watch waits, a round that nobody comes in between is a poll. -/
  polls : s.post = .waiting → ∀ {answer : Except Fault (Option ControlState)} {t : Lookout},
    Run s (round answer) t ↔ t = polled s.watch answer
  /-- The runner looks for a reason first and records one later, if it found none.  Although a watch
  may come in between, this is as if it had done both at once and last. -/
  atEnd : ∀ {more : List Sight} {t : Lookout} {f : Failure}, Run s more t → f.aborted = true →
    Runner.reasonAtEnd t.watch (.failure f) =
      some (s.watch.reason.getD (t.watch.record .paused).1)

theorem Run.reasonAtEnd (h : Run s l t) {f : Failure} (haborted : f.aborted = true) :
    Runner.reasonAtEnd t.watch (.failure f) =
      some (s.watch.reason.getD (t.watch.record .paused).1) := by
  unfold Runner.reasonAtEnd
  cases hfound : s.watch.reason with
  | some r => rw [h.reason_kept hfound, Option.getD_some]
  | none =>
      unfold Watch.record
      cases t.watch.reason with
      | some r => rfl
      | none => exact if_pos haborted

theorem Run.decisive (h : Run s (before ++ .heard answer :: after) t) (hdecides : Decides answer r) :
    ∀ e ∈ after, e.isLook = false := by
  obtain ⟨u, -, hrest⟩ := h.split
  cases hrest with
  | cons hmove hafter =>
      cases hmove with
      | hear w answer =>
          refine hafter.past ?_
          cases hdecides <;> exact trivial

section Start

variable {task : TaskId}

theorem Run.first (h : Run (start task) l s) :
    s.watch.reason = (l.filterMap Sight.written?).head? :=
  h.reason

theorem Run.cancelled_iff_start (h : Run (start task) l s) :
    s.watch.cancelled = true ↔ .cancelled ∈ l := by
  rw [h.cancelled_iff]
  exact or_iff_right Bool.false_ne_true

theorem Run.cancels (h : Run (start task) l s) (hmove : Move s .cancelled t) :
    s.watch.reason ≠ none ∧ ∃ r, Finds l r ∧ .noted r ∈ l := by
  have hpost : s.post = .noted := by
    cases hmove
    rfl
  obtain ⟨answer, r, hdeeds, hdecides⟩ := (hpost ▸ h.story_start).of_noted
  have hfinds : Finds l r := by
    rw [← finds_deeds_iff, hdeeds]
    exact ⟨answer, List.mem_cons_self, hdecides⟩
  have hnoted : .noted r ∈ l := by
    rw [← mem_deeds_iff rfl, hdeeds]
    exact List.mem_cons_of_mem _ List.mem_cons_self
  have hwritten : r ∈ l.filterMap Sight.written? := List.mem_filterMap.2 ⟨_, hnoted, rfl⟩
  refine ⟨?_, r, hfinds, hnoted⟩
  rw [h.first]
  exact fun hnone => List.ne_nil_of_mem hwritten (List.head?_eq_none_iff.1 hnone)

theorem Run.ended (h : Run (start task) l s) (hgone : s.post = .gone) :
    s.watch.cancelled = true ↔ ∃ r, Finds l r := by
  rw [h.cancelled_iff_start, ← mem_deeds_iff rfl]
  simp only [← finds_deeds_iff (l := l)]
  rcases (hgone ▸ h.story_start).of_gone with hdeeds | ⟨answer, r, hdeeds, hdecides⟩
  · rw [hdeeds]
    simp [Finds]
  · rw [hdeeds]
    exact iff_of_true (by simp) ⟨r, answer, List.mem_cons_self, hdecides⟩

theorem Run.told (h : Run (start task) l s) (hcancelled : s.watch.cancelled = true) :
    ∃ r, Finds l r := by
  have hdeed : .cancelled ∈ l.filter Sight.isDeed :=
    (mem_deeds_iff rfl).2 (h.cancelled_iff_start.1 hcancelled)
  exact (h.ended (h.story_start.of_cancelled hdeed)).1 hcancelled

theorem Run.going (h : Run (start task) l s) (hfinds : Finds l r)
    (hcancelled : s.watch.cancelled = false) :
    ∃ more t, Run s more t ∧ t.watch.cancelled = true ∧
      ((∃ r, more = [.noted r, .cancelled]) ∨ more = [.cancelled]) := by
  have hplace := h.story_start.of_finds (finds_deeds_iff.2 hfinds)
  obtain ⟨w, post⟩ := s
  rcases hplace with ⟨r, rfl⟩ | rfl | ⟨rfl, -⟩
  · exact ⟨_, _, .cons (.note w r) (.cons (.cancel _) (.refl _)), rfl, .inl ⟨r, rfl⟩⟩
  · exact ⟨_, _, .cons (.cancel w) (.refl _), rfl, .inr rfl⟩
  · rw [(h.ended rfl).2 ⟨_, hfinds⟩] at hcancelled
    cases hcancelled

theorem Run.polls (h : Run (start task) l s) (hwaiting : s.post = .waiting) :
    Run s (round answer) t ↔ t = polled s.watch answer := by
  obtain ⟨w, post⟩ := s
  subst hwaiting
  exact run_round_iff (h.vigil (fun _ => rfl) nofun)

/-- A watch that is about to write is the first one to do so if the runner has not written. -/
theorem Run.writes_first (h : Run (start task) l s) (hpost : s.post = .found r)
    (hfirst : ∀ r' given, .recorded r' given ∉ l) : l.filterMap Sight.written? = [] := by
  obtain ⟨answer, hdeeds, -⟩ := (hpost ▸ h.story_start).of_found
  rw [List.filterMap_eq_nil_iff]
  intro e he
  cases e with
  | noted r' =>
      rw [← mem_deeds_iff rfl, hdeeds] at he
      exact absurd he (by simp)
  | recorded r' given => exact absurd he (hfirst r' given)
  | _ => rfl

/-- The only answer that tells the task to stop is the one that the watch goes by. -/
theorem Run.eq_of_finds (h : Run (start task) l s) (hpost : s.post = .found r)
    {told : AbortReason} (hfinds : Finds l told) : told = r := by
  obtain ⟨answer, hdeeds, hdecides⟩ := (hpost ▸ h.story_start).of_found
  rw [← finds_deeds_iff, hdeeds] at hfinds
  obtain ⟨answer', hheard, hdecides'⟩ := hfinds
  cases List.mem_singleton.1 hheard
  exact hdecides'.unique hdecides

theorem Run.unrivalled (h : Run (start task) (before ++ .noted r :: after) s)
    (hfirst : ∀ r' given, .recorded r' given ∉ before) {told : AbortReason}
    (hfinds : Finds (before ++ .noted r :: after) told) : s.watch.reason = some told := by
  obtain ⟨t, hbefore, hrest⟩ := h.split
  cases hrest with
  | @cons _ u _ _ _ hmove hafter =>
      have hposts : t.post = .found r ∧ u.post.IsPast := by
        cases hmove
        exact ⟨rfl, trivial⟩
      have hreason : s.watch.reason = some r := by
        rw [h.first, List.filterMap_append, hbefore.writes_first hposts.1 hfirst]
        rfl
      obtain ⟨answer, hheard, hdecides⟩ := hfinds
      have hwhere : .heard answer ∈ before := by
        rcases List.mem_append.1 hheard with hbefore | hlater
        · exact hbefore
        · cases hlater with
          | tail _ hlater => cases hafter.past hposts.2 _ hlater
      rw [hreason, hbefore.eq_of_finds hposts.1 ⟨answer, hwhere, hdecides⟩]

/-- The first one to record a reason decides which one holds, whatever the watch hears and however
its steps and those of the runner come one after the other.  The watch stops the task exactly if an
answer tells it to, records a reason first, and looks no more. -/
theorem acts_once (h : Run (start task) l s) : ActsOnce l s where
  first := h.first
  kept hmore hreason := ⟨hmore.reason_kept hreason, hmore.given_eq hreason⟩
  cancels := h.cancels
  cancelled_iff := h.cancelled_iff_start
  decisive := by
    rintro before after answer r rfl hdecides
    exact h.decisive hdecides
  told := h.told
  ended := h.ended
  going := h.going
  unrivalled := by
    rintro before after r rfl hfirst told hfinds
    exact h.unrivalled hfirst hfinds
  polls hwaiting := h.polls hwaiting
  atEnd hmore haborted := hmore.reasonAtEnd haborted

end Start

/-- The first round fails, the second finds the task running, and in the third it is gone; but before
the watch records that, the runner has taken the task for paused. -/
def raced : List Sight :=
  [.asked, .heard (.error (.error .database)), .asked,
    .heard (.ok (some ⟨.processing, true⟩)), .asked, .heard (.ok none),
    .recorded .paused .paused, .noted .deleted, .cancelled, .recorded .deleted .paused]

theorem acts_once_raced :
    ∃ s, Run (start ⟨1⟩) raced s ∧ ActsOnce raced s ∧ s.watch.reason = some .paused ∧
      s.watch.cancelled = true := by
  have hrun : Run (start ⟨1⟩) raced ⟨⟨⟨1⟩, some .paused, true, .ended⟩, .gone⟩ :=
    .cons (.ask _) <| .cons (.hear _ _) <| .cons (.ask _) <| .cons (.hear _ _) <|
      .cons (.ask _) <| .cons (.hear _ _) <| .cons (.record _ _ .paused) <|
        .cons (.note _ .deleted) <| .cons (.cancel _) <| .cons (.record _ _ .deleted) <| .refl _
  have honce := acts_once hrun
  exact ⟨_, hrun, honce, honce.first, honce.cancelled_iff.2 (by simp [raced])⟩

end Lookout

end TaskQueue.Execution
