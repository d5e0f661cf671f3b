import Mathlib.Tactic
import TaskQueue.Cli.Logs
import TaskQueue.Proofs.BackendRecords

/-!
# A follower between its requests

Whoever follows a log looks at it once, and from then on reads the status of the task and looks
again, until the status that was read ends the run.  These are requests of their own, and anything
can happen to the store between two of them.  None of them changes the store, and what is printed
depends on nothing but the log that the store shows at that moment.
-/

namespace TaskQueue.Cli

open Log (Delta Snapshot)
open Store (Backend Moment)

/-- What a follower does next, and the number of lines that it knows. -/
inductive Follower where
  | opening (since : Nat)
  | resting (seen : Nat)
  /-- The status is read, and the log is looked at next. -/
  | decided (status : Status) (seen : Nat)
  | stopped (status : Status) (seen : Nat)
  deriving DecidableEq, Repr

namespace Follower

def seen : Follower → Nat
  | .opening seen | .resting seen | .decided _ seen | .stopped _ seen => seen

/-- Whether the next request of the follower looks at the log. -/
def looks : Follower → Bool
  | .opening _ | .decided _ _ => true
  | .resting _ | .stopped _ _ => false

/-- What is printed after the log, if this look is the last one. -/
def ending : Follower → List String
  | .decided status _ => if status.isTerminal then [endMarker status] else []
  | _ => []

end Follower

/-- A request of a follower, and what it prints. -/
inductive Polls (id : TaskId) (b : Backend) :
    Follower → List String → Backend → Follower → Prop where
  | first (moment : Moment) {since seen : Nat} {lines : List String} {b' : Backend}
      (hlook : firstLook b moment id since = (.more lines seen, b')) :
    Polls id b (.opening since) lines b' (.resting seen)
  | read (moment : Moment) (seen : Nat) {status : Status} {b' : Backend}
      (hread : readStatus b moment id = (.ok status, b')) :
    Polls id b (.resting seen) [] b' (.decided status seen)
  | again (moment : Moment) {status : Status} {seen next : Nat} {lines : List String}
      {b' : Backend} (hlook : lookAfter status b moment id seen = (.more lines next, b')) :
    Polls id b (.decided status seen) lines b' (.resting next)
  | stop (moment : Moment) (lines : List String) {status : Status} {seen next : Nat}
      {b' : Backend}
      (hlook : lookAt b moment id seen (.done [deletedMarker]) = (.more lines next, b'))
      (hend : lookAfter status b moment id seen =
        (.ended (.done (lines ++ [endMarker status])), b')) :
    Polls id b (.decided status seen) (lines ++ [endMarker status]) b' (.stopped status next)

variable {id : TaskId} {b b' : Backend} {f f' : Follower} {moment : Moment} {seen next : Nat}
  {status : Status} {lines : List String}

theorem log_of_lookAt {gone : Report}
    (h : lookAt b moment id seen gone = (.more lines next, b')) :
    b' = b ∧ ∃ s, b.log? id = some s ∧ render? seen s = some (lines, next) := by
  have hsame := b.store_read moment (r := .snapshot id) trivial
  unfold lookAt at h
  simp only [Prod.mk.injEq] at h
  obtain ⟨hlook, rfl⟩ := h
  refine ⟨hsame, ?_⟩
  split at hlook
  · cases hlook
  · cases hlook
  · cases hlook
  · rename_i s hanswer
    refine ⟨s, Backend.log_of_snapshot hanswer, ?_⟩
    split at hlook
    · cases hlook
    · rename_i hrender
      cases hlook
      exact hrender

/-- The number of lines that an observer knows once it has done what it has to do. -/
def nextSeen (seen : Nat) : Delta → Nat
  | .noop => seen
  | .append _ next | .resync _ next => next

/-- An observer knows all lines that the log counts, unless it knew of more before. -/
theorem nextSeen_of_reconcile {s : Snapshot} {delta : Delta}
    (h : Log.reconcile? seen s = some delta) :
    nextSeen seen delta = s.seq ∨ nextSeen seen delta = seen ∧ s.seq < seen := by
  cases Log.answers_iff.2 h with
  | noop hseen => exact hseen.old.eq_or_lt.imp Eq.symm fun hlt => ⟨rfl, hlt⟩
  | append hretains hbound => exact Or.inl rfl
  | resync hrestarts => exact Or.inl rfl

theorem seen_of_render {s : Snapshot} (h : render? seen s = some (lines, next)) :
    next = s.seq ∨ next = seen ∧ s.seq < seen := by
  unfold render? at h
  obtain ⟨delta, hdelta, hpair⟩ := Option.map_eq_some_iff.1 h
  have hnext : next = nextSeen seen delta := by
    cases delta <;> exact (congrArg Prod.snd hpair).symm
  rw [hnext]
  exact nextSeen_of_reconcile hdelta

theorem status_of_readStatus (h : readStatus b moment id = (.ok status, b')) :
    b' = b ∧ b.status? id = some status := by
  have hsame := b.store_read moment (r := .control id) trivial
  unfold readStatus at h
  simp only [Prod.mk.injEq] at h
  obtain ⟨hread, rfl⟩ := h
  refine ⟨hsame, ?_⟩
  split at hread
  · cases hread
  · cases hread
  · cases hread
  · rename_i state hanswer
    cases hread
    exact Backend.status_of_control hanswer

/-- What comes after the status is read is a look, and the last one if the status ends the run. -/
theorem lookAfter_of_more
    (h : lookAt b moment id seen (.done [deletedMarker]) = (.more lines next, b')) :
    lookAfter status b moment id seen =
      if status.isTerminal then (.ended (.done (lines ++ [endMarker status])), b')
      else (.more lines next, b') := by
  unfold lookAfter
  rw [h]

theorem more_of_lookAfter (h : lookAfter status b moment id seen = (.more lines next, b')) :
    lookAt b moment id seen (.done [deletedMarker]) = (.more lines next, b') ∧
      status.isTerminal = false := by
  rcases hlook : lookAt b moment id seen (.done [deletedMarker]) with ⟨⟨lines', next'⟩ | r, b₁⟩
  · rw [lookAfter_of_more hlook] at h
    split at h
    · cases h
    · rename_i hgoes
      exact ⟨h, by simpa using hgoes⟩
  · unfold lookAfter at h
    rw [hlook] at h
    cases h

namespace Polls

theorem store (h : Polls id b f lines b' f') : b' = b := by
  cases h with
  | first moment hlook => exact (log_of_lookAt hlook).1
  | read moment seen hread => exact (status_of_readStatus hread).1
  | again moment hlook => exact (log_of_lookAt (more_of_lookAfter hlook).1).1
  | stop moment lines hlook hend => exact (log_of_lookAt hlook).1

/-- What a look prints is what there is to print for the log, and the end of the run. -/
theorem shown (h : Polls id b f lines b' f') (hlooks : f.looks = true) :
    ∃ s printed, b.log? id = some s ∧ render? f.seen s = some (printed, f'.seen) ∧
      lines = printed ++ f.ending := by
  cases h with
  | first moment hlook =>
      obtain ⟨-, s, hs, hrender⟩ := log_of_lookAt hlook
      exact ⟨s, _, hs, hrender, (List.append_nil _).symm⟩
  | read moment seen hread => cases hlooks
  | again moment hlook =>
      obtain ⟨hmore, hgoes⟩ := more_of_lookAfter hlook
      obtain ⟨-, s, hs, hrender⟩ := log_of_lookAt hmore
      exact ⟨s, _, hs, hrender, by simp [Follower.ending, hgoes]⟩
  | stop moment lines hlook hend =>
      obtain ⟨-, s, hs, hrender⟩ := log_of_lookAt hlook
      rw [lookAfter_of_more hlook] at hend
      split at hend
      · rename_i hends
        exact ⟨s, _, hs, hrender, by simp [Follower.ending, hends]⟩
      · cases hend

theorem decided (h : Polls id b f lines b' (.decided status next)) :
    b.status? id = some status := by
  cases h with
  | read moment seen hread => exact (status_of_readStatus hread).2

/-- A follower stops after a look for which it had read a status that ends runs. -/
theorem stopped (h : Polls id b f lines b' (.stopped status next)) :
    ∃ seen, f = .decided status seen ∧ status.isTerminal = true := by
  cases h with
  | stop moment lines hlook hend =>
      rw [lookAfter_of_more hlook] at hend
      split at hend
      · rename_i hends
        exact ⟨_, rfl, hends⟩
      · cases hend

/-- Reading the status prints nothing. -/
theorem silent (h : Polls id b f lines b' f') (hlooks : f.looks = false) :
    lines = [] ∧ f'.seen = f.seen := by
  cases h with
  | read moment seen hread => exact ⟨rfl, rfl⟩
  | first moment hlook | again moment hlook | stop moment lines hlook hend => cases hlooks

/-- The program reads the status and looks at the log with nothing in between. -/
theorem of_nextLook {b₁ : Backend} (hread : readStatus b moment id = (.ok status, b₁))
    (hlook : lookAt b₁ moment id seen (.done [deletedMarker]) = (.more lines next, b')) :
    Polls id b (.resting seen) [] b₁ (.decided status seen) ∧
      if status.isTerminal then
        nextLook b moment id seen = (.ended (.done (lines ++ [endMarker status])), b') ∧
          Polls id b₁ (.decided status seen) (lines ++ [endMarker status]) b' (.stopped status next)
      else
        nextLook b moment id seen = (.more lines next, b') ∧
          Polls id b₁ (.decided status seen) lines b' (.resting next) := by
  have hnext : nextLook b moment id seen = lookAfter status b₁ moment id seen := by
    unfold nextLook
    rw [hread]
  have hafter : lookAfter status b₁ moment id seen = _ := lookAfter_of_more hlook
  rw [hnext]
  refine ⟨.read moment seen hread, ?_⟩
  split
  · rename_i hends
    rw [if_pos hends] at hafter
    exact ⟨hafter, .stop moment lines hlook hafter⟩
  · rename_i hgoes
    rw [if_neg hgoes] at hafter
    exact ⟨hafter, .again moment hafter⟩

end Polls

end TaskQueue.Cli
