import Mathlib.Tactic
import TaskQueue.Store.Request

/-!
# The lifecycle of tasks

What a request has done to the records of a store can be told from its answer: its effect.  A step
of a store is lawful if it changes no record but the one that its effect is on, and that one only
as the effect says.  A history whose steps are lawful and whose new identifiers are new keeps the
lifecycle: no task is handed out twice without a retry in between, none is handed out after it was
archived, and none comes back after it was deleted.

All of this is stated over a view of the store, which says what record it keeps for an identifier.
-/

namespace TaskQueue.Store

/-! ## Effects -/

/-- What a request has done, going by its answer. -/
inductive Effect where
  | nothing
  | created (id : TaskId)
  | claimed (id : TaskId)
  | edited (id : TaskId)
  | finalized (id : TaskId) (status : Status)
  | paused (id : TaskId)
  | requeued (id : TaskId)
  | archived (id : TaskId) (flag : Bool)
  | deleted (id : TaskId)
  deriving DecidableEq, Repr

namespace Effect

def subject? : Effect → Option TaskId
  | .nothing => none
  | .created id | .claimed id | .edited id | .finalized id _ | .paused id | .requeued id
  | .archived id _ | .deleted id => some id

/-- The effect as far as it is on the given record. -/
def on (e : Effect) (id : TaskId) : Effect :=
  if e.subject? = some id then e else .nothing

def created? : Effect → Option TaskId
  | .created id => some id
  | _ => none

theorem on_self {e : Effect} {id : TaskId} (h : e.subject? = some id) : e.on id = e :=
  if_pos h

theorem on_other {e : Effect} {id : TaskId} (h : e.subject? ≠ some id) : e.on id = .nothing :=
  if_neg h

end Effect

namespace Request

/-- The record with which the request deals, whatever the answer. -/
def target? : Request → Option TaskId
  | .insert task => some task.id
  | .get id | .control id | .patch id _ | .finalize id _ _ | .append id _ _ | .snapshot id
  | .pause id | .retry id | .archive id _ | .delete id => some id
  | .enqueue _ | .list _ _ | .claim _ _ => none

/-- The identifier that the request brings for a new record. -/
def newId? (moment : Moment) : Request → Option TaskId
  | .enqueue _ => some moment.freshId
  | .insert task => some task.id
  | _ => none

def effect : (r : Request) → Except Fault r.Answer → Effect
  | .enqueue _, (.ok t : Except Fault Task) => .created t.id
  | .insert task, .ok _ => .created task.id
  | .claim _ _, (.ok (some t) : Except Fault (Option Task)) => .claimed t.id
  | .patch id _, .ok _ => .edited id
  | .finalize id _ status, .ok _ => .finalized id status
  | .append id _ _, .ok _ => .edited id
  | .pause id, (.ok true : Except Fault Bool) => .paused id
  | .retry id, (.ok true : Except Fault Bool) => .requeued id
  | .archive id flag, (.ok true : Except Fault Bool) => .archived id flag
  | .delete id, (.ok true : Except Fault Bool) => .deleted id
  | _, _ => .nothing

theorem effect_error (r : Request) (f : Fault) : r.effect (.error f) = .nothing := by
  cases r <;> rfl

/-- Whether the request only looks at records. -/
def IsRead : Request → Prop
  | .get _ | .list _ _ | .control _ | .snapshot _ => True
  | _ => False

theorem IsRead.effect_eq {r : Request} (h : r.IsRead) (result : Except Fault r.Answer) :
    r.effect result = .nothing := by
  cases r with
  | get id | list filter limit | control id | snapshot id => cases result <;> rfl
  | _ => exact h.elim

/-- A record is created under the identifier that the request brings, if a new task gets it. -/
theorem newId_of_created {moment : Moment} {r : Request} {result : Except Fault r.Answer}
    {id : TaskId} (h : r.effect result = .created id)
    (henqueue : ∀ new, r = .enqueue new → moment.freshId = id) : r.newId? moment = some id := by
  cases r with
  | enqueue new => exact congrArg some (henqueue new rfl)
  | insert task =>
      cases result with
      | error f => cases h
      | ok _ => exact congrArg some (Effect.created.inj h)
  | claim limit time | pause id | retry id | archive id archived | delete id =>
      cases result with
      | error f => cases h
      | ok a => cases a <;> cases h
  | get id | list filter limit | control id | patch id p | finalize id p status
  | append id lines window | snapshot id =>
      cases result <;> cases h

theorem effect_enqueue {new : NewTask} {t : Task} {id : TaskId} {result : Except Fault Unit}
    (h : effect (.enqueue new) (result.map fun _ => t) = .created id) : t.id = id := by
  cases result with
  | error f => cases h
  | ok _ => exact Effect.created.inj h

end Request

structure Event (σ : Type) where
  before : σ
  moment : Moment
  request : Request
  result : Except Fault request.Answer
  after : σ

namespace Event

def effect (e : Event σ) : Effect :=
  e.request.effect e.result

def Touches (e : Event σ) (id : TaskId) : Prop :=
  e.request.target? = some id ∨ e.effect.subject? = some id

def ofStep (s : σ) (moment : Moment) (r : Request) (step : Step σ r.Answer) : Event σ :=
  ⟨s, moment, r, step.result, step.store⟩

end Event

def trace (perform : σ → Moment → (r : Request) → Step σ r.Answer) (s : σ) :
    List (Moment × Request) → List (Event σ)
  | [] => []
  | (moment, r) :: rest =>
    .ofStep s moment r (perform s moment r) :: trace perform (perform s moment r).store rest

def final (perform : σ → Moment → (r : Request) → Step σ r.Answer) (s : σ) :
    List (Moment × Request) → σ
  | [] => s
  | (moment, r) :: rest => final perform (perform s moment r).store rest

theorem step_mem_trace (perform : σ → Moment → (r : Request) → Step σ r.Answer) (s : σ)
    (before : List (Moment × Request)) (moment : Moment) (r : Request)
    (rest : List (Moment × Request)) :
    .ofStep (final perform s before) moment r (perform (final perform s before) moment r) ∈
      trace perform s (before ++ (moment, r) :: rest) := by
  induction before generalizing s with
  | nil => exact List.mem_cons_self
  | cons entry before ih => exact List.mem_cons_of_mem _ (ih _)

/-! ## Views -/

/-- What a store keeps for each identifier: its records, and of each record the parts that the
lifecycle is about.  The origin is what a task is created with. -/
structure View (σ ρ ω : Type) where
  find? : σ → TaskId → Option ρ
  origin : ρ → ω
  status : ρ → Option Status
  archived : ρ → Bool
  retries : ρ → Int

namespace View

variable {σ ρ ω : Type} (V : View σ ρ ω)

/-- How an effect on a record changes its status, its archive flag and its retries. -/
def Change (a b : ρ) : Effect → Prop
  | .claimed _ =>
    V.status a = some .queued ∧ V.archived a = false ∧ V.status b = some .processing ∧
      V.archived b = V.archived a ∧ V.retries b = V.retries a
  | .finalized _ status =>
    status.isTerminal = true ∧ V.status b = some status ∧ V.archived b = V.archived a ∧
      V.retries b = V.retries a
  | .paused _ =>
    (V.status a).any Status.isPausable = true ∧ V.status b = some .paused ∧
      V.archived b = V.archived a ∧ V.retries b = V.retries a
  | .requeued _ =>
    (V.status a).any Status.isRetryable = true ∧ V.status b = some .queued ∧
      V.archived b = V.archived a ∧
      (V.retries a < retryBound - 1 → V.retries b = V.retries a + 1)
  | .archived _ flag =>
    V.status b = V.status a ∧ V.archived b = flag ∧ V.retries b = V.retries a
  | _ =>
    V.status b = V.status a ∧ V.archived b = V.archived a ∧ V.retries b = V.retries a

/-- A step that changes only the record that its effect is on, and that one as the effect says. -/
structure Lawful (e : Event σ) : Prop where
  others : ∀ id, ¬e.Touches id → V.find? e.after id = V.find? e.before id
  change : ∀ id a b, V.find? e.before id = some a → V.find? e.after id = some b →
    V.origin a = V.origin b ∧ V.Change a b (e.effect.on id)
  /-- Only what is there can be changed. -/
  found : ∀ id, e.effect.subject? = some id → e.effect ≠ .created id →
    ∃ a, V.find? e.before id = some a
  kept : ∀ id a, V.find? e.before id = some a → e.effect.subject? = some id →
    e.effect ≠ .deleted id → ∃ b, V.find? e.after id = some b
  appears : ∀ id b, V.find? e.before id = none → V.find? e.after id = some b →
    e.effect = .created id
  gone : ∀ id, e.effect = .deleted id → V.find? e.after id = none

def Transition (e : Effect) (id : TaskId) (a b : Option Status) : Prop :=
  (a = some .queued ∧ b = some .processing ∧ e = .claimed id) ∨
    ((a = some .queued ∨ a = some .processing) ∧ b = some .paused ∧ e = .paused id) ∨
      ((a = some .failed ∨ a = some .paused) ∧ b = some .queued ∧ e = .requeued id) ∨
        ∃ s, (s = .succeeded ∨ s = .failed ∨ s = .paused) ∧ b = some s ∧ e = .finalized id s

theorem not_transition_nothing {id : TaskId} {a b : Option Status} :
    ¬Transition .nothing id a b := by
  rintro (h | h | h | ⟨_, _, _, h⟩)
  · cases h.2.2
  · cases h.2.2
  · cases h.2.2
  · cases h

/-- What the lifecycle asks of a single step. -/
structure Sound (e : Event σ) : Prop where
  status : ∀ id a b, V.find? e.before id = some a → V.find? e.after id = some b →
    V.status a ≠ V.status b → Transition e.effect id (V.status a) (V.status b)
  retries : ∀ id a b, V.find? e.before id = some a → V.find? e.after id = some b →
    V.retries a < retryBound - 1 →
    V.retries b = if e.effect = .requeued id then V.retries a + 1 else V.retries a
  archived : ∀ id a b, V.find? e.before id = some a → V.find? e.after id = some b →
    V.archived a ≠ V.archived b → e.effect = .archived id (V.archived b)
  origin : ∀ id a b, V.find? e.before id = some a → V.find? e.after id = some b →
    V.origin a = V.origin b
  others : ∀ id, ¬e.Touches id → V.find? e.after id = V.find? e.before id

/-- The lifecycle of all tasks over a history. -/
structure Lifecycle (trace : List (Event σ)) : Prop where
  steps : ∀ e ∈ trace, V.Sound e
  /-- Between two claims of a task there is an accepted retry. -/
  claims : ∀ l₁ e₁ l₂ e₂ l₃ id, trace = l₁ ++ e₁ :: (l₂ ++ e₂ :: l₃) → e₁.effect = .claimed id →
    e₂.effect = .claimed id → ∃ e ∈ l₂, e.effect = .requeued id
  /-- No task is claimed whose archive flag was last set to true. -/
  archivedClaims : ∀ l₁ e₁ l₂ e₂ l₃ id, trace = l₁ ++ e₁ :: (l₂ ++ e₂ :: l₃) →
    e₁.effect = .archived id true → (∀ e ∈ l₂, e.effect ≠ .archived id false) →
    e₂.effect ≠ .claimed id
  deleted : ∀ l₁ e₁ l₂ id, trace = l₁ ++ e₁ :: l₂ → e₁.effect = .deleted id →
    V.find? e₁.after id = none ∧ ∀ e ∈ l₂, V.find? e.after id = none

/-! ## Lawful steps -/

variable {V} {e : Event σ}

theorem change_nothing (a : ρ) {effect : Effect} (h : effect = .nothing) : V.Change a a effect := by
  subst h
  exact ⟨rfl, rfl, rfl⟩

/-- A step that leaves all records as they are and has no effect. -/
theorem Lawful.of_same (hsame : ∀ id, V.find? e.after id = V.find? e.before id)
    (heffect : e.effect = .nothing) : V.Lawful e where
  others id _ := hsame id
  change id a b ha hb := by
    rw [hsame, ha] at hb
    cases hb
    rw [heffect]
    exact ⟨rfl, change_nothing a (ite_self _)⟩
  found id hsubject := by
    rw [heffect] at hsubject
    cases hsubject
  kept id a ha _ _ := ⟨a, by rw [hsame, ha]⟩
  appears id b ha hb := by
    rw [hsame, ha] at hb
    cases hb
  gone id hdeleted := by
    rw [heffect] at hdeleted
    cases hdeleted

/-- A step that replaces one record as its effect says. -/
theorem Lawful.of_replace {id : TaskId} {a b : ρ} (hfound : V.find? e.before id = some a)
    (hafter : ∀ j, V.find? e.after j = if j = id then some b else V.find? e.before j)
    (hsubject : e.effect.subject? = some id) (hdeleted : e.effect ≠ .deleted id)
    (horigin : V.origin a = V.origin b) (hchange : V.Change a b e.effect) : V.Lawful e where
  others j hj := by
    rw [hafter, if_neg]
    intro hid
    exact hj (Or.inr (by rw [hid, hsubject]))
  change j c d hc hd := by
    rw [hafter] at hd
    by_cases hid : j = id
    · rw [if_pos hid] at hd
      rw [hid, hfound] at hc
      cases hc
      cases hd
      rw [hid, Effect.on_self hsubject]
      exact ⟨horigin, hchange⟩
    · rw [if_neg hid, hc] at hd
      cases hd
      refine ⟨rfl, change_nothing c (Effect.on_other ?_)⟩
      rw [hsubject]
      exact fun h => hid (Option.some.inj h).symm
  found j hj _ := by
    rw [hsubject] at hj
    cases hj
    exact ⟨a, hfound⟩
  kept j c hc _ _ := by
    rw [hafter]
    split
    · exact ⟨b, rfl⟩
    · exact ⟨c, hc⟩
  appears j d hc hd := by
    rw [hafter] at hd
    split at hd
    · rename_i hid
      rw [hid, hfound] at hc
      cases hc
    · rw [hc] at hd
      cases hd
  gone j hj := by
    rw [hj] at hsubject
    cases hsubject
    exact absurd hj hdeleted

theorem Lawful.of_create {id : TaskId} {b : ρ} (hfresh : V.find? e.before id = none)
    (hafter : ∀ j, V.find? e.after j = if j = id then some b else V.find? e.before j)
    (heffect : e.effect = .created id) : V.Lawful e where
  others j hj := by
    rw [hafter, if_neg]
    intro hid
    exact hj (Or.inr (by rw [heffect, hid]; rfl))
  change j c d hc hd := by
    have hid : j ≠ id := by
      intro hid
      rw [hid, hfresh] at hc
      cases hc
    rw [hafter, if_neg hid, hc] at hd
    cases hd
    refine ⟨rfl, change_nothing c (Effect.on_other ?_)⟩
    rw [heffect]
    exact fun h => hid (Option.some.inj h).symm
  found j hj hne := by
    rw [heffect] at hj hne
    cases hj
    exact absurd rfl hne
  kept j c hc hj _ := by
    rw [heffect] at hj
    cases hj
    rw [hfresh] at hc
    cases hc
  appears j d hc hd := by
    rw [hafter] at hd
    split at hd
    · rename_i hid
      rw [hid, heffect]
    · rw [hc] at hd
      cases hd
  gone j hj := by
    rw [heffect] at hj
    cases hj

theorem Lawful.of_delete {id : TaskId} {a : ρ} (hfound : V.find? e.before id = some a)
    (hafter : ∀ j, V.find? e.after j = if j = id then none else V.find? e.before j)
    (heffect : e.effect = .deleted id) : V.Lawful e where
  others j hj := by
    rw [hafter, if_neg]
    intro hid
    exact hj (Or.inr (by rw [heffect, hid]; rfl))
  change j c d hc hd := by
    rw [hafter] at hd
    split at hd
    · cases hd
    · rename_i hid
      rw [hc] at hd
      cases hd
      refine ⟨rfl, change_nothing c (Effect.on_other ?_)⟩
      rw [heffect]
      exact fun h => hid (Option.some.inj h).symm
  found j hj _ := by
    rw [heffect] at hj
    cases hj
    exact ⟨a, hfound⟩
  kept j c _ hj hdeleted := by
    rw [heffect] at hj hdeleted
    cases hj
    exact absurd rfl hdeleted
  appears j d hc hd := by
    rw [hafter] at hd
    split at hd
    · cases hd
    · rw [hc] at hd
      cases hd
  gone j hj := by
    rw [heffect] at hj
    cases hj
    rw [hafter, if_pos rfl]

/-- A step that loses the record with which it deals, if there is no other. -/
theorem Lawful.of_loss {id : TaskId} (htarget : e.request.target? = some id)
    (halone : ∀ j, j ≠ id → V.find? e.before j = none) (hafter : ∀ j, V.find? e.after j = none)
    (heffect : e.effect = .nothing) : V.Lawful e where
  others j hj := by
    rw [hafter, halone]
    intro hid
    exact hj (Or.inl (by rw [hid, htarget]))
  change j c d _ hd := by
    rw [hafter] at hd
    cases hd
  found j hj := by
    rw [heffect] at hj
    cases hj
  kept j c _ hj _ := by
    rw [heffect] at hj
    cases hj
  appears j d _ hd := by
    rw [hafter] at hd
    cases hd
  gone j _ := hafter j

end View

end TaskQueue.Store
