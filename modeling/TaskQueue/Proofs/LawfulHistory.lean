import Mathlib.Tactic
import TaskQueue.Proofs.Lifecycle

/-!
# Lawful histories

A property of a record that every lawful step keeps lasts until the record is created anew, which
does not happen if new identifiers are new.  So a history of lawful steps keeps the lifecycle.

Of a kind of store it remains to be shown which of its steps are lawful, and that each of the
others breaks the lifecycle.  Then the lifecycle is kept by exactly those histories in which all
steps are lawful.
-/

namespace TaskQueue.Store

/-! ## What a lawful history preserves -/

/-- Whether each step starts where the one before it has ended. -/
def Chained (s : σ) : List (Event σ) → Prop
  | [] => True
  | e :: rest => e.before = s ∧ Chained e.after rest

theorem chained_trace (perform : σ → Moment → (r : Request) → Step σ r.Answer) (s : σ)
    (history : List (Moment × Request)) : Chained s (trace perform s history) := by
  induction history generalizing s with
  | nil => exact True.intro
  | cons entry rest ih => exact ⟨rfl, ih _⟩

theorem Chained.of_append {s : σ} {l₁ l₂ : List (Event σ)} {e : Event σ}
    (h : Chained s (l₁ ++ e :: l₂)) : Chained e.after l₂ := by
  induction l₁ generalizing s with
  | nil => exact h.2
  | cons f rest ih => exact ih h.2

theorem Chained.left {s : σ} {l₁ l₂ : List (Event σ)} (h : Chained s (l₁ ++ l₂)) :
    Chained s l₁ := by
  induction l₁ generalizing s with
  | nil => exact True.intro
  | cons e rest ih => exact ⟨h.1, ih h.2⟩

namespace View

variable {σ ρ ω : Type} {V : View σ ρ ω}

/-- A property of one record that every step keeps holds as long as nothing creates the record
anew. -/
theorem persists {P : ρ → Prop} {id : TaskId} {s : σ} {events : List (Event σ)}
    (hchain : Chained s events) (hlawful : ∀ e ∈ events, V.Lawful e)
    (hnew : ∀ e ∈ events, e.effect ≠ .created id)
    (hstep : ∀ e ∈ events, ∀ a b, P a → V.Change a b (e.effect.on id) → P b)
    (hstart : ∀ a, V.find? s id = some a → P a) :
    ∀ e ∈ events, (∀ a, V.find? e.before id = some a → P a) ∧
      ∀ b, V.find? e.after id = some b → P b := by
  induction events generalizing s with
  | nil =>
      intro e he
      cases he
  | cons e rest ih =>
      obtain ⟨hbefore, hrest⟩ := hchain
      have hlaw := hlawful e (by simp)
      have hafter : ∀ b, V.find? e.after id = some b → P b := by
        intro b hb
        cases ha : V.find? e.before id with
        | none => exact absurd (hlaw.appears id b ha hb) (hnew e (by simp))
        | some a =>
            have hPa : P a := hstart a (by rw [← hbefore]; exact ha)
            exact hstep e (by simp) a b hPa (hlaw.change id a b ha hb).2
      intro f hf
      rcases List.mem_cons.1 hf with hf | hf
      · rw [hf, hbefore]
        exact ⟨hstart, hafter⟩
      · exact ih hrest (fun g hg => hlawful g (List.mem_cons_of_mem e hg))
          (fun g hg => hnew g (List.mem_cons_of_mem e hg))
          (fun g hg => hstep g (List.mem_cons_of_mem e hg)) hafter f hf

/-- A record that is there was created by an earlier step. -/
theorem created_before {id : TaskId} {s : σ} {l₁ l₂ : List (Event σ)} {e : Event σ} {a : ρ}
    (hchain : Chained s (l₁ ++ e :: l₂)) (hlawful : ∀ f ∈ l₁, V.Lawful f)
    (hstart : V.find? s id = none) (hfound : V.find? e.before id = some a) :
    ∃ f ∈ l₁, f.effect = .created id := by
  induction l₁ generalizing s with
  | nil =>
      rw [hchain.1, hstart] at hfound
      cases hfound
  | cons f rest ih =>
      obtain ⟨hbefore, hrest⟩ := hchain
      have hlaw := hlawful f (by simp)
      cases hafter : V.find? f.after id with
      | none =>
          obtain ⟨g, hg, hcreated⟩ :=
            ih hrest (fun g hg => hlawful g (List.mem_cons_of_mem f hg)) hafter
          exact ⟨g, List.mem_cons_of_mem f hg, hcreated⟩
      | some b =>
          have hnone : V.find? f.before id = none := by rw [hbefore, hstart]
          exact ⟨f, by simp, hlaw.appears id b hnone hafter⟩

/-! ## The lifecycle of a lawful history -/

theorem transition_of_change {e : Effect} {id : TaskId} {a b : ρ} (h : V.Change a b (e.on id))
    (hne : V.status a ≠ V.status b) : Transition e id (V.status a) (V.status b) := by
  unfold Effect.on at h
  split at h
  · rename_i hsubject
    cases e with
    | nothing => exact absurd h.1.symm hne
    | created id' => exact absurd h.1.symm hne
    | edited id' => exact absurd h.1.symm hne
    | deleted id' => exact absurd h.1.symm hne
    | archived id' flag => exact absurd h.1.symm hne
    | claimed id' =>
        cases hsubject
        exact Or.inl ⟨h.1, h.2.2.1, rfl⟩
    | paused id' =>
        cases hsubject
        refine Or.inr (Or.inl ⟨?_, h.2.1, rfl⟩)
        cases ha : V.status a with
        | none => simp [Change, ha] at h
        | some s => cases s <;> simp [Change, ha, Status.isPausable] at h ⊢
    | requeued id' =>
        cases hsubject
        refine Or.inr (Or.inr (Or.inl ⟨?_, h.2.1, rfl⟩))
        cases ha : V.status a with
        | none => simp [Change, ha] at h
        | some s => cases s <;> simp [Change, ha, Status.isRetryable] at h ⊢
    | finalized id' status =>
        cases hsubject
        refine Or.inr (Or.inr (Or.inr ⟨status, ?_, h.2.1, rfl⟩))
        cases status <;> simp [Change, Status.isTerminal] at h ⊢
  · exact absurd h.1.symm hne

theorem retries_of_change {e : Effect} {id : TaskId} {a b : ρ} (h : V.Change a b (e.on id))
    (hfits : V.retries a < retryBound - 1) :
    V.retries b = if e = .requeued id then V.retries a + 1 else V.retries a := by
  unfold Effect.on at h
  split at h
  · rename_i hsubject
    cases e <;> cases hsubject <;> simp_all [Change]
  · rename_i hsubject
    rw [if_neg]
    · exact h.2.2
    · intro he
      exact hsubject (by rw [he]; rfl)

theorem archived_of_change {e : Effect} {id : TaskId} {a b : ρ} (h : V.Change a b (e.on id))
    (hne : V.archived a ≠ V.archived b) : e = .archived id (V.archived b) := by
  unfold Effect.on at h
  split at h
  · rename_i hsubject
    cases e <;> cases hsubject <;> simp_all [Change]
  · exact absurd h.2.1.symm hne

theorem sound_of_lawful {e : Event σ} (hlaw : V.Lawful e) : V.Sound e where
  status id a b ha hb hne := transition_of_change (hlaw.change id a b ha hb).2 hne
  retries id a b ha hb hfits := retries_of_change (hlaw.change id a b ha hb).2 hfits
  archived id a b ha hb hne := archived_of_change (hlaw.change id a b ha hb).2 hne
  origin id a b ha hb := (hlaw.change id a b ha hb).1
  others := hlaw.others

variable {s : σ} {events : List (Event σ)}

theorem not_created_after {l₁ l₂ : List (Event σ)} {e : Event σ} {id : TaskId}
    (hchain : Chained s (l₁ ++ e :: l₂)) (hlawful : ∀ f ∈ l₁ ++ e :: l₂, V.Lawful f)
    (hempty : V.find? s id = none)
    (hnodup : ((l₁ ++ e :: l₂).filterMap fun f => f.effect.created?).Nodup)
    (hsubject : e.effect.subject? = some id) (hne : e.effect ≠ .created id) :
    ∀ f ∈ l₂, f.effect ≠ .created id := by
  intro f hf hcreated
  obtain ⟨a, ha⟩ := (hlawful e (by simp)).found id hsubject hne
  obtain ⟨g, hg, hfirst⟩ :=
    created_before hchain (fun g hg => hlawful g (List.mem_append_left _ hg)) hempty ha
  rw [List.filterMap_append, List.nodup_append] at hnodup
  have hleft : id ∈ l₁.filterMap fun f => f.effect.created? :=
    List.mem_filterMap.2 ⟨g, hg, by rw [hfirst]; rfl⟩
  have hright : id ∈ (e :: l₂).filterMap fun f => f.effect.created? :=
    List.mem_filterMap.2 ⟨f, List.mem_cons_of_mem e hf, by rw [hcreated]; rfl⟩
  exact hnodup.2.2 id hleft id hright rfl

theorem not_queued_of_change {e : Effect} {id : TaskId} {a b : ρ} (h : V.Change a b (e.on id))
    (ha : V.status a ≠ some .queued) (hne : e ≠ .requeued id) : V.status b ≠ some .queued := by
  intro hb
  have hstatus : V.status a ≠ V.status b := by
    rw [hb]
    exact ha
  rcases transition_of_change h hstatus with h | h | h | ⟨s, hs, h, _⟩
  · rw [h.2.1] at hb
    cases hb
  · rw [h.2.1] at hb
    cases hb
  · exact hne h.2.2
  · rw [h] at hb
    cases hb
    simp at hs

theorem archived_stays {e : Effect} {id : TaskId} {a b : ρ} (h : V.Change a b (e.on id))
    (ha : V.archived a = true) (hne : e ≠ .archived id false) : V.archived b = true := by
  by_contra hb
  have hflag : V.archived a ≠ V.archived b := by
    rw [ha]
    exact fun h => hb h.symm
  have he := archived_of_change h hflag
  rw [Bool.not_eq_true] at hb
  rw [hb] at he
  exact hne he

theorem claimed_change {e : Event σ} {id : TaskId} (hlaw : V.Lawful e)
    (h : e.effect = .claimed id) :
    ∃ a b, V.find? e.before id = some a ∧ V.Change a b (.claimed id) := by
  obtain ⟨a, ha⟩ := hlaw.found id (by rw [h]; rfl) (by rw [h]; simp)
  obtain ⟨b, hb⟩ := hlaw.kept id a ha (by rw [h]; rfl) (by rw [h]; simp)
  have hchange := (hlaw.change id a b ha hb).2
  rw [h, Effect.on_self rfl] at hchange
  exact ⟨a, b, ha, hchange⟩

/-- The steps from one that deals with a record up to a later one. -/
theorem segment {l₁ l₂ l₃ : List (Event σ)} {e₁ e₂ : Event σ} {id : TaskId}
    (hchain : Chained s (l₁ ++ e₁ :: (l₂ ++ e₂ :: l₃)))
    (hlawful : ∀ f ∈ l₁ ++ e₁ :: (l₂ ++ e₂ :: l₃), V.Lawful f) (hempty : V.find? s id = none)
    (hnodup : ((l₁ ++ e₁ :: (l₂ ++ e₂ :: l₃)).filterMap fun f => f.effect.created?).Nodup)
    (hsubject : e₁.effect.subject? = some id) (hne : e₁.effect ≠ .created id) :
    (∀ f ∈ l₂ ++ [e₂], f.effect ≠ .created id) ∧ Chained e₁.after (l₂ ++ [e₂]) := by
  have hlater := not_created_after hchain hlawful hempty hnodup hsubject hne
  have hrest := hchain.of_append
  rw [List.append_cons] at hrest
  refine ⟨?_, hrest.left⟩
  intro f hf
  apply hlater f
  rw [List.append_cons]
  exact List.mem_append_left _ hf

theorem mem_of_mem_segment {l₁ l₂ l₃ : List (Event σ)} {e₁ e₂ f : Event σ}
    (hf : f ∈ l₂ ++ [e₂]) : f ∈ l₁ ++ e₁ :: (l₂ ++ e₂ :: l₃) := by
  simp only [List.mem_append, List.mem_cons] at hf ⊢
  tauto

/-- A lawful history from an empty store keeps the lifecycle of all tasks. -/
theorem lifecycle_of_lawful (hchain : Chained s events) (hlawful : ∀ e ∈ events, V.Lawful e)
    (hempty : ∀ id, V.find? s id = none)
    (hnodup : (events.filterMap fun e => e.effect.created?).Nodup) : V.Lifecycle events where
  steps e he := sound_of_lawful (hlawful e he)
  claims := by
    intro l₁ e₁ l₂ e₂ l₃ id hsplit hfirst hsecond
    subst hsplit
    by_contra hnone
    have hbetween : ∀ f ∈ l₂ ++ [e₂], f.effect ≠ .requeued id := by
      intro f hf hrequeued
      rcases List.mem_append.1 hf with hf | hf
      · exact hnone ⟨f, hf, hrequeued⟩
      · rw [List.mem_singleton.1 hf, hsecond] at hrequeued
        cases hrequeued
    obtain ⟨hlater, hsegment⟩ := segment hchain hlawful (hempty id) hnodup
      (by rw [hfirst]; rfl) (by rw [hfirst]; simp)
    -- Only a retry lets a task be queued again.
    have hpersists := persists (P := fun a => V.status a ≠ some .queued) hsegment
      (fun f hf => hlawful f (mem_of_mem_segment hf)) hlater
      (fun f hf a b ha hchange => not_queued_of_change hchange ha (hbetween f hf))
      (fun b hb hqueued => by
        obtain ⟨a, ha⟩ := (hlawful e₁ (by simp)).found id (by rw [hfirst]; rfl)
          (by rw [hfirst]; simp)
        have hchange := ((hlawful e₁ (by simp)).change id a b ha hb).2
        rw [hfirst, Effect.on_self rfl] at hchange
        rw [hchange.2.2.1] at hqueued
        cases hqueued)
    obtain ⟨a, b, ha, hchange⟩ := claimed_change (hlawful e₂ (by simp)) hsecond
    exact (hpersists e₂ (by simp)).1 a ha hchange.1
  archivedClaims := by
    intro l₁ e₁ l₂ e₂ l₃ id hsplit hfirst hbetween hsecond
    subst hsplit
    have hkept : ∀ f ∈ l₂ ++ [e₂], f.effect ≠ .archived id false := by
      intro f hf
      rcases List.mem_append.1 hf with hf | hf
      · exact hbetween f hf
      · rw [List.mem_singleton.1 hf, hsecond]
        simp
    obtain ⟨hlater, hsegment⟩ := segment hchain hlawful (hempty id) hnodup
      (by rw [hfirst]; rfl) (by rw [hfirst]; simp)
    have hpersists := persists (P := fun a => V.archived a = true) hsegment
      (fun f hf => hlawful f (mem_of_mem_segment hf)) hlater
      (fun f hf a b ha hchange => archived_stays hchange ha (hkept f hf))
      (fun b hb => by
        obtain ⟨a, ha⟩ := (hlawful e₁ (by simp)).found id (by rw [hfirst]; rfl)
          (by rw [hfirst]; simp)
        have hchange := ((hlawful e₁ (by simp)).change id a b ha hb).2
        rw [hfirst, Effect.on_self rfl] at hchange
        exact hchange.2.1)
    obtain ⟨a, b, ha, hchange⟩ := claimed_change (hlawful e₂ (by simp)) hsecond
    have harchived := (hpersists e₂ (by simp)).1 a ha
    rw [hchange.2.1] at harchived
    cases harchived
  deleted := by
    intro l₁ e₁ l₂ id hsplit hdeleted
    subst hsplit
    have hgone := (hlawful e₁ (by simp)).gone id hdeleted
    have hlater := not_created_after hchain hlawful (hempty id) hnodup
      (by rw [hdeleted]; rfl) (by rw [hdeleted]; simp)
    have hpersists := persists (P := fun _ => False) hchain.of_append
      (fun f hf => hlawful f (by simp [hf])) hlater (fun _ _ _ _ ha _ => ha)
      (fun b hb => by rw [hgone] at hb; cases hb)
    refine ⟨hgone, ?_⟩
    intro f hf
    cases hafter : V.find? f.after id with
    | none => rfl
    | some b => exact ((hpersists f hf).2 b hafter).elim

/-! ## Stores with slips -/

/-- A kind of store whose steps are lawful, except those in which it slips. -/
structure Behaves (V : View σ ρ ω) (perform : σ → Moment → (r : Request) → Step σ r.Answer)
    (Inv : σ → Prop) (Slips : σ → Moment → Request → Prop) : Prop where
  keeps : ∀ s moment r, Inv s → (∀ id, r.newId? moment = some id → V.find? s id = none) →
    Inv (perform s moment r).store
  creates : ∀ s moment r id, (Event.ofStep s moment r (perform s moment r)).effect = .created id →
    r.newId? moment = some id
  lawful : ∀ s moment r, Inv s → (∀ id, r.newId? moment = some id → V.find? s id = none) →
    ¬Slips s moment r → V.Lawful (.ofStep s moment r (perform s moment r))
  breaks : ∀ s moment r, Inv s → Slips s moment r →
    ¬V.Sound (.ofStep s moment r (perform s moment r))
  silent : ∀ s moment r, Slips s moment r →
    (Event.ofStep s moment r (perform s moment r)).effect = .nothing

def newIds (history : List (Moment × Request)) : List TaskId :=
  history.filterMap fun entry => entry.2.newId? entry.1

namespace Behaves

variable {perform : σ → Moment → (r : Request) → Step σ r.Answer} {Inv : σ → Prop}
  {Slips : σ → Moment → Request → Prop} {history : List (Moment × Request)}

theorem created_sublist (h : V.Behaves perform Inv Slips) (s : σ) :
    ((trace perform s history).filterMap fun e => e.effect.created?).Sublist (newIds history) := by
  induction history generalizing s with
  | nil => exact List.Sublist.refl _
  | cons entry rest ih =>
      obtain ⟨moment, r⟩ := entry
      have hrest := ih (perform s moment r).store
      unfold newIds at hrest ⊢
      rw [trace, List.filterMap_cons, List.filterMap_cons]
      have hcreates := h.creates s moment r
      cases heffect : (Event.ofStep s moment r (perform s moment r)).effect with
      | created id =>
          have hnew := hcreates id heffect
          simp only [Effect.created?, hnew]
          exact hrest.cons_cons id
      | _ =>
          simp only [Effect.created?]
          split
          · exact hrest
          · exact hrest.cons _

/-- After a lawful step the identifiers that are still to come are as new as before. -/
theorem fresh_rest (h : V.Behaves perform Inv Slips) {s : σ} {moment : Moment} {r : Request}
    {rest : List (Moment × Request)}
    (hlaw : V.Lawful (.ofStep s moment r (perform s moment r)))
    (hnodup : (newIds ((moment, r) :: rest)).Nodup)
    (hfresh : ∀ id ∈ newIds ((moment, r) :: rest), V.find? s id = none) :
    ∀ id ∈ newIds rest, V.find? (perform s moment r).store id = none := by
  intro id hid
  unfold newIds at hid hnodup hfresh
  rw [List.filterMap_cons] at hnodup hfresh
  cases hafter : V.find? (perform s moment r).store id with
  | none => rfl
  | some b =>
      have hbefore : V.find? s id = none := by
        apply hfresh id
        split
        · exact hid
        · exact List.mem_cons_of_mem _ hid
      have hnew := h.creates s moment r id (hlaw.appears id b hbefore hafter)
      rw [hnew] at hnodup
      exact absurd hid (List.nodup_cons.1 hnodup).1

theorem fresh_head {s : σ} {moment : Moment} {r : Request} {rest : List (Moment × Request)}
    (hfresh : ∀ id ∈ newIds ((moment, r) :: rest), V.find? s id = none) {id : TaskId}
    (hid : r.newId? moment = some id) : V.find? s id = none := by
  apply hfresh
  unfold newIds
  rw [List.filterMap_cons, hid]
  exact List.mem_cons_self

theorem nodup_rest {entry : Moment × Request} {rest : List (Moment × Request)}
    (hnodup : (newIds (entry :: rest)).Nodup) : (newIds rest).Nodup :=
  hnodup.sublist ((List.sublist_cons_self entry rest).filterMap _)

theorem lawful_of_no_slip (h : V.Behaves perform Inv Slips) {s : σ} (hinv : Inv s)
    (hnodup : (newIds history).Nodup) (hfresh : ∀ id ∈ newIds history, V.find? s id = none)
    (hslips : ∀ e ∈ trace perform s history, ¬Slips e.before e.moment e.request) :
    ∀ e ∈ trace perform s history, V.Lawful e := by
  induction history generalizing s with
  | nil =>
      intro e he
      cases he
  | cons entry rest ih =>
      obtain ⟨moment, r⟩ := entry
      have hnew : ∀ id, r.newId? moment = some id → V.find? s id = none :=
        fun id hid => fresh_head hfresh hid
      have hlaw := h.lawful s moment r hinv hnew (hslips _ List.mem_cons_self)
      intro e he
      rcases List.mem_cons.1 he with he | he
      · rw [he]
        exact hlaw
      · exact ih (h.keeps s moment r hinv hnew) (nodup_rest hnodup)
          (h.fresh_rest hlaw hnodup hfresh)
          (fun f hf => hslips f (List.mem_cons_of_mem _ hf)) e he

/-- The first slip of a history is seen in the records. -/
theorem no_slip_of_sound (h : V.Behaves perform Inv Slips) {s : σ} (hinv : Inv s)
    (hnodup : (newIds history).Nodup) (hfresh : ∀ id ∈ newIds history, V.find? s id = none)
    (hsound : ∀ e ∈ trace perform s history, V.Sound e) :
    ∀ e ∈ trace perform s history, ¬Slips e.before e.moment e.request := by
  induction history generalizing s with
  | nil =>
      intro e he
      cases he
  | cons entry rest ih =>
      obtain ⟨moment, r⟩ := entry
      have hnew : ∀ id, r.newId? moment = some id → V.find? s id = none :=
        fun id hid => fresh_head hfresh hid
      have hslip : ¬Slips s moment r := fun hslip =>
        h.breaks s moment r hinv hslip (hsound _ List.mem_cons_self)
      have hlaw := h.lawful s moment r hinv hnew hslip
      intro e he
      rcases List.mem_cons.1 he with he | he
      · rw [he]
        exact hslip
      · exact ih (h.keeps s moment r hinv hnew) (nodup_rest hnodup)
          (h.fresh_rest hlaw hnodup hfresh)
          (fun f hf => hsound f (List.mem_cons_of_mem _ hf)) e he

/-- The lifecycle is kept by exactly those histories in which the store never slips. -/
theorem lifecycle_iff (h : V.Behaves perform Inv Slips) {s : σ} (hinv : Inv s)
    (hempty : ∀ id, V.find? s id = none) (hnodup : (newIds history).Nodup) :
    V.Lifecycle (trace perform s history) ↔
      ∀ e ∈ trace perform s history, ¬Slips e.before e.moment e.request := by
  constructor
  · intro hlife
    exact h.no_slip_of_sound hinv hnodup (fun id _ => hempty id) hlife.steps
  · intro hslips
    have hlawful := h.lawful_of_no_slip hinv hnodup (fun id _ => hempty id) hslips
    exact lifecycle_of_lawful (chained_trace perform s history) hlawful hempty
      (hnodup.sublist (h.created_sublist s))

end Behaves

end View

end TaskQueue.Store
