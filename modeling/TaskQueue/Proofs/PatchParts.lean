import Mathlib.Tactic
import TaskQueue.Proofs.PatchedResult

/-!
# Patches part by part

A result has five parts that are set as a whole, and one part for every key of its extra members.
What a patch makes of a result is found part by part: the edit, where the patch has one, else what
was there.  So patches compose as edits of separate parts do: one that is made again changes
nothing, two that share no part may change places, and only the patch without an edit leaves every
result as it is.
-/

namespace TaskQueue

/-- A part of a result that can be edited by itself. -/
inductive Part where
  | logs
  | seq
  | output
  | providerRef
  | message
  | member (key : String)

/-- What a part holds. -/
def Part.Content : Part → Type
  | .logs => List String
  | .seq => Nat
  | .output => String
  | .providerRef | .message => Option String
  | .member _ => Option Json

instance : (part : Part) → DecidableEq part.Content
  | .logs => inferInstanceAs (DecidableEq (List String))
  | .seq => inferInstanceAs (DecidableEq Nat)
  | .output => inferInstanceAs (DecidableEq String)
  | .providerRef | .message => inferInstanceAs (DecidableEq (Option String))
  | .member _ => inferInstanceAs (DecidableEq (Option Json))

namespace TaskResult

def part (r : TaskResult) : (part : Part) → part.Content
  | .logs => r.logs
  | .seq => r.seq
  | .output => r.output
  | .providerRef => r.providerRef
  | .message => r.message
  | .member key => r.extra.get? key

theorem eq_of_parts {r s : TaskResult} (h : ∀ part, r.part part = s.part part) : r = s := by
  have hextra : r.extra = s.extra := Json.Object.eq_of_get fun key => h (.member key)
  obtain ⟨logs, seq, output, providerRef, message, extra⟩ := r
  obtain ⟨logs', seq', output', providerRef', message', extra'⟩ := s
  rw [TaskResult.mk.injEq]
  exact ⟨h .logs, h .seq, h .output, h .providerRef, h .message, hextra⟩

end TaskResult

def MessageEdit.content? : MessageEdit → Option (Option String)
  | .keep => none
  | .clear => some none
  | .set message => some (some message)

namespace ResultPatch

/-- Whether the patch says anything about the part. -/
def Mentions (p : ResultPatch) : Part → Prop
  | .logs => p.logs ≠ none
  | .seq => p.seq ≠ none
  | .output => p.output ≠ none
  | .providerRef => p.providerRef ≠ none
  | .message => p.message ≠ .keep
  | .member key => p.extra.get? key ≠ none

/-- What the patch puts into the part, if it says anything about it. -/
def edit? (p : ResultPatch) : (part : Part) → Option part.Content
  | .logs => p.logs
  | .seq => p.seq
  | .output => p.output
  | .providerRef => p.providerRef.map some
  | .message => p.message.content?
  | .member key => (p.extra.get? key).map Json.Object.kept

variable {p q : ResultPatch} {part : Part}

theorem mentions_iff : p.Mentions part ↔ p.edit? part ≠ none := by
  cases part with
  | logs | seq | output => exact Iff.rfl
  | providerRef => exact not_congr Option.map_eq_none_iff.symm
  | message =>
      show p.message ≠ .keep ↔ p.message.content? ≠ none
      cases p.message <;> simp [MessageEdit.content?]
  | member key => exact not_congr Option.map_eq_none_iff.symm

theorem edit_of_not_mentions (h : ¬p.Mentions part) : p.edit? part = none :=
  not_not.1 (mt mentions_iff.2 h)

/-- The patch without edits is the empty one. -/
theorem isEmpty_iff_mentions : p.isEmpty = true ↔ ∀ part, ¬p.Mentions part := by
  have hextra : p.extra.isEmpty = true ↔ ∀ key, p.extra.get? key = none := by
    constructor
    · intro h key
      unfold Json.Object.get?
      rw [List.isEmpty_iff.1 h, Json.Fields.get?_nil]
    · intro h
      have hempty : p.extra = .empty := Json.Object.eq_of_get h
      rw [hempty]
      rfl
  unfold isEmpty
  simp only [decide_eq_true_eq, Option.isNone_iff_eq_none, hextra]
  constructor
  · rintro ⟨hlogs, hseq, houtput, hprovider, hmessage, hmembers⟩ part
    cases part with
    | logs => exact not_not.2 hlogs
    | seq => exact not_not.2 hseq
    | output => exact not_not.2 houtput
    | providerRef => exact not_not.2 hprovider
    | message => exact not_not.2 hmessage
    | member key => exact not_not.2 (hmembers key)
  · intro h
    exact ⟨not_not.1 (h .logs), not_not.1 (h .seq), not_not.1 (h .output),
      not_not.1 (h .providerRef), not_not.1 (h .message), fun key => not_not.1 (h (.member key))⟩

end ResultPatch

namespace TaskResult

open Log (counterBound)
open ResultPatch (edit_of_not_mentions mentions_iff)

variable {r : TaskResult} {p q : ResultPatch} {part : Part} {key : String}

/-- What a patch makes of a part: its own edit, else what was there. -/
theorem part_apply (r : TaskResult) (p : ResultPatch) (part : Part) :
    (r.apply p).part part = (p.edit? part).getD (r.part part) := by
  cases part with
  | logs | seq | output => rfl
  | providerRef =>
      show p.providerRef.or r.providerRef = (p.providerRef.map some).getD r.providerRef
      cases p.providerRef <;> rfl
  | message =>
      show p.message.apply r.message = p.message.content?.getD r.message
      cases p.message <;> rfl
  | member key =>
      show (r.extra.merge p.extra).get? key = _
      rw [Json.Object.get?_merge]
      show _ = ((p.extra.get? key).map Json.Object.kept).getD (r.extra.get? key)
      cases p.extra.get? key <;> rfl

theorem part_apply_of_not_mentions (h : ¬p.Mentions part) :
    (r.apply p).part part = r.part part := by
  rw [part_apply, edit_of_not_mentions h]
  rfl

theorem apply_comm_of_disjoint (h : ∀ part, p.Mentions part → ¬q.Mentions part) :
    (r.apply p).apply q = (r.apply q).apply p := by
  refine eq_of_parts fun part => ?_
  by_cases hp : p.Mentions part
  · have hq := h part hp
    rw [part_apply_of_not_mentions hq, part_apply, part_apply, part_apply_of_not_mentions hq]
  · rw [part_apply, part_apply_of_not_mentions hp, part_apply_of_not_mentions hp, part_apply]

/-- A null in a patch takes a member out, so no null comes in. -/
theorem null_of_apply (h : (r.apply p).extra.get? key = some .null) :
    r.extra.get? key = some .null := by
  have hpart := part_apply r p (.member key)
  change (r.apply p).extra.get? key =
    ((p.extra.get? key).map Json.Object.kept).getD (r.extra.get? key) at hpart
  rw [h] at hpart
  cases hedit : p.extra.get? key with
  | none =>
      rw [hedit] at hpart
      exact hpart.symm
  | some value =>
      rw [hedit] at hpart
      cases value <;> cases hpart

/-- A result that a task can have. -/
def IsSound (r : TaskResult) : Prop :=
  r.logs.length ≤ r.seq ∧ r.seq < counterBound

/-- In every part results of tasks can differ. -/
theorem exists_differing (part : Part) :
    ∃ r s : TaskResult, r.IsSound ∧ s.IsSound ∧ r.part part ≠ s.part part := by
  have hempty : empty.IsSound := ⟨by decide, by decide⟩
  have hfull : ∀ extra, (⟨["x"], 1, "x", some "x", some "x", extra⟩ : TaskResult).IsSound :=
    fun _ => ⟨le_refl 1, show 1 < counterBound by decide⟩
  cases part with
  | member key =>
      let extra := Json.Object.empty.insert key .null
      refine ⟨empty, _, hempty, hfull extra, ?_⟩
      show Json.Object.empty.get? key ≠ extra.get? key
      have hget : extra.get? key = some .null := by
        show (Json.Fields.insert key .null []).get? key = _
        rw [Json.Fields.get?_insert, if_pos rfl]
      rw [hget]
      exact (Option.some_ne_none Json.null).symm
  | _ => exact ⟨empty, _, hempty, hfull .empty, by decide⟩

/-- A patch changes some result in every part that it mentions. -/
theorem exists_changed (h : p.Mentions part) :
    ∃ r : TaskResult, r.IsSound ∧ (r.apply p).part part ≠ r.part part := by
  obtain ⟨content, hcontent⟩ := Option.ne_none_iff_exists'.1 (mentions_iff.1 h)
  obtain ⟨r, s, hr, hs, hne⟩ := exists_differing part
  have hafter : ∀ r : TaskResult, (r.apply p).part part = content := by
    intro r
    rw [part_apply, hcontent]
    rfl
  by_cases hcase : content = r.part part
  · exact ⟨s, hs, by rw [hafter, hcase]; exact hne⟩
  · exact ⟨r, hr, by rw [hafter]; exact hcase⟩

/-- Patches edit the parts that they mention and no others, so an edit that is made again changes
nothing, patches without a common part can change places, and no patch but the empty one leaves
every result of a task as it is. -/
theorem patches_edit_parts :
    (∀ (r : TaskResult) (p : ResultPatch), (r.apply p).apply p = r.apply p) ∧
      (∀ (r : TaskResult) (p q : ResultPatch), (∀ part, p.Mentions part → ¬q.Mentions part) →
        (r.apply p).apply q = (r.apply q).apply p) ∧
      (∀ (r : TaskResult) (p : ResultPatch) (part : Part), ¬p.Mentions part →
        (r.apply p).part part = r.part part) ∧
      (∀ (r : TaskResult) (p : ResultPatch) (key : String),
        (r.apply p).extra.get? key = some .null → r.extra.get? key = some .null) ∧
      ∀ p : ResultPatch, (p.isEmpty = true → ∀ r : TaskResult, r.apply p = r) ∧
        ((∀ r : TaskResult, r.IsSound → r.apply p = r) → p.isEmpty = true) := by
  refine ⟨apply_apply, fun _ _ _ => apply_comm_of_disjoint,
    fun _ _ _ => part_apply_of_not_mentions, fun _ _ _ => null_of_apply, fun p => ⟨?_, ?_⟩⟩
  · intro hempty r
    exact eq_of_parts fun part =>
      part_apply_of_not_mentions (ResultPatch.isEmpty_iff_mentions.1 hempty part)
  · intro hsame
    rw [ResultPatch.isEmpty_iff_mentions]
    intro part hmentions
    obtain ⟨r, hr, hchanged⟩ := exists_changed hmentions
    rw [hsame r hr] at hchanged
    exact hchanged rfl

/-- A patch that sets the message and takes out a member, and one that sets the counter and puts
another member in. -/
theorem patches_edit_parts_members :
    let p : ResultPatch :=
      { ResultPatch.empty with message := .clear, extra := .ofFields [("pr", .null)] }
    let q : ResultPatch :=
      { ResultPatch.empty with seq := some 7, extra := .ofFields [("sha", .text "abc")] }
    let r : TaskResult :=
      { TaskResult.empty with message := some "boom", extra := .ofFields [("pr", .nat 12)] }
    (∀ part, p.Mentions part → ¬q.Mentions part) ∧ p.isEmpty = false ∧
      (r.apply p).apply q = (r.apply q).apply p ∧
      (r.apply p).apply q =
        { TaskResult.empty with seq := 7, extra := .ofFields [("sha", .text "abc")] } := by
  intro p q r
  have hdisjoint : ∀ part, p.Mentions part → ¬q.Mentions part := by
    intro part hp hq
    cases part with
    | member key =>
        have hpr : key = "pr" := by
          by_contra hne
          exact hp (by simp [p, Json.Object.ofFields, Json.Fields.sorted, Json.Fields.insert,
            Json.Object.get?, Json.Fields.get?, Ne.symm hne])
        subst hpr
        exact hq (by decide)
    | seq => exact hp rfl
    | message => exact hq rfl
    | logs | output | providerRef => exact hp rfl
  exact ⟨hdisjoint, by decide, patches_edit_parts.2.1 r p q hdisjoint, by decide⟩

end TaskResult

end TaskQueue
