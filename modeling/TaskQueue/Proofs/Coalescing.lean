import Mathlib.Tactic
import TaskQueue.Proofs.Interleaving

/-!
# Coalesced triggers

However triggers and drains are interleaved, no two drains are live at once and no trigger is lost:
a trigger that is coalesced is followed by a whole pass of the drain that it was coalesced into.  A
drain makes one more pass for each of its passes in which a trigger came, and no other.
-/

namespace TaskQueue.Runner

variable {config : Config} {s t : Crew} {l : List Happening}

theorem tidy_of_run (hs : s.Tidy) (hrun : Run config s l t) : t.Tidy := by
  induction hrun with
  | refl => exact hs
  | snoc hrun hmove ih => exact (outcome_of_move ih hmove).tidy

theorem tidy_idle : Crew.idle.Tidy :=
  .idle ⟨0, 0, 0⟩ 0

/-- A drain that is not live is not live later, because numbers grow. -/
theorem gone_of_outcome {k : Nat} {h : Happening} (hfresh : k < s.fresh)
    (hlive : ∀ d, (k, d) ∉ s.live) (houtcome : Outcome s h t) :
    k < t.fresh ∧ ∀ d, (k, d) ∉ t.live := by
  cases houtcome with
  | coalesced pending stats k' hd => exact ⟨hfresh, hlive⟩
  | started stats fresh =>
      refine ⟨Nat.lt_succ_of_lt hfresh, ?_⟩
      intro d hd
      cases List.mem_singleton.1 hd
      exact Nat.lt_irrefl k hfresh
  | began pending stats k' pass | worked pending stats k' hd hd' _
  | completed pending stats k' pass | continued stats k' pass =>
      refine ⟨hfresh, ?_⟩
      intro d hmem
      cases List.mem_singleton.1 hmem
      exact hlive _ List.mem_cons_self
  | drained stats k' pass | abandoned pending stats k' hd =>
      exact ⟨hfresh, fun d => List.not_mem_nil⟩

/-! ## Triggers that are heard -/

/-- Whether a drain has begun a pass and come to its end. -/
def Complete (k : Nat) (l : List Happening) : Prop :=
  ∃ pass a b c, l = a ++ .began k pass :: (b ++ .completed k pass :: c)

theorem Complete.snoc {k : Nat} (hcomplete : Complete k l) (h : Happening) :
    Complete k (l ++ [h]) := by
  obtain ⟨pass, a, b, c, hl⟩ := hcomplete
  exact ⟨pass, a, b, c ++ [h], by rw [hl]; simp⟩

/-- How far a drain has come with a trigger that was coalesced into it: the trigger is pending, the
pass that it asks for is to begin, has begun or is complete, or the drain is over. -/
inductive Owed (k : Nat) (l : List Happening) : Crew → Prop where
  | pending (stats : Stats) {d : Drain} (hd : d.IsGoing) :
    Owed k l ⟨⟨⟨true, true⟩, stats⟩, [(k, d)], k + 1⟩
  | opening (pending : Bool) (stats : Stats) (pass : Nat) :
    Owed k l ⟨⟨⟨true, pending⟩, stats⟩, [(k, .opening pass)], k + 1⟩
  | busy (pending : Bool) (stats : Stats) {d : Drain} {pass : Nat} (hd : d.Busy pass)
      (hbegan : .began k pass ∈ l) :
    Owed k l ⟨⟨⟨true, pending⟩, stats⟩, [(k, d)], k + 1⟩
  | complete (s : Crew) (hcomplete : Complete k l) : Owed k l s
  | gone (s : Crew) (hfresh : k < s.fresh) (hlive : ∀ d, (k, d) ∉ s.live) : Owed k l s

theorem owed_of_outcome {k : Nat} {h : Happening} (howed : Owed k l s)
    (houtcome : Outcome s h t) : Owed k (l ++ [h]) t := by
  cases howed with
  | complete _ hcomplete => exact .complete t (hcomplete.snoc h)
  | gone _ hfresh hlive =>
      obtain ⟨hfresh', hlive'⟩ := gone_of_outcome hfresh hlive houtcome
      exact .gone t hfresh' hlive'
  | pending stats hd =>
      cases houtcome with
      | coalesced pending stats k hd => exact .pending _ hd
      | began pending stats k pass => exact .pending _ trivial
      | worked pending stats k hd hd' _ => exact .pending _ hd'.isGoing
      | completed pending stats k pass => exact .pending _ trivial
      -- The drain goes on because of the trigger, so the pass that it opens is the one it owes.
      | continued stats k pass => exact .opening false stats (pass + 1)
      | abandoned pending stats k hd =>
          exact .gone _ (Nat.lt_succ_self k) (fun d => List.not_mem_nil)
  | opening pending stats pass =>
      cases houtcome with
      | coalesced pending stats k hd => exact .pending _ hd
      | began pending stats k pass => exact .busy pending _ .claiming (by simp)
      | worked pending stats k hd hd' _ => cases hd
      | abandoned pending stats k hd =>
          exact .gone _ (Nat.lt_succ_self k) (fun d => List.not_mem_nil)
  | busy pending stats hd hbegan =>
      rename_i d pass
      cases houtcome with
      | coalesced pending stats k hd' => exact .pending _ hd'
      | began pending stats k pass => cases hd
      | worked pending stats k hbusy hbusy' _ =>
          have hpass := hd.pass_eq hbusy
          subst hpass
          exact .busy pending _ hbusy' (List.mem_append_left _ hbegan)
      | completed pending stats k pass' =>
          cases hd
          obtain ⟨a, b, hl⟩ := List.append_of_mem hbegan
          exact .complete _ ⟨pass, a, b, [], by rw [hl]; simp⟩
      | continued stats k pass => cases hd
      | drained stats k pass => cases hd
      | abandoned pending stats k hd =>
          exact .gone _ (Nat.lt_succ_self k) (fun d => List.not_mem_nil)

/-- A drain does not return before it has made the pass that it owes. -/
theorem Owed.complete_of_drained {k n : Nat} (howed : Owed k l s)
    (houtcome : Outcome s (.drained k n) t) : Complete k l := by
  cases houtcome with
  | drained stats k pass =>
      cases howed with
      | busy _ _ hd => cases hd
      | complete _ hcomplete => exact hcomplete
      | gone _ _ hlive => exact absurd List.mem_cons_self (hlive _)

/-! ## Passes and triggers -/

/-- The number of the pass that a drain is in, or that it is about to begin. -/
def Drain.number : Drain → Nat
  | .opening pass | .claiming pass | .processing pass _ _ | .ending pass | .done pass => pass

/-- The passes that a drain is about to begin. -/
def Drain.unbegun : Drain → Nat
  | .opening _ => 1
  | _ => 0

theorem Drain.Busy.number_eq {pass : Nat} {d : Drain} (h : d.Busy pass) : d.number = pass := by
  cases h <;> rfl

theorem Drain.Busy.unbegun_eq {pass : Nat} {d : Drain} (h : d.Busy pass) : d.unbegun = 0 := by
  cases h <;> rfl

/-- Adds a happening to the passes so far, of which the current one comes first. -/
def addToPass : List (List Happening) → Happening → List (List Happening)
  | passes, .continued _ _ => [] :: passes
  | current :: earlier, h => (current ++ [h]) :: earlier
  | [], h => [[h]]

/-- The happenings of each pass of a drain, the last pass first. -/
def passesOf (l : List Happening) : List (List Happening) :=
  l.foldl addToPass [[]]

theorem passesOf_snoc (l : List Happening) (h : Happening) :
    passesOf (l ++ [h]) = addToPass (passesOf l) h := by
  unfold passesOf
  rw [List.foldl_append]
  rfl

/-- Every earlier pass of the drain has seen a trigger, and the current one has if one is pending. -/
inductive Counted (k : Nat) (l : List Happening) : Crew → Prop where
  | live {pending : Bool} (stats : Stats) {d : Drain} {current : List Happening}
      {earlier : List (List Happening)} (hpasses : passesOf l = current :: earlier)
      (hnumber : d.number = earlier.length + 1)
      (hbegun : l.countP Happening.isBegun + d.unbegun = d.number)
      (hearlier : ∀ p ∈ earlier, .coalesced ∈ p) (hpending : pending = true ↔ .coalesced ∈ current) :
    Counted k l ⟨⟨⟨true, pending⟩, stats⟩, [(k, d)], k + 1⟩
  | gone (s : Crew) (hfresh : k < s.fresh) (hlive : ∀ d, (k, d) ∉ s.live) : Counted k l s

theorem counted_of_outcome {k : Nat} {h : Happening} (hcounted : Counted k l s)
    (houtcome : Outcome s h t) : Counted k (l ++ [h]) t := by
  cases hcounted with
  | gone _ hfresh hlive =>
      obtain ⟨hfresh', hlive'⟩ := gone_of_outcome hfresh hlive houtcome
      exact .gone t hfresh' hlive'
  | live stats hpasses hnumber hbegun hearlier hpending =>
      have hsnoc := passesOf_snoc l h
      have hcount : (l ++ [h]).countP Happening.isBegun =
          l.countP Happening.isBegun + [h].countP Happening.isBegun := List.countP_append
      rw [hpasses] at hsnoc
      cases houtcome with
      | coalesced pending stats k hd =>
          exact .live _ hsnoc hnumber (by rw [hcount]; exact hbegun) hearlier (by simp)
      | began pending stats k pass =>
          exact .live _ hsnoc hnumber (by rw [hcount]; exact hbegun) hearlier
            (by simpa using hpending)
      | worked pending stats k hd hd' _ =>
          rw [hd.number_eq] at hnumber hbegun
          rw [hd.unbegun_eq] at hbegun
          refine .live _ hsnoc ?_ ?_ hearlier (by simpa using hpending)
          · rw [hd'.number_eq, hnumber]
          · rw [hcount, hd'.number_eq, hd'.unbegun_eq]
            exact hbegun
      | completed pending stats k pass =>
          exact .live _ hsnoc hnumber (by rw [hcount]; exact hbegun) hearlier
            (by simpa using hpending)
      | continued stats k pass =>
          refine .live _ hsnoc (congrArg Nat.succ hnumber) ?_ ?_ (by simp)
          · rw [hcount]
            exact congrArg Nat.succ hbegun
          · intro p hp
            rcases List.mem_cons.1 hp with hp | hp
            -- A drain goes on only if a trigger is pending, which came in the pass that has ended.
            · rw [hp]
              exact hpending.1 rfl
            · exact hearlier p hp
      | drained stats k pass | abandoned pending stats k hd =>
          exact .gone _ (Nat.lt_succ_self k) (fun d => List.not_mem_nil)

/-- If every earlier pass has seen a trigger and the last one has not, the passes are one and those
that have. -/
theorem hits_of_passes {passes earlier : List (List Happening)} {current : List Happening} {n : Nat}
    (hpasses : passes = current :: earlier) (hnumber : n = earlier.length + 1)
    (hearlier : ∀ p ∈ earlier, .coalesced ∈ p) (hcurrent : .coalesced ∉ current) :
    passes.length = n ∧ n = 1 + passes.countP fun p => p.contains .coalesced := by
  have hall : (earlier.countP fun p => p.contains .coalesced) = earlier.length := by
    rw [List.countP_eq_length]
    intro p hp
    exact List.contains_iff_mem.2 (hearlier p hp)
  have hlast : current.contains Happening.coalesced = false := by
    rw [← Bool.not_eq_true, List.contains_iff_mem]
    exact hcurrent
  constructor
  · rw [hpasses, hnumber, List.length_cons]
  · rw [hpasses, List.countP_cons, hall, hlast, hnumber, Nat.add_comm]
    simp

/-- A drain that returns reports the passes that it has begun. -/
theorem Counted.passes_of_drained {k n : Nat} (hcounted : Counted k l s)
    (houtcome : Outcome s (.drained k n) t) :
    l.countP Happening.isBegun = n ∧ (passesOf l).length = n ∧
      n = 1 + (passesOf l).countP fun p => p.contains .coalesced := by
  cases houtcome with
  | drained stats k pass =>
      cases hcounted with
      | gone _ _ hlive => exact absurd List.mem_cons_self (hlive _)
      | live _ hpasses hnumber hbegun hearlier hpending =>
          exact ⟨hbegun, hits_of_passes hpasses hnumber hearlier (by simpa using hpending)⟩

/-- The passes that have begun are those that drains have reported and those of the live drain. -/
inductive Summed (l : List Happening) : Crew → Prop where
  | idle {stats : Stats} (fresh : Nat)
      (hsum : stats.drainPasses = (l.filterMap Happening.reported?).sum) :
    Summed l ⟨⟨⟨false, false⟩, stats⟩, [], fresh⟩
  | live (pending : Bool) {stats : Stats} (k : Nat) {d : Drain}
      (hsum : stats.drainPasses + d.unbegun = (l.filterMap Happening.reported?).sum + d.number) :
    Summed l ⟨⟨⟨true, pending⟩, stats⟩, [(k, d)], k + 1⟩

theorem sum_reported_snoc (l : List Happening) (h : Happening) :
    ((l ++ [h]).filterMap Happening.reported?).sum =
      (l.filterMap Happening.reported?).sum + (h.reported?.getD 0) := by
  rw [List.filterMap_append, List.sum_append]
  congr 1
  cases h <;> rfl

theorem summed_of_outcome {h : Happening} (hsummed : Summed l s) (houtcome : Outcome s h t)
    (hkept : ∀ k, h ≠ .abandoned k) : Summed (l ++ [h]) t := by
  have hsnoc := sum_reported_snoc l h
  cases houtcome with
  | coalesced pending stats k hd =>
      cases hsummed with
      | live _ _ hsum => exact .live true k (by rw [hsnoc]; exact hsum)
  | started stats fresh =>
      cases hsummed with
      | idle _ hsum => exact .live false fresh (by rw [hsnoc]; exact congrArg Nat.succ hsum)
  | began pending stats k pass =>
      cases hsummed with
      | live _ _ hsum => exact .live pending k (by rw [hsnoc]; exact hsum)
  | worked pending stats k hd hd' _ =>
      cases hsummed with
      | live _ _ hsum =>
          refine .live pending k ?_
          rw [hsnoc, hd'.unbegun_eq, hd'.number_eq, ← hd.number_eq]
          rw [hd.unbegun_eq] at hsum
          exact hsum
  | completed pending stats k pass =>
      cases hsummed with
      | live _ _ hsum => exact .live pending k (by rw [hsnoc]; exact hsum)
  | continued stats k pass =>
      cases hsummed with
      | live _ _ hsum => exact .live false k (by rw [hsnoc]; exact congrArg Nat.succ hsum)
  | drained stats k pass =>
      cases hsummed with
      | live _ _ hsum => exact .idle (k + 1) (by rw [hsnoc]; exact hsum)
  | abandoned pending stats k hd => exact absurd rfl (hkept k)

/-- What the counts of a runner and the number of its live drain's pass do not exceed. -/
structure Crew.AtMost (n : Nat) (s : Crew) : Prop where
  drainPasses : s.shared.stats.drainPasses ≤ n
  tasksProcessed : s.shared.stats.tasksProcessed ≤ n
  coalescedTriggers : s.shared.stats.coalescedTriggers ≤ n
  pass : ∀ p ∈ s.live, p.2.number ≤ n

/-- A move adds one to each of them at most. -/
theorem atMost_of_outcome {n : Nat} {h : Happening} (hs : s.AtMost n) (houtcome : Outcome s h t) :
    t.AtMost (n + 1) := by
  obtain ⟨hpasses, htasks, htriggers, hpass⟩ := hs
  have hpasses' := Nat.le_succ_of_le hpasses
  have htasks' := Nat.le_succ_of_le htasks
  have htriggers' := Nat.le_succ_of_le htriggers
  cases houtcome with
  | coalesced pending stats k hd =>
      exact ⟨hpasses', htasks', Nat.succ_le_succ htriggers,
        fun p hp => Nat.le_succ_of_le (hpass p hp)⟩
  | started stats fresh =>
      exact ⟨hpasses', htasks', htriggers', List.forall_mem_singleton.2 (Nat.le_add_left 1 n)⟩
  | began pending stats k pass =>
      have hnumber := List.forall_mem_singleton.1 hpass
      exact ⟨Nat.succ_le_succ hpasses, htasks', htriggers',
        List.forall_mem_singleton.2 (Nat.le_succ_of_le hnumber)⟩
  | worked pending stats k hd hd' hcounted =>
      have hnumber := List.forall_mem_singleton.1 hpass
      rw [hd.number_eq, ← hd'.number_eq] at hnumber
      exact ⟨hpasses', hcounted.trans (Nat.succ_le_succ htasks), htriggers',
        List.forall_mem_singleton.2 (Nat.le_succ_of_le hnumber)⟩
  | completed pending stats k pass =>
      have hnumber := List.forall_mem_singleton.1 hpass
      exact ⟨hpasses', htasks', htriggers',
        List.forall_mem_singleton.2 (Nat.le_succ_of_le hnumber)⟩
  | continued stats k pass =>
      have hnumber := List.forall_mem_singleton.1 hpass
      exact ⟨hpasses', htasks', htriggers', List.forall_mem_singleton.2 (Nat.succ_le_succ hnumber)⟩
  | drained stats k pass | abandoned pending stats k hd =>
      exact ⟨hpasses', htasks', htriggers', List.forall_mem_nil _⟩

/-! ## The runner as its callers see it -/

/-- What callers can rely on, however triggers and drains are interleaved. -/
structure Coalesces (config : Config) : Prop where
  single : ∀ l s, Run config .idle l s → s.live.length ≤ 1
  running : ∀ l s, Run config .idle l s → (s.shared.gate.running = true ↔ s.live ≠ [])
  pending : ∀ l s, Run config .idle l s → s.shared.gate.pending = true →
    s.shared.gate.running = true
  /-- A trigger is coalesced into the one live drain, which makes a whole pass after it if it
  returns. -/
  heard : ∀ l₁ s₁ s₂, Run config .idle l₁ s₁ → Move config s₁ .coalesced s₂ →
    ∃ k d, s₁.live = [(k, d)] ∧ ∀ l₂ s₃ s₄ n, Run config s₂ l₂ s₃ →
      Move config s₃ (.drained k n) s₄ → Complete k l₂
  /-- The passes that a drain reports are one and those in which a trigger was coalesced. -/
  passes : ∀ l₁ s₁ s₂ l₂ s₃ s₄ k n, Run config .idle l₁ s₁ → Move config s₁ (.started k) s₂ →
    Run config s₂ l₂ s₃ → Move config s₃ (.drained k n) s₄ →
    l₂.countP Happening.isBegun = n ∧ (passesOf l₂).length = n ∧
      n = 1 + (passesOf l₂).countP fun p => p.contains .coalesced
  counted : ∀ l s, Run config .idle l s →
    s.shared.stats.coalescedTriggers = l.count .coalesced
  summed : ∀ l s, Run config .idle l s → s.live = [] → (∀ k, .abandoned k ∉ l) →
    s.shared.stats.drainPasses = (l.filterMap Happening.reported?).sum
  /-- A drain can be given up at any point; then the runner is idle and the next trigger drains. -/
  abandoned : ∀ l s k d, Run config .idle l s → (k, d) ∈ s.live →
    (∃ t, Move config s (.abandoned k) t) ∧
      ∀ t, Move config s (.abandoned k) t → t.live = [] ∧ t.shared.gate = ⟨false, false⟩ ∧
        (∃ u, Move config t (.started t.fresh) u) ∧ ∀ u, ¬Move config t .coalesced u
  /-- Nothing is counted that did not happen, so counts of 32 and of 64 bits hold as long as there
  are fewer happenings than that. -/
  atMost : ∀ l s, Run config .idle l s → s.AtMost l.length

theorem owed_of_run {k : Nat} {t : Crew} (hs : s.Tidy) (howed : Owed k [] s)
    (hrun : Run config s l t) : Owed k l t := by
  induction hrun with
  | refl => exact howed
  | snoc hrun hmove ih => exact owed_of_outcome ih (outcome_of_move (tidy_of_run hs hrun) hmove)

theorem counted_of_run {k : Nat} {t : Crew} (hs : s.Tidy) (hcounted : Counted k [] s)
    (hrun : Run config s l t) : Counted k l t := by
  induction hrun with
  | refl => exact hcounted
  | snoc hrun hmove ih =>
      exact counted_of_outcome ih (outcome_of_move (tidy_of_run hs hrun) hmove)

theorem coalescedTriggers_of_run (hrun : Run config .idle l s) :
    s.shared.stats.coalescedTriggers = l.count .coalesced := by
  induction hrun with
  | refl => rfl
  | snoc hrun hmove ih =>
      rw [List.count_append, ← ih]
      cases outcome_of_move (tidy_of_run tidy_idle hrun) hmove <;> simp

theorem summed_of_run (hrun : Run config .idle l s) (hkept : ∀ k, .abandoned k ∉ l) :
    Summed l s := by
  induction hrun with
  | refl => exact .idle 0 rfl
  | snoc hrun hmove ih =>
      have hbefore := ih fun k hk => hkept k (List.mem_append_left _ hk)
      refine summed_of_outcome hbefore (outcome_of_move (tidy_of_run tidy_idle hrun) hmove) ?_
      intro k hk
      exact hkept k (by simp [hk])

theorem atMost_of_run (hrun : Run config .idle l s) : s.AtMost l.length := by
  induction hrun with
  | refl => exact ⟨le_rfl, le_rfl, le_rfl, List.forall_mem_nil _⟩
  | snoc hrun hmove ih =>
      rw [List.length_append]
      exact atMost_of_outcome ih (outcome_of_move (tidy_of_run tidy_idle hrun) hmove)

/-- In every interleaving triggers are coalesced as their callers can rely on. -/
theorem coalesces (config : Config) : Coalesces config where
  single l s hrun := by
    cases tidy_of_run tidy_idle hrun <;> simp
  running l s hrun := by
    cases tidy_of_run tidy_idle hrun <;> simp
  pending l s hrun := by
    cases tidy_of_run tidy_idle hrun <;> simp
  heard l₁ s₁ s₂ hrun hmove := by
    have htidy := tidy_of_run tidy_idle hrun
    have houtcome := outcome_of_move htidy hmove
    cases houtcome with
    | coalesced pending stats k hd =>
        refine ⟨k, _, rfl, ?_⟩
        intro l₂ s₃ s₄ n hrun₂ hdrained
        have htidy₂ := Outcome.tidy (.coalesced pending stats k hd)
        have howed := owed_of_run htidy₂ (.pending _ hd) hrun₂
        exact howed.complete_of_drained (outcome_of_move (tidy_of_run htidy₂ hrun₂) hdrained)
  passes l₁ s₁ s₂ l₂ s₃ s₄ k n hrun hstart hrun₂ hdrained := by
    have houtcome := outcome_of_move (tidy_of_run tidy_idle hrun) hstart
    cases houtcome with
    | started stats fresh =>
        have htidy := Outcome.tidy (.started stats k)
        have hfirst : Counted k [] ⟨⟨⟨true, false⟩, stats⟩, [(k, .opening 1)], k + 1⟩ :=
          .live stats rfl rfl rfl (by simp) (by simp)
        have hcounted := counted_of_run htidy hfirst hrun₂
        exact hcounted.passes_of_drained (outcome_of_move (tidy_of_run htidy hrun₂) hdrained)
  counted l s hrun := coalescedTriggers_of_run hrun
  summed l s hrun hlive hkept := by
    cases summed_of_run hrun hkept with
    | idle _ hsum => exact hsum
    | live _ _ _ => cases hlive
  abandoned l s k d hrun hlive := by
    refine ⟨⟨_, .abandon s hlive⟩, ?_⟩
    intro t hmove
    cases outcome_of_move (tidy_of_run tidy_idle hrun) hmove with
    | abandoned pending stats k hd =>
        refine ⟨rfl, rfl, ⟨_, .start _ rfl⟩, ?_⟩
        intro u hcoalesced
        cases outcome_of_move (.idle stats (k + 1)) hcoalesced
  atMost l s hrun := atMost_of_run hrun

end TaskQueue.Runner
