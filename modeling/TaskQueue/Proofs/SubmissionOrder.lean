import Mathlib.Tactic
import TaskQueue.Proofs.ClaimChoice
import TaskQueue.Proofs.CreationTimes
import TaskQueue.Proofs.StoreAgreement

/-!
# The order of submission

A process submits tasks to a store, claims them and lists them.  Whatever the clock shows meanwhile,
the store answers as a queue does that takes no notice of time: the task that was submitted first is
the first one to be claimed and the first one in the list.

This rests on the times of creation, which increase even if the clock does not, and holds as long as
no task has to wait for its window.
-/

namespace TaskQueue.Store

open Time (Instant ZonedTime)

/-- What a process does with a store. -/
inductive Deed where
  | submit (new : NewTask)
  | claim (limit : Nat) (time : ZonedTime)
  | list (filter : TaskFilter) (limit : Nat)

namespace Deed

def request : Deed → Request
  | .submit new => .enqueue new
  | .claim limit time => .claim limit time
  | .list filter limit => .list filter limit

/-- Whether no task has to wait: whoever claims looks at a task at least, and the payload of a new
task is kept as one whose window is always open. -/
def Prompt (kept? : Json → Option Json) : Deed → Prop
  | .submit new => ∃ v, kept? new.payload = some v ∧
      ∀ time : ZonedTime, Schedule.admits v time.hour = true
  | .claim limit _ => 1 ≤ limit
  | .list _ _ => True

end Deed

/-- A deed, what the clock shows at the time, and the identifier that a new task gets. -/
structure Use where
  reading : Instant
  freshId : TaskId
  deed : Deed

namespace Clock

/-- The time of creation that goes with a use.  Only a submission takes one from the clock. -/
def use (c : Clock) (u : Use) : Instant × Clock :=
  match u.deed with
  | .submit _ => c.stamp u.reading
  | _ => (u.reading.truncated, c)

/-- The moments at which a store is used. -/
def dated (c : Clock) : List Use → List (Moment × Deed)
  | [] => []
  | u :: rest =>
    (⟨u.reading.truncated, u.freshId, (c.use u).1⟩, u.deed) :: (c.use u).2.dated rest

end Clock

def requests (history : List (Moment × Deed)) : List (Moment × Request) :=
  history.map fun entry => (entry.1, entry.2.request)

/-- The answers of a queue in which tasks stand as they were submitted, those that were claimed in
front of those that wait. -/
def repliesInTurn (kept? : Json → Option Json) (claimed waiting : List Task) :
    List (Moment × Deed) → List Reply
  | [] => []
  | (moment, .submit new) :: rest =>
    let t := Task.ofNew new moment.freshId moment.created
    let kept := { t with payload := (kept? t.payload).getD t.payload }
    ⟨.enqueue new, .ok t, []⟩ :: repliesInTurn kept? claimed (waiting ++ [kept]) rest
  | (moment, .claim limit time) :: rest =>
    match waiting with
    | [] => ⟨.claim limit time, .ok none, []⟩ :: repliesInTurn kept? claimed [] rest
    | t :: waiting =>
      ⟨.claim limit time, .ok (some (marked moment t)), Schedule.notices t.payload⟩ ::
        repliesInTurn kept? (claimed ++ [marked moment t]) waiting rest
  | (_, .list filter limit) :: rest =>
    ⟨.list filter limit, .ok (((claimed ++ waiting).filter filter.matches).take limit), []⟩ ::
      repliesInTurn kept? claimed waiting rest

/-! ## Tasks in a line -/

/-- The identifier and the time of creation of a task. -/
def birth (t : Task) : TaskId × Instant :=
  (t.id, t.createdAt)

/-- The births of the tasks that are submitted. -/
def births (history : List (Moment × Deed)) : List (TaskId × Instant) :=
  history.filterMap fun entry =>
    match entry.2 with
    | .submit _ => some (entry.1.freshId, entry.1.created)
    | _ => none

/-- Whether a second task was born later, under another identifier. -/
def Later (a b : TaskId × Instant) : Prop :=
  a.1 ≠ b.1 ∧ a.2.before b.2 = true

/-- Tasks in the order of their births, those in front claimed, the others waiting with open
windows. -/
structure InLine (claimed waiting : List Task) : Prop where
  births : ((claimed ++ waiting).map birth).Pairwise Later
  claimed : ∀ t ∈ claimed, t.status = .processing
  waits : ∀ t ∈ waiting, TaskFilter.waiting.matches t = true
  isOpen : ∀ t ∈ waiting, ∀ time : ZonedTime, isOpenAt time.hour t = true

namespace InLine

variable {claimed waiting : List Task} {t : Task} {moment : Moment}

theorem empty : InLine [] [] :=
  ⟨.nil, List.forall_mem_nil _, List.forall_mem_nil _, List.forall_mem_nil _⟩

theorem ordered (h : InLine claimed waiting) : Ordered (claimed ++ waiting) := by
  have hbirths := h.births
  rw [List.pairwise_map] at hbirths
  refine hbirths.imp ?_
  intro a b hlater
  unfold Task.before
  rw [decide_eq_true_eq]
  exact Or.inl hlater.2

theorem nodup (h : InLine claimed waiting) : ((claimed ++ waiting).map Task.id).Nodup := by
  have hbirths := h.births
  rw [List.pairwise_map] at hbirths
  rw [List.Nodup, List.pairwise_map]
  exact hbirths.imp And.left

theorem filter_waiting (h : InLine claimed waiting) :
    (claimed ++ waiting).filter TaskFilter.waiting.matches = waiting := by
  have hnone : claimed.filter TaskFilter.waiting.matches = [] := by
    rw [List.filter_eq_nil_iff]
    intro t ht hwaits
    have hqueued := (Memory.matches_waiting.1 hwaits).1
    rw [h.claimed t ht] at hqueued
    cases hqueued
  rw [List.filter_append, hnone, List.nil_append, List.filter_eq_self.2 h.waits]

/-- A new task goes to the end of the line. -/
theorem submit (h : InLine claimed waiting)
    (hbirth : ((claimed ++ waiting).map birth ++ [birth t]).Pairwise Later)
    (hwaits : TaskFilter.waiting.matches t = true)
    (hopen : ∀ time : ZonedTime, isOpenAt time.hour t = true) :
    InLine claimed (waiting ++ [t]) where
  births := by
    rw [← List.append_assoc, List.map_append]
    exact hbirth
  claimed := h.claimed
  waits := List.forall_mem_append.2 ⟨h.waits, List.forall_mem_singleton.2 hwaits⟩
  isOpen := List.forall_mem_append.2 ⟨h.isOpen, List.forall_mem_singleton.2 hopen⟩

/-- The first task that waits keeps its place when it is claimed. -/
theorem claim (h : InLine claimed (t :: waiting)) (moment : Moment) :
    InLine (claimed ++ [marked moment t]) waiting where
  births := by
    have hbirths := h.births
    rw [List.append_assoc, List.singleton_append, List.map_append, List.map_cons]
    rw [List.map_append, List.map_cons] at hbirths
    exact hbirths
  claimed := List.forall_mem_append.2 ⟨h.claimed, List.forall_mem_singleton.2 rfl⟩
  waits u hu := h.waits u (List.mem_cons_of_mem t hu)
  isOpen u hu := h.isOpen u (List.mem_cons_of_mem t hu)

/-- The task that is claimed is replaced where it stands. -/
theorem replace (h : InLine claimed (t :: waiting)) (moment : Moment) :
    ((claimed ++ t :: waiting).map fun u => if u.id = t.id then marked moment t else u) =
      (claimed ++ [marked moment t]) ++ waiting := by
  have hreplace := Records.replace_middle Task.id (u := marked moment t) h.nodup rfl
  rw [List.append_assoc, List.singleton_append]
  exact hreplace

end InLine

/-! ## Stores that serve in turn -/

/-- What the order of service asks of a store.  `Holds s claimed waiting` says that the tasks of the
store stand in this line. -/
structure ServesInTurn (perform : σ → Moment → (r : Request) → Step σ r.Answer)
    (kept? : Json → Option Json) (Ready : Moment → Prop)
    (Holds : σ → List Task → List Task → Prop) : Prop where
  submits : ∀ {s claimed waiting moment new v}, Holds s claimed waiting → Ready moment →
    ((claimed ++ waiting).map birth ++ [(moment.freshId, moment.created)]).Pairwise Later →
    kept? new.payload = some v → (∀ time : ZonedTime, Schedule.admits v time.hour = true) →
    ∃ s', perform s moment (.enqueue new) =
        ⟨.ok (Task.ofNew new moment.freshId moment.created), s', []⟩ ∧
      Holds s' claimed
        (waiting ++ [{ Task.ofNew new moment.freshId moment.created with payload := v }])
  claims : ∀ {s claimed t waiting moment limit} (time : ZonedTime),
    Holds s claimed (t :: waiting) → Ready moment → 1 ≤ limit →
    ∃ s', perform s moment (.claim limit time) =
        ⟨.ok (some (marked moment t)), s', Schedule.notices t.payload⟩ ∧
      Holds s' (claimed ++ [marked moment t]) waiting
  idles : ∀ {s claimed} moment limit (time : ZonedTime), Holds s claimed [] →
    perform s moment (.claim limit time) = ⟨.ok none, s, []⟩
  lists : ∀ {s claimed waiting} moment (filter : TaskFilter) limit, Holds s claimed waiting →
    perform s moment (.list filter limit) =
      ⟨.ok (((claimed ++ waiting).filter filter.matches).take limit), s, []⟩

/-- A store that serves in turn answers as the line of its tasks, as long as those that are submitted
are born one after the other. -/
theorem ServesInTurn.replies_eq {perform : σ → Moment → (r : Request) → Step σ r.Answer}
    {kept? : Json → Option Json} {Ready : Moment → Prop}
    {Holds : σ → List Task → List Task → Prop} (h : ServesInTurn perform kept? Ready Holds)
    {history : List (Moment × Deed)} {s : σ} {claimed waiting : List Task}
    (hholds : Holds s claimed waiting)
    (hprompt : ∀ entry ∈ history, Ready entry.1 ∧ entry.2.Prompt kept?)
    (hbirths : ((claimed ++ waiting).map birth ++ births history).Pairwise Later) :
    replies perform s (requests history) = repliesInTurn kept? claimed waiting history := by
  induction history generalizing s claimed waiting with
  | nil => rfl
  | cons entry rest ih =>
      obtain ⟨moment, deed⟩ := entry
      obtain ⟨⟨hready, hdeed⟩, hrest⟩ := List.forall_mem_cons.1 hprompt
      cases deed with
      | submit new =>
          obtain ⟨v, hkept, hopen⟩ := hdeed
          have hsplit : births ((moment, .submit new) :: rest) =
            [(moment.freshId, moment.created)] ++ births rest := rfl
          rw [hsplit, ← List.append_assoc] at hbirths
          obtain ⟨s', hstep, hholds'⟩ :=
            h.submits hholds hready (List.pairwise_append.1 hbirths).1 hkept hopen
          have hanswers := ih hholds' hrest (by
            rw [← List.append_assoc, List.map_append]
            exact hbirths)
          show Reply.mk _ _ _ :: replies perform _ (requests rest) = _
          rw [repliesInTurn, Deed.request, hstep]
          simp only [Task.ofNew, hkept, Option.getD_some] at hanswers ⊢
          rw [hanswers]
      | claim limit time =>
          cases waiting with
          | nil =>
              have hanswers := ih hholds hrest hbirths
              show Reply.mk _ _ _ :: replies perform _ (requests rest) = _
              rw [repliesInTurn, Deed.request, h.idles moment limit time hholds, hanswers]
          | cons t waiting =>
              obtain ⟨s', hstep, hholds'⟩ := h.claims time hholds hready hdeed
              have hanswers := ih hholds' hrest (by
                rw [List.append_assoc, List.singleton_append]
                rw [List.map_append, List.map_cons] at hbirths ⊢
                exact hbirths)
              show Reply.mk _ _ _ :: replies perform _ (requests rest) = _
              rw [repliesInTurn, Deed.request, hstep, hanswers]
      | list filter limit =>
          have hanswers := ih hholds hrest hbirths
          show Reply.mk _ _ _ :: replies perform _ (requests rest) = _
          rw [repliesInTurn, Deed.request, h.lists moment filter limit hholds, hanswers]

/-- A task is new to a line that it may join. -/
theorem id_ne_of_births {tasks : List Task} {moment : Moment}
    (hbirths : (tasks.map birth ++ [(moment.freshId, moment.created)]).Pairwise Later) :
    ∀ t ∈ tasks, t.id ≠ moment.freshId := by
  intro t ht
  have hlater := (List.pairwise_append.1 hbirths).2.2 (birth t) (List.mem_map_of_mem ht) _
    (List.mem_singleton.2 rfl)
  exact hlater.1

/-! ## The line in memory -/

namespace Memory

structure HoldsLine (m : Memory) (claimed waiting : List Task) : Prop where
  unlocked : m.poisoned = false
  tasks : m.tasks.Perm (claimed ++ waiting)
  line : InLine claimed waiting

namespace HoldsLine

variable {m : Memory} {claimed waiting : List Task} {t : Task}

theorem oldest_eq (h : m.HoldsLine claimed waiting) (filter : TaskFilter) (limit : Nat) :
    oldest m.tasks filter limit = ((claimed ++ waiting).filter filter.matches).take limit :=
  oldest_of_perm (h.tasks.filter _) (h.line.ordered.filter _)
    (h.line.nodup.sublist (List.filter_sublist.map _)) limit

theorem submit (h : m.HoldsLine claimed waiting) {moment : Moment} {new : NewTask}
    (hbirths : ((claimed ++ waiting).map birth ++ [(moment.freshId, moment.created)]).Pairwise Later)
    (hopen : ∀ time : ZonedTime, Schedule.admits new.payload time.hour = true) :
    ∃ m', m.enqueue moment new =
        ⟨.ok (Task.ofNew new moment.freshId moment.created), m', []⟩ ∧
      m'.HoldsLine claimed (waiting ++ [Task.ofNew new moment.freshId moment.created]) := by
  have hfresh : m.find? (Task.ofNew new moment.freshId moment.created).id = none :=
    find_eq_none.2 fun u hu => id_ne_of_births hbirths u (h.tasks.mem_iff.1 hu)
  refine ⟨{ m with tasks := Task.ofNew new moment.freshId moment.created :: m.tasks }, ?_,
    h.unlocked, ?_, h.line.submit hbirths rfl hopen⟩
  · unfold enqueue
    simp only [insert_of_fresh h.unlocked hfresh]
    rfl
  · rw [← List.append_assoc]
    exact (h.tasks.cons _).trans (List.perm_append_singleton _ _).symm

theorem claim (h : m.HoldsLine claimed (t :: waiting)) (moment : Moment) {limit : Nat}
    (hlimit : 1 ≤ limit) (time : ZonedTime) :
    m.claim moment limit time =
        ⟨.ok (some (marked moment t)), m.replace (marked moment t), Schedule.notices t.payload⟩ ∧
      (m.replace (marked moment t)).HoldsLine (claimed ++ [marked moment t]) waiting := by
  obtain ⟨n, rfl⟩ := Nat.exists_eq_add_of_le' hlimit
  have hadmits : Schedule.admits t.payload time.hour = true :=
    h.line.isOpen t List.mem_cons_self time
  have hpick : pick time.hour (oldest m.tasks .waiting (n + 1)) =
      (Schedule.notices t.payload, some t) := by
    rw [h.oldest_eq, h.line.filter_waiting, List.take_succ_cons, pick]
    simp only [hadmits, if_true]
  refine ⟨claim_of_pick h.unlocked hpick, h.unlocked, ?_, h.line.claim moment⟩
  have hmap := h.tasks.map fun u => if u.id = t.id then marked moment t else u
  rw [h.line.replace moment] at hmap
  exact hmap

end HoldsLine

theorem servesInTurn : ServesInTurn perform some (fun _ => True) HoldsLine where
  submits h _ hbirths hkept hopen := by
    cases hkept
    exact h.submit hbirths hopen
  claims time h _ hlimit := ⟨_, h.claim _ hlimit time⟩
  idles moment limit time h := by
    apply claim_of_none h.unlocked
    rw [h.oldest_eq, h.line.filter_waiting, List.take_nil, pick]
  lists {m claimed waiting} moment filter limit h := by
    show m.list filter limit = _
    unfold list
    rw [locked_open h.unlocked, h.oldest_eq]
    rfl

end Memory

/-! ## The line in a table -/

/-- A row that has the place of the task and is read as it. -/
structure Row.Keeps (r : Row) (t : Task) : Prop extends r.Placed t where
  task : r.task = .ok t

namespace Table

/-- The payload as a table keeps it: as its text is read. -/
def kept? (payload : Json) : Option Json :=
  Json.parse? payload.compact

/-- Rows that were added one after the other. -/
structure RowsInLine (rows : List Row) (claimed waiting : List Task) : Prop where
  kept : List.Forall₂ Row.Keeps rows (claimed ++ waiting)
  line : InLine claimed waiting

def HoldsLine (t : Table) (claimed waiting : List Task) : Prop :=
  ∃ rows, t = ⟨some rows⟩ ∧ RowsInLine rows claimed waiting

namespace RowsInLine

variable {rows : List Row} {claimed waiting : List Task} {t : Task} {moment : Moment}

theorem ids (h : RowsInLine rows claimed waiting) :
    rows.map Row.id = (claimed ++ waiting).map fun t => t.id.text := by
  rw [← List.forall₂_eq_eq_eq, List.forall₂_map_left_iff, List.forall₂_map_right_iff]
  exact h.kept.imp fun _ _ hkeeps => hkeeps.id

theorem keeps_oldest (h : RowsInLine rows claimed waiting) (filter : TaskFilter) (limit : Nat) :
    List.Forall₂ Row.Keeps (oldestRows rows filter limit)
      (((claimed ++ waiting).filter filter.matches).take limit) := by
  have hids : (rows.map Row.id).Nodup := by
    rw [h.ids]
    exact nodup_texts h.line.nodup
  have hsorted := Row.sorted_of_placed (h.kept.imp fun _ _ hkeeps => hkeeps.toPlaced) h.line.ordered
  rw [oldestRows_of_perm hids (.refl _) (hsorted.filter _)]
  refine List.forall₂_take limit (List.rel_filter ?_ h.kept)
  intro r t hkeeps
  show r.isAdmitted filter = true ↔ filter.matches t = true
  rw [Row.isAdmitted_of_says (Row.task_eq_ok_iff.1 hkeeps.task)]

theorem submit (h : RowsInLine rows claimed waiting) {new : NewTask} {v : Json}
    (hcreated : moment.created.Stampable)
    (hbirths : ((claimed ++ waiting).map birth ++ [(moment.freshId, moment.created)]).Pairwise Later)
    (hkept : kept? new.payload = some v)
    (hopen : ∀ time : ZonedTime, Schedule.admits v time.hour = true) :
    enqueue ⟨some rows⟩ moment new =
        ⟨.ok (Task.ofNew new moment.freshId moment.created),
          ⟨some (rows ++ [.ofTask (Task.ofNew new moment.freshId moment.created)])⟩, []⟩ ∧
      RowsInLine (rows ++ [.ofTask (Task.ofNew new moment.freshId moment.created)]) claimed
        (waiting ++ [{ Task.ofNew new moment.freshId moment.created with payload := v }]) := by
  have hfresh : findRow? rows (Task.ofNew new moment.freshId moment.created).id.text = none := by
    unfold findRow?
    rw [List.find?_eq_none]
    intro r hr
    have hmem := List.mem_map_of_mem (f := Row.id) hr
    rw [h.ids] at hmem
    obtain ⟨u, hu, hid⟩ := List.mem_map.1 hmem
    rw [← hid]
    simpa [TaskId.text_inj, Task.ofNew] using id_ne_of_births hbirths u hu
  have hretries : -retryBound ≤ 0 ∧ 0 < retryBound := by decide
  have hread : (Row.ofTask (Task.ofNew new moment.freshId moment.created)).task =
      .ok { Task.ofNew new moment.freshId moment.created with payload := v } :=
    Row.task_ofTask_of_parse hkept TaskResult.storable_empty hretries hcreated hcreated
  refine ⟨?_, ?_, h.line.submit hbirths rfl hopen⟩
  · unfold enqueue
    simp only [insert_of_fresh rfl hfresh]
    rfl
  · rw [← List.append_assoc]
    exact List.rel_append h.kept (.cons ⟨⟨rfl, rfl, hcreated⟩, hread⟩ .nil)

theorem claim (h : RowsInLine rows claimed (t :: waiting)) (hnow : moment.now.Stampable)
    {limit : Nat} (hlimit : 1 ≤ limit) (time : ZonedTime) :
    ∃ rows', Table.claim ⟨some rows⟩ moment limit time =
        ⟨.ok (some (marked moment t)), ⟨some rows'⟩, Schedule.notices t.payload⟩ ∧
      RowsInLine rows' (claimed ++ [marked moment t]) waiting := by
  obtain ⟨n, rfl⟩ := Nat.exists_eq_add_of_le' hlimit
  have hcandidates := h.keeps_oldest .waiting (n + 1)
  rw [h.line.filter_waiting, List.take_succ_cons] at hcandidates
  cases holdest : oldestRows rows .waiting (n + 1) with
  | nil =>
      rw [holdest] at hcandidates
      cases hcandidates
  | cons r rest =>
      rw [holdest] at hcandidates
      obtain ⟨hkeeps, -⟩ := List.forall₂_cons.1 hcandidates
      have hpayload := (Row.task_eq_ok_iff.1 hkeeps.task).payload
      have hadmits : Schedule.admits t.payload time.hour = true :=
        h.line.isOpen t List.mem_cons_self time
      have hpick : pick time.hour (oldestRows rows .waiting (n + 1)) =
          (Schedule.notices t.payload, some r) := by
        rw [holdest, pick, hpayload]
        simp only [hadmits, if_true]
      have htaken := task_taken hkeeps.task hnow
      refine ⟨rows.map fun s => if s.id = (taken moment r).id then taken moment r else s, ?_, ?_,
        h.line.claim moment⟩
      · rw [claim_of_pick rfl hpick, htaken]
        rfl
      · rw [← h.line.replace moment, List.forall₂_map_left_iff, List.forall₂_map_right_iff]
        refine h.kept.imp ?_
        intro s u hs
        have hid : s.id = (taken moment r).id ↔ u.id = t.id := by
          rw [hs.id, show (taken moment r).id = t.id.text from hkeeps.id, TaskId.text_inj]
        by_cases hu : u.id = t.id
        · rw [if_pos hu, if_pos (hid.2 hu)]
          exact ⟨⟨hkeeps.id, hkeeps.createdAt, hkeeps.stampable⟩, htaken⟩
        · rw [if_neg hu, if_neg fun hs => hu (hid.1 hs)]
          exact hs

end RowsInLine

theorem servesInTurn : ServesInTurn perform kept? Moment.Stampable HoldsLine where
  submits := by
    rintro _ claimed waiting moment new v ⟨rows, rfl, h⟩ hready hbirths hkept hopen
    obtain ⟨hstep, hline⟩ := h.submit hready.created hbirths hkept hopen
    exact ⟨_, hstep, _, rfl, hline⟩
  claims := by
    rintro _ claimed t waiting moment limit time ⟨rows, rfl, h⟩ hready hlimit
    obtain ⟨rows', hstep, hline⟩ := h.claim hready.now hlimit time
    exact ⟨_, hstep, _, rfl, hline⟩
  idles := by
    rintro _ claimed moment limit time ⟨rows, rfl, h⟩
    have hcandidates := h.keeps_oldest .waiting limit
    rw [h.line.filter_waiting, List.take_nil, List.forall₂_nil_right_iff] at hcandidates
    apply claim_of_none rfl
    rw [hcandidates, pick]
  lists := by
    rintro _ claimed waiting moment filter limit ⟨rows, rfl, h⟩
    have hread := Row.mapM_task ((h.keeps_oldest filter limit).imp fun _ _ hkeeps => hkeeps.task)
    show list ⟨some rows⟩ filter limit = _
    unfold list withRows answer
    simp only [hread]
    rfl

end Table

/-! ## Uses of a store -/

/-- Whether the times of a moment are in the years 0 to 9999. -/
def Moment.InYears (moment : Moment) : Prop :=
  (0 ≤ moment.now.date.year ∧ moment.now.date.year < 10000) ∧
    (0 ≤ moment.created.date.year ∧ moment.created.date.year < 10000)

instance (moment : Moment) : Decidable moment.InYears :=
  inferInstanceAs (Decidable (_ ∧ _))

namespace Use

/-- The identifier of the task that is submitted, if one is. -/
def newId? (u : Use) : Option TaskId :=
  match u.deed with
  | .submit _ => some u.freshId
  | _ => none

/-- What the clock shows when a task is submitted. -/
def submitted? (u : Use) : Option Instant :=
  match u.deed with
  | .submit _ => some u.reading
  | _ => none

end Use

namespace Clock

variable {uses : List Use}

theorem ids_births (c : Clock) (uses : List Use) :
    (births (c.dated uses)).map Prod.fst = uses.filterMap Use.newId? := by
  induction uses generalizing c with
  | nil => rfl
  | cons u rest ih =>
      obtain ⟨reading, freshId, deed⟩ := u
      cases deed with
      | submit new => exact congrArg (freshId :: ·) (ih _)
      | claim limit time => exact ih c
      | list filter limit => exact ih c

theorem times_births (c : Clock) (uses : List Use) :
    (births (c.dated uses)).map Prod.snd = c.stamps (uses.filterMap Use.submitted?) := by
  induction uses generalizing c with
  | nil => rfl
  | cons u rest ih =>
      obtain ⟨reading, freshId, deed⟩ := u
      cases deed with
      | submit new => exact congrArg ((c.stamp reading).1 :: ·) (ih _)
      | claim limit time => exact ih c
      | list filter limit => exact ih c

/-- The tasks of a process are born one after the other. -/
theorem pairwise_births (c : Clock) (hids : (uses.filterMap Use.newId?).Nodup) :
    (births (c.dated uses)).Pairwise Later := by
  have htimes := c.pairwise_stamps (uses.filterMap Use.submitted?)
  rw [← c.times_births, List.pairwise_map] at htimes
  rw [← c.ids_births, List.Nodup, List.pairwise_map] at hids
  exact hids.and htimes

theorem use_holds {P : Instant → Prop} {c : Clock} {u : Use}
    (hnext : ∀ t, P t → P t.nextMicrosecond) (hreading : P u.reading.truncated)
    (hlast : ∀ last, c.last = some last → P last) :
    P (c.use u).1 ∧ ∀ last, (c.use u).2.last = some last → P last := by
  obtain ⟨reading, freshId, deed⟩ := u
  cases deed with
  | submit new =>
      have hstamp := stamp_holds hnext hreading hlast
      refine ⟨hstamp, ?_⟩
      rintro _ ⟨⟩
      exact hstamp
  | claim limit time => exact ⟨hreading, hlast⟩
  | list filter limit => exact ⟨hreading, hlast⟩

theorem dated_hold {P : Instant → Prop} {c : Clock} (hnext : ∀ t, P t → P t.nextMicrosecond)
    (hreadings : ∀ u ∈ uses, P u.reading.truncated) (hlast : ∀ last, c.last = some last → P last) :
    ∀ entry ∈ c.dated uses, P entry.1.now ∧ P entry.1.created := by
  induction uses generalizing c with
  | nil => exact List.forall_mem_nil _
  | cons u rest ih =>
      obtain ⟨hreading, hrest⟩ := List.forall_mem_cons.1 hreadings
      obtain ⟨hcreated, hlast⟩ := use_holds hnext hreading hlast
      exact List.forall_mem_cons.2 ⟨⟨hreading, hcreated⟩, ih hrest hlast⟩

theorem prompt_dated {kept? : Json → Option Json} {c : Clock}
    (hprompt : ∀ u ∈ uses, u.deed.Prompt kept?) :
    ∀ entry ∈ c.dated uses, entry.2.Prompt kept? := by
  induction uses generalizing c with
  | nil => exact List.forall_mem_nil _
  | cons u rest ih =>
      obtain ⟨hdeed, hrest⟩ := List.forall_mem_cons.1 hprompt
      exact List.forall_mem_cons.2 ⟨hdeed, ih hrest⟩

/-- Whether what the clock has given out last is a whole microsecond of a second. -/
def Sound (c : Clock) : Prop :=
  ∀ last, c.last = some last → last.nanos % 1000 = 0 ∧ last.nanos < 10 ^ 9

theorem stampable_dated {c : Clock} (hclock : c.Sound)
    (hreadings : ∀ u ∈ uses, u.reading.nanos < 10 ^ 9)
    (hyears : ∀ entry ∈ c.dated uses, entry.1.InYears) :
    ∀ entry ∈ c.dated uses, entry.1.Stampable := by
  have hnanos := dated_hold (P := fun t => t.nanos % 1000 = 0 ∧ t.nanos < 10 ^ 9)
    (fun t ht => ⟨Instant.nextMicrosecond_whole ht.1, Instant.nextMicrosecond_nanos_lt ht.2⟩)
    (fun u hu => ⟨u.reading.truncated_whole, Instant.truncated_nanos_lt (hreadings u hu)⟩) hclock
  intro entry hentry
  obtain ⟨hnow, hcreated⟩ := hnanos entry hentry
  obtain ⟨⟨hnowlow, hnowhigh⟩, hcreatedlow, hcreatedhigh⟩ := hyears entry hentry
  exact ⟨⟨hnowlow, hnowhigh, hnow.1, .inl hnow.2⟩,
    ⟨hcreatedlow, hcreatedhigh, hcreated.1, .inl hcreated.2⟩⟩

end Clock

/-- Times of creation increase whatever the clock shows, and so each of the two stores, empty at
first, answers as a line in which tasks stand in the order of their submission. -/
theorem serves_in_submission_order {c : Clock} (hclock : c.Sound) :
    (∀ readings, Increasing readings (c.stamps readings)) ∧
      ∀ uses : List Use, (uses.filterMap Use.newId?).Nodup →
        ((∀ u ∈ uses, u.deed.Prompt some) →
            replies Memory.perform .empty (requests (c.dated uses)) =
              repliesInTurn some [] [] (c.dated uses)) ∧
          ((∀ u ∈ uses, u.deed.Prompt Table.kept? ∧ u.reading.nanos < 10 ^ 9) →
            (∀ entry ∈ c.dated uses, entry.1.InYears) →
            replies Table.perform (Table.migrate ⟨none⟩).store (requests (c.dated uses)) =
              repliesInTurn Table.kept? [] [] (c.dated uses)) := by
  refine ⟨Clock.increasing_stamps fun last hlast => (hclock last hlast).1, ?_⟩
  intro uses hids
  have hbirths := c.pairwise_births hids
  constructor
  · intro hprompt
    have hempty : Memory.empty.HoldsLine [] [] := ⟨rfl, .nil, .empty⟩
    exact Memory.servesInTurn.replies_eq hempty
      (fun entry hentry => ⟨trivial, Clock.prompt_dated hprompt entry hentry⟩) hbirths
  · intro hprompt hyears
    have hstampable := Clock.stampable_dated hclock (fun u hu => (hprompt u hu).2) hyears
    have hempty : Table.HoldsLine (Table.migrate ⟨none⟩).store [] [] :=
      ⟨[], rfl, .nil, .empty⟩
    exact Table.servesInTurn.replies_eq hempty
      (fun entry hentry => ⟨hstampable entry hentry,
        Clock.prompt_dated (fun u hu => (hprompt u hu).1) entry hentry⟩) hbirths

/-- Three tasks are submitted while the clock goes back twice, the second time after a claim; then
they are listed, and two more are claimed. -/
def restlessUses : List Use :=
  let new : Deed := .submit ⟨none, "push", .object []⟩
  let claim : Deed := .claim 1 ⟨⟨0, 0⟩, 0⟩
  [⟨⟨5, 1700⟩, ⟨3⟩, new⟩, ⟨⟨5, 1200⟩, ⟨2⟩, new⟩, ⟨⟨3, 0⟩, ⟨4⟩, claim⟩, ⟨⟨3, 0⟩, ⟨1⟩, new⟩,
    ⟨⟨3, 500⟩, ⟨4⟩, .list .all 10⟩, ⟨⟨3, 500⟩, ⟨4⟩, claim⟩, ⟨⟨3, 500⟩, ⟨4⟩, claim⟩]

theorem serves_in_submission_order_restless :
    (births (Clock.fresh.dated restlessUses) =
        [(⟨3⟩, ⟨5, 1000⟩), (⟨2⟩, ⟨5, 2000⟩), (⟨1⟩, ⟨5, 3000⟩)] ∧
      ∀ entry ∈ Clock.fresh.dated restlessUses, entry.1.InYears) ∧
    replies Memory.perform .empty (requests (Clock.fresh.dated restlessUses)) =
        repliesInTurn some [] [] (Clock.fresh.dated restlessUses) ∧
      replies Table.perform (Table.migrate ⟨none⟩).store (requests (Clock.fresh.dated restlessUses)) =
        repliesInTurn Table.kept? [] [] (Clock.fresh.dated restlessUses) := by
  have hclock : Clock.fresh.Sound := by
    rintro _ ⟨⟩
  have hids : (restlessUses.filterMap Use.newId?).Nodup := by decide
  have hyears : ∀ entry ∈ Clock.fresh.dated restlessUses, entry.1.InYears := by decide
  have hnew : ∀ {kept? : Json → Option Json}, kept? (.object []) = some (.object []) →
      ∀ u ∈ restlessUses, u.deed.Prompt kept? := by
    intro kept? hkept
    have hsubmit : (Deed.submit ⟨none, "push", .object []⟩).Prompt kept? :=
      ⟨.object [], hkept, fun _ => rfl⟩
    have hclaim : (Deed.claim 1 ⟨⟨0, 0⟩, 0⟩).Prompt kept? := Nat.le_refl 1
    simp only [restlessUses, List.forall_mem_cons]
    exact ⟨hsubmit, hsubmit, hclaim, hsubmit, trivial, hclaim, hclaim, List.forall_mem_nil _⟩
  have hreadings : ∀ u ∈ restlessUses, u.reading.nanos < 10 ^ 9 := by decide
  have hkept : Table.kept? (.object []) = some (.object []) := by decide
  obtain ⟨hmemory, htable⟩ := (serves_in_submission_order hclock).2 restlessUses hids
  exact ⟨⟨by decide, hyears⟩, hmemory (hnew rfl),
    htable (fun u hu => ⟨hnew hkept u hu, hreadings u hu⟩) hyears⟩

end TaskQueue.Store
