import Mathlib.Tactic
import TaskQueue.Proofs.QueueKeeping

/-!
# The task that a claim takes

A claim looks at the waiting records in the order of age, at no more of them than its limit, and
takes the first one that may be taken at the hour of its own zone.  What it hands out is what the
store keeps from then on, and all other records stay as they are.

A row of a table waits even if its payload cannot be read.  It takes up a place among the candidates
and is passed over.
-/

namespace TaskQueue.Store

open Time (ZonedTime)

variable {σ ρ ω : Type}

/-- A claim takes the task: it is handed out as it is then stored, and no other record changes. -/
structure Takes (V : View σ ρ ω) (perform : σ → Moment → (r : Request) → Step σ r.Answer) (s : σ)
    (moment : Moment) (limit : Nat) (time : ZonedTime) (t : Task) : Prop where
  answer : (perform s moment (.claim limit time)).result = .ok (some (marked moment t))
  stored : ∀ later, (perform (perform s moment (.claim limit time)).store later (.get t.id)).result =
    .ok (some (marked moment t))
  others : V.SparesOthers t.id s (perform s moment (.claim limit time)).store

/-- A claim takes the first candidate that may be taken, if there is one.  The task that a candidate
stands for is `shown`. -/
structure TakesFirst (V : View σ ρ ω) (perform : σ → Moment → (r : Request) → Step σ r.Answer)
    (shown : ρ → Task) (claimable : Nat → ρ → Bool) (candidates : List ρ) (s : σ) (moment : Moment)
    (limit : Nat) (time : ZonedTime) : Prop where
  none_iff : (perform s moment (.claim limit time)).result = .ok none ↔
    ∀ c ∈ candidates, claimable time.hour c = false
  unchanged : (perform s moment (.claim limit time)).result = .ok none →
    (perform s moment (.claim limit time)).store = s
  takes : ∀ passed c rest, candidates = passed ++ c :: rest →
    (∀ d ∈ passed, claimable time.hour d = false) → claimable time.hour c = true →
    Takes V perform s moment limit time (shown c)

theorem takesFirst_of_find {V : View σ ρ ω}
    {perform : σ → Moment → (r : Request) → Step σ r.Answer} {shown : ρ → Task}
    {claimable : Nat → ρ → Bool} {candidates : List ρ} {s : σ} {moment : Moment} {limit : Nat}
    {time : ZonedTime}
    (hnone : candidates.find? (claimable time.hour) = none →
      (perform s moment (.claim limit time)).result = .ok none ∧
        (perform s moment (.claim limit time)).store = s)
    (hsome : ∀ c, candidates.find? (claimable time.hour) = some c →
      Takes V perform s moment limit time (shown c)) :
    TakesFirst V perform shown claimable candidates s moment limit time := by
  have hclosed : (perform s moment (.claim limit time)).result = .ok none →
      candidates.find? (claimable time.hour) = none := by
    intro hresult
    cases hfind : candidates.find? (claimable time.hour) with
    | none => rfl
    | some c =>
        rw [(hsome c hfind).answer] at hresult
        cases hresult
  refine ⟨⟨?_, ?_⟩, fun hresult => (hnone (hclosed hresult)).2, ?_⟩
  · intro hresult c hc
    simpa using List.find?_eq_none.1 (hclosed hresult) c hc
  · intro hall
    exact (hnone (List.find?_eq_none.2 fun c hc => by simp [hall c hc])).1
  · intro passed c rest hcandidates hpassed hc
    apply hsome
    rw [List.find?_eq_some_iff_append]
    exact ⟨hc, passed, rest, hcandidates, fun d hd => by simp [hpassed d hd]⟩

theorem Memory.Holds.takesFirst {m : Memory} {waiting : List Task} (h : m.Holds waiting none)
    (moment : Moment) (limit : Nat) (time : ZonedTime) :
    TakesFirst Memory.view Memory.perform id isOpenAt (waiting.take limit) m moment limit time := by
  apply takesFirst_of_find
  · exact Memory.keepsQueue.passes moment limit time h
  · intro t ht
    obtain ⟨hresult, hholds, hspares, hfound⟩ := h.claim moment ht
    refine ⟨hresult, fun later => ?_, hspares⟩
    show ((m.claim moment limit time).store.get t.id).result = _
    unfold Memory.get
    rw [Memory.locked_open hholds.unlocked, hfound]
    rfl

/-! ## Rows that wait -/

/-- Whether a row has the place of the task in the order of age. -/
structure Row.Placed (r : Row) (t : Task) : Prop where
  id : r.id = t.id.text
  createdAt : r.createdAt = t.createdAt.stamp
  stampable : t.createdAt.Stampable

/-- A row that stands for a task in the queue: it has its place, and is read as the task unless its
payload cannot be read. -/
structure Row.Shows (r : Row) (t : Task) : Prop extends r.Placed t where
  reads : (Json.parse? r.payload).isSome → r.task = .ok t

theorem Row.sorted_of_placed {rows : List Row} {tasks : List Task}
    (hplaced : List.Forall₂ Placed rows tasks) (hordered : Ordered tasks) :
    rows.Pairwise fun r s => notYounger r s = true := by
  obtain ⟨hlength, hplaced⟩ := List.forall₂_iff_get.1 hplaced
  unfold Ordered at hordered
  rw [List.pairwise_iff_get] at hordered ⊢
  intro i j hij
  have hi : i < tasks.length := hlength ▸ i.isLt
  have hj : j < tasks.length := hlength ▸ j.isLt
  have hr := hplaced i i.isLt hi
  have hs := hplaced j j.isLt hj
  have holder := Task.notYounger_of_before (hordered ⟨i, hi⟩ ⟨j, hj⟩ hij)
  unfold notYounger
  rw [before_of_columns hs.id hs.createdAt hs.stampable hr.id hr.createdAt hr.stampable, holder]
  rfl

namespace Table

variable {rows waiting : List Row} {shown : Row → Task} {moment : Moment} {limit : Nat}
  {time : ZonedTime}

/-- A row that is read as a task is read as the task that was handed out, once it is taken. -/
theorem task_taken {r : Row} {t : Task} (h : r.task = .ok t) (hnow : moment.now.Stampable) :
    (taken moment r).task = .ok (marked moment t) := by
  have hsays := Row.task_eq_ok_iff.1 h
  exact Row.task_eq_ok_iff.2
    { hsays with
      status := Status.ofName?_name .processing
      updatedAt := Row.instantOf_stamp hnow }

theorem claimable_ofTask {t : Task} (h : t.payload.Readable Json.maxNesting) (hour : Nat) :
    claimable hour (Row.ofTask t) = isOpenAt hour t := by
  have hpayload : Json.parse? (Row.ofTask t).payload = some t.payload := Json.parse_compact h
  unfold claimable
  rw [hpayload]
  rfl

/-- The candidates of a claim are the front of the rows in the order of age. -/
theorem oldestRows_of_shown (hkeyed : Keyed rows) (hshows : ∀ r ∈ waiting, r.Shows (shown r))
    (hselected : (rows.filter (·.isAdmitted .waiting)).Perm waiting)
    (hordered : Ordered (waiting.map shown)) (limit : Nat) :
    oldestRows rows .waiting limit = waiting.take limit := by
  refine oldestRows_of_perm hkeyed.nodup hselected (Row.sorted_of_placed ?_ hordered) limit
  rw [List.forall₂_map_right_iff, List.forall₂_same]
  exact fun r hr => (hshows r hr).toPlaced

theorem takesFirst (hkeyed : Keyed rows) (hshows : ∀ r ∈ waiting, r.Shows (shown r))
    (hselected : (rows.filter (·.isAdmitted .waiting)).Perm waiting)
    (hordered : Ordered (waiting.map shown)) (hnow : moment.now.Stampable) :
    TakesFirst view perform shown claimable (waiting.take limit) ⟨some rows⟩ moment limit time := by
  rcases hpick : pick time.hour (oldestRows rows .waiting limit) with ⟨notices, picked⟩
  have hpicked : picked = (waiting.take limit).find? (claimable time.hour) := by
    rw [← oldestRows_of_shown hkeyed hshows hselected hordered, ← pick_eq_find, hpick]
  apply takesFirst_of_find
  · intro hnone
    rw [hpicked, hnone] at hpick
    show (claim ⟨some rows⟩ moment limit time).result = _ ∧
      (claim ⟨some rows⟩ moment limit time).store = _
    rw [claim_of_none rfl hpick]
    exact ⟨rfl, rfl⟩
  · intro r hr
    rw [hpicked, hr] at hpick
    have hwaits : r ∈ waiting := List.mem_of_mem_take (List.mem_of_find?_eq_some hr)
    have hmem : r ∈ rows := List.mem_of_mem_filter (hselected.mem_iff.2 hwaits)
    have hshow := hshows r hwaits
    have hreads : r.task = .ok (shown r) := by
      apply hshow.reads
      obtain ⟨payload, hpayload⟩ := payload_of_pick (congrArg Prod.snd hpick)
      rw [hpayload]
      rfl
    have htaken := task_taken hreads hnow
    have hfound : findRow? rows (shown r).id.text = some r := by
      rw [← hshow.id]
      exact hkeyed.find hmem
    have hafter : view.find? (replaceRow rows (taken moment r)) (shown r).id =
        some (taken moment r) := find_replaceRow_self hfound hshow.id
    have hclaim : claim ⟨some rows⟩ moment limit time = _ := claim_of_pick rfl hpick
    rw [htaken] at hclaim
    constructor
    · show (claim ⟨some rows⟩ moment limit time).result = _
      rw [hclaim]
      rfl
    · intro later
      show (get (claim ⟨some rows⟩ moment limit time).store (shown r).id).result = _
      change findRow? _ _ = _ at hafter
      rw [hclaim]
      unfold get withRows answer replaceRow
      simp only [hafter, htaken]
      rfl
    · intro j hj
      show view.find? (claim ⟨some rows⟩ moment limit time).store j = _
      rw [hclaim, find_replaceRow, if_neg fun htext => hj (TaskId.text_inj.1 (htext.trans hshow.id))]
      rfl

end Table

/-- In both stores a claim takes the first of the oldest waiting tasks whose window is open, hands it
out as it is then stored, and changes nothing else; in a table rows whose payloads cannot be read may
wait as well. -/
theorem claim_takes_first (moment : Moment) (limit : Nat) (time : ZonedTime) :
    (∀ (m : Memory) (waiting : List Task), m.poisoned = false → m.Unique →
        (m.tasks.filter TaskFilter.waiting.matches).Perm waiting → Ordered waiting →
        TakesFirst Memory.view Memory.perform id isOpenAt (waiting.take limit) m moment limit
          time) ∧
      ∀ (rows waiting : List Row) (shown : Row → Task), moment.now.Stampable → Table.Keyed rows →
        (∀ r ∈ waiting, r.Shows (shown r)) →
        (rows.filter (·.isAdmitted .waiting)).Perm waiting → Ordered (waiting.map shown) →
        TakesFirst Table.view Table.perform shown Table.claimable (waiting.take limit) ⟨some rows⟩
          moment limit time := by
  constructor
  · intro m waiting hopen hunique hselected hordered
    have hholds : m.Holds waiting none := ⟨hopen, hunique, hselected, hordered, by simp⟩
    exact hholds.takesFirst moment limit time
  · intro rows waiting shown hnow hkeyed hshows hselected hordered
    exact Table.takesFirst hkeyed hshows hselected hordered hnow

/-- A task that may be started at any time. -/
def anytimeTask : Task :=
  .ofNew ⟨none, "push", .object []⟩ ⟨3⟩ firstMoment.created

/-- A task of the same time that may only be started by day. -/
def dayTask : Task :=
  .ofNew ⟨none, "push", .object [("schedule", .object [("endHour", .nat 17), ("startHour", .nat 9)])]⟩
    ⟨2⟩ firstMoment.created

/-- A row of the same time whose payload is no JSON text. -/
def unreadableRow : Row :=
  { Row.ofTask anytimeTask with id := (⟨1⟩ : TaskId).text, payload := "unreadable" }

def tiedRows : List Row :=
  [.ofTask anytimeTask, .ofTask dayTask, unreadableRow]

def shownTied (r : Row) : Task :=
  if r = unreadableRow then { anytimeTask with id := ⟨1⟩ }
  else if r = .ofTask dayTask then dayTask
  else anytimeTask

theorem storable_anytimeTask : anytimeTask.Storable :=
  have hmoment : firstMoment.Stampable := ⟨by decide, by decide⟩
  ⟨⟨trivial, ⟨.nil, trivial⟩, by decide⟩, TaskResult.storable_empty, by decide, by decide,
    hmoment.created, hmoment.created⟩

theorem storable_dayTask : dayTask.Storable := by
  have hmoment : firstMoment.Stampable := ⟨by decide, by decide⟩
  have hpayload : dayTask.payload.Readable Json.maxNesting := by
    constructor
    · have hstart := Json.Number.survives_natural (n := 9) (by decide)
      have hend := Json.Number.survives_natural (n := 17) (by decide)
      exact ⟨⟨hend, hstart, trivial⟩, trivial⟩
    · exact ⟨by decide, ⟨by decide, trivial, trivial, trivial⟩, trivial⟩
    · decide
  exact ⟨hpayload, TaskResult.storable_empty, by decide, by decide, hmoment.created,
    hmoment.created⟩

theorem keyed_tiedRows : Table.Keyed tiedRows where
  nodup := by decide
  text := by
    intro r hr
    unfold tiedRows at hr
    simp only [List.mem_cons, List.not_mem_nil, or_false] at hr
    rcases hr with rfl | rfl | rfl
    · exact ⟨_, rfl⟩
    · exact ⟨_, rfl⟩
    · exact ⟨_, rfl⟩

theorem shows_tiedRows : ∀ r ∈ tiedRows.reverse, r.Shows (shownTied r) := by
  have hcreated := storable_anytimeTask.createdAt
  have hunreadable : ¬(Json.parse? unreadableRow.payload).isSome := by decide
  refine List.forall_mem_cons.2 ⟨?_, List.forall_mem_cons.2 ⟨?_, List.forall_mem_singleton.2 ?_⟩⟩
  · exact ⟨⟨rfl, rfl, hcreated⟩, fun h => absurd h hunreadable⟩
  · exact ⟨⟨rfl, rfl, hcreated⟩, fun _ => Row.task_ofTask storable_dayTask⟩
  · exact ⟨⟨rfl, rfl, hcreated⟩, fun _ => Row.task_ofTask storable_anytimeTask⟩

/-- At midnight, of three rows of one time, a claim that looks at two finds none that it may take, and
one that looks at three takes the last. -/
theorem claim_takes_first_tied :
    TakesFirst Memory.view Memory.perform id isOpenAt [dayTask, anytimeTask]
        ⟨[anytimeTask, dayTask], false⟩ firstMoment 2 ⟨⟨0, 0⟩, 0⟩ ∧
      (∀ r ∈ tiedRows.reverse, r.Shows (shownTied r)) ∧ Ordered (tiedRows.reverse.map shownTied) ∧
      (Table.perform ⟨some tiedRows⟩ firstMoment (.claim 2 ⟨⟨0, 0⟩, 0⟩)).result = .ok none ∧
      (Table.perform ⟨some tiedRows⟩ firstMoment (.claim 3 ⟨⟨0, 0⟩, 0⟩)).result =
        .ok (some (marked firstMoment anytimeTask)) := by
  have hordered : Ordered (tiedRows.reverse.map shownTied) := by
    unfold Ordered
    decide
  have hselected : (tiedRows.filter (·.isAdmitted .waiting)).Perm tiedRows.reverse := by
    have hall : tiedRows.filter (·.isAdmitted .waiting) = tiedRows := by decide
    rw [hall]
    exact (List.reverse_perm tiedRows).symm
  have htable : ∀ limit, TakesFirst Table.view Table.perform shownTied Table.claimable
      (tiedRows.reverse.take limit) ⟨some tiedRows⟩ firstMoment limit ⟨⟨0, 0⟩, 0⟩ := fun limit =>
    (claim_takes_first firstMoment limit ⟨⟨0, 0⟩, 0⟩).2 tiedRows tiedRows.reverse shownTied
      (by decide) keyed_tiedRows shows_tiedRows hselected hordered
  have hpassed : ∀ r ∈ [unreadableRow, .ofTask dayTask], Table.claimable 0 r = false := by
    refine List.forall_mem_cons.2 ⟨by decide, List.forall_mem_singleton.2 ?_⟩
    rw [Table.claimable_ofTask storable_dayTask.payload]
    decide
  have hopen : Table.claimable 0 (.ofTask anytimeTask) = true := by
    rw [Table.claimable_ofTask storable_anytimeTask.payload]
    decide
  refine ⟨?_, shows_tiedRows, hordered, (htable 2).none_iff.2 hpassed,
    ((htable 3).takes _ _ [] rfl hpassed hopen).answer⟩
  refine (claim_takes_first firstMoment 2 ⟨⟨0, 0⟩, 0⟩).1 ⟨[anytimeTask, dayTask], false⟩
    [dayTask, anytimeTask] rfl ?_ ?_ ?_
  · unfold Memory.Unique
    decide
  · exact .swap dayTask anytimeTask []
  · unfold Ordered
    decide

end TaskQueue.Store
