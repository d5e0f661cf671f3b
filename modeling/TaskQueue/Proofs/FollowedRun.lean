import Mathlib.Tactic
import TaskQueue.Proofs.LogCounter
import TaskQueue.Proofs.LogFollower
import TaskQueue.Proofs.StreamedLog

/-!
# A follower and the run that it follows

A run adds lines to the log of its task, and ends in one step with its last lines and a status that
ends runs.  A follower reads the status first and then the log, so what it prints when it stops is
complete if the run has ended by then.  But a task that is paused has such a status at once, and its
run goes on until it notices; a follower that stops because of a pause may miss what the run adds
after that.
-/

namespace TaskQueue.Cli

open Log (Snapshot counterBound)
open Store (Backend Moment Recorded Request)
open Time (ZonedTime)

inductive Phase where
  | awaited
  | claimed
  | executing
  | finished
  deriving DecidableEq, Repr

def Phase.InProgress : Phase → Prop
  | .claimed | .executing => True
  | .awaited | .finished => False

/-- A store with a task, the run of the task, and a follower of its log. -/
structure FollowedRun where
  store : Backend
  phase : Phase
  /-- Whether the task was paused while the run was in progress. -/
  paused : Prop
  follower : Follower

namespace FollowedRun

def start (store : Backend) (since : Nat) : FollowedRun :=
  ⟨store, .awaited, False, .opening since⟩

end FollowedRun

/-- What happens next: the run goes on, the task is paused, or the follower makes a request. -/
inductive Proceeds (id : TaskId) (w : FollowedRun) : FollowedRun → Prop where
  | claim (moment : Moment) (limit : Nat) (time : ZonedTime) {t : Task}
      (hphase : w.phase = .awaited) (hid : t.id = id)
      (hanswer : (w.store.perform moment (.claim limit time)).result =
        (.ok (some t) : Except Fault (Option Task))) :
    Proceeds id w
      { w with store := (w.store.perform moment (.claim limit time)).store, phase := .claimed }
  | reset (moment : Moment) (hphase : w.phase = .claimed) :
    Proceeds id w
      { w with store := (w.store.perform moment (.patch id .runReset)).store, phase := .executing }
  | append (moment : Moment) (lines : List String) (window : Nat)
      (hphase : w.phase.InProgress) :
    Proceeds id w
      { w with
        store := (w.store.perform moment (.append id lines window)).store
        phase := .executing }
  | finalize (moment : Moment) (p : ResultPatch) (status : Status) (hphase : w.phase.InProgress)
      (hanswer : (w.store.perform moment (.finalize id p status)).result =
        (.ok () : Except Fault Unit)) :
    Proceeds id w
      { w with store := (w.store.perform moment (.finalize id p status)).store, phase := .finished }
  | pause (moment : Moment) :
    Proceeds id w
      { w with
        store := (w.store.perform moment (.pause id)).store
        paused := w.paused ∨ w.phase.InProgress ∧
          (w.store.perform moment (.pause id)).result = (.ok true : Except Fault Bool) }
  | poll {lines : List String} {b : Backend} {f : Follower}
      (hpoll : Polls id w.store w.follower lines b f) :
    Proceeds id w { w with store := b, follower := f }

variable {id : TaskId} {w w' : FollowedRun} {moment : Moment} {since seen n : Nat} {status : Status}

/-! ## The status during a run -/

/-- While a run is in progress the task is being processed or was paused. -/
def Underway (w : FollowedRun) (status : Status) : Prop :=
  status = .processing ∨ status = .paused ∧ w.paused

variable (id) in
/-- Where the task can stand, and what the follower can have read of it. -/
structure FollowedRun.Placed (w : FollowedRun) : Prop where
  unique : w.store.Unique
  awaited : w.phase = .awaited → ∀ s n, w.follower = .decided s n → s.isTerminal = true →
    ∀ status, w.store.status? id = some status → status.isTerminal = true
  underway : w.phase.InProgress → ∀ status, w.store.status? id = some status → Underway w status
  decided : w.phase.InProgress → ∀ status n, w.follower = .decided status n →
    status.isTerminal = true → status = .paused ∧ w.paused

theorem status_of_pause {b : Backend} (h : b.Unique) (moment : Moment)
    (hs : (b.perform moment (.pause id)).store.status? id = some status) :
    b.status? id = some status ∨
      (b.perform moment (.pause id)).result = (.ok true : Except Fault Bool) ∧
        status = .paused := by
  have hmoves := b.moves_perform h moment id (r := .pause id) trivial
  rw [hs] at hmoves
  match hresult : (b.perform moment (.pause id)).result with
  | .ok true =>
      rw [hresult] at hmoves
      simp only [Store.Effect.Moves, Request.effect, Store.Effect.on, Store.Effect.subject?,
        if_true] at hmoves
      exact Or.inr ⟨rfl, Option.some.inj hmoves.2⟩
  | .ok false | .error f =>
      rw [hresult] at hmoves
      rcases hmoves with hsame | hgone
      · exact Or.inl hsame.symm
      · cases hgone

/-- Whether a request writes a log without an end of its run. -/
def Edits : Request → Prop
  | .patch _ _ | .append _ _ _ => True
  | _ => False

theorem status_of_edit {b : Backend} (h : b.Unique) {r : Request} (hr : Edits r)
    (hs : (b.perform moment r).store.status? id = some status) :
    b.status? id = some status := by
  have hsteady : r.Steady (b.perform moment r).result := by
    cases r with
    | patch j p | append j lines window => trivial
    | _ => exact hr.elim
  have heffect : ∀ result, r.effect result = .nothing ∨ ∃ j, r.effect result = .edited j := by
    intro result
    cases r with
    | patch j p | append j lines window =>
        cases result with
        | error f => exact Or.inl rfl
        | ok a => exact Or.inr ⟨j, rfl⟩
    | _ => exact hr.elim
  rcases (b.moves_perform h moment id hsteady).kept (heffect _) with hsame | hgone
  · rw [← hsame, hs]
  · rw [hs] at hgone
    cases hgone

theorem status_of_claim {b : Backend} (h : b.Unique) {moment : Moment} {limit : Nat}
    {time : ZonedTime} {t : Task} (hid : t.id = id)
    (hanswer : (b.perform moment (.claim limit time)).result =
      (.ok (some t) : Except Fault (Option Task))) :
    b.status? id = some .queued ∧
      (b.perform moment (.claim limit time)).store.status? id = some .processing := by
  have hmoves := b.moves_perform h moment id (r := .claim limit time) ⟨_, hanswer⟩
  rw [hanswer] at hmoves
  simpa [Store.Effect.Moves, Request.effect, Store.Effect.on, Store.Effect.subject?, hid]
    using hmoves

namespace FollowedRun.Placed

theorem poll (h : w.Placed id) {lines : List String} {b : Backend} {f : Follower}
    (hpoll : Polls id w.store w.follower lines b f) :
    Placed id { w with store := b, follower := f } := by
  obtain rfl := hpoll.store
  have hread : ∀ s n, f = .decided s n → w.store.status? id = some s := by
    rintro s n rfl
    exact hpoll.decided
  refine ⟨h.unique, ?_, h.underway, ?_⟩
  · intro _ s n hf hterminal status hstatus
    rw [hread s n hf] at hstatus
    cases hstatus
    exact hterminal
  · intro hphase status n hf hterminal
    rcases h.underway hphase status (hread status n hf) with rfl | hpaused
    · cases hterminal
    · exact hpaused

theorem underway_of_edit (h : w.Placed id) (hphase : w.phase.InProgress) (moment : Moment)
    {r : Request} {status : Status}
    (hstatus : (w.store.perform moment r).store.status? id = some status) (hr : Edits r) :
    Underway w status :=
  h.underway hphase status (status_of_edit h.unique hr hstatus)

theorem step (h : w.Placed id) (hstep : Proceeds id w w') : w'.Placed id := by
  cases hstep with
  | claim moment limit time hphase hid hanswer =>
      obtain ⟨hqueued, hprocessing⟩ := status_of_claim h.unique hid hanswer
      refine ⟨w.store.unique_perform h.unique moment _, (fun hawaited => by cases hawaited), ?_, ?_⟩
      · intro _ status hstatus
        exact Or.inl (Option.some.inj (hstatus.symm.trans hprocessing))
      · intro _ status n hf hterminal
        have hends := h.awaited hphase status n hf hterminal .queued hqueued
        cases hends
  | reset moment hphase =>
      have hprogress : w.phase.InProgress := by
        rw [hphase]
        trivial
      exact ⟨w.store.unique_perform h.unique moment _, (fun hawaited => by cases hawaited),
        fun _ _ hstatus => h.underway_of_edit hprogress moment hstatus trivial,
        fun _ => h.decided hprogress⟩
  | append moment lines window hphase =>
      exact ⟨w.store.unique_perform h.unique moment _, (fun hawaited => by cases hawaited),
        fun _ _ hstatus => h.underway_of_edit hphase moment hstatus trivial,
        fun _ => h.decided hphase⟩
  | finalize moment p status hphase hanswer =>
      exact ⟨w.store.unique_perform h.unique moment _, (fun hawaited => by cases hawaited),
        False.elim, False.elim⟩
  | pause moment =>
      refine ⟨w.store.unique_perform h.unique moment _, ?_, ?_, ?_⟩
      · intro hphase s n hf hterminal status hstatus
        rcases status_of_pause h.unique moment hstatus with hsame | ⟨-, rfl⟩
        · exact h.awaited hphase s n hf hterminal status hsame
        · rfl
      · intro hphase status hstatus
        rcases status_of_pause h.unique moment hstatus with hsame | ⟨haccepted, hpaused⟩
        · exact (h.underway hphase status hsame).imp_right fun hw => ⟨hw.1, Or.inl hw.2⟩
        · exact Or.inr ⟨hpaused, Or.inr ⟨hphase, haccepted⟩⟩
      · intro hphase status n hf hterminal
        exact (h.decided hphase status n hf hterminal).imp_right Or.inl
  | poll hpoll => exact h.poll hpoll

end FollowedRun.Placed

/-! ## The log during a run -/

theorem recorded_found {r : Request} {before : Option Snapshot} {y : Snapshot}
    (h : Recorded moment r id before (some y)) (hnew : r.newId? moment = none) :
    ∃ x, before = some x := by
  cases h with
  | kept => exact ⟨y, rfl⟩
  | changed htarget hbefore hchange => exact ⟨_, hbefore⟩
  | created hrequest hid | inserted hrequest hid =>
      rw [hnew] at hid
      cases hid

/-- Whether the request adds lines to a log. -/
def Adds : Request → Prop
  | .append _ _ _ | .finalize _ _ _ => True
  | _ => False

theorem recorded_adds {r : Request} {before : Option Snapshot} {y : Snapshot}
    (h : Recorded moment r id before (some y)) (hr : Adds r) :
    ∃ x, before = some x ∧ x.seq ≤ y.seq := by
  cases h with
  | kept => exact ⟨y, rfl, Nat.le_refl _⟩
  | @changed a b htarget hbefore hchange =>
      refine ⟨_, hbefore, ?_⟩
      cases r with
      | append j lines window =>
          obtain ⟨next, hpush, rfl⟩ := Option.map_eq_some_iff.1 hchange
          exact (Nat.le_add_right _ _).trans_eq (Snapshot.seq_of_push hpush).symm
      | finalize j p status =>
          cases hchange
          exact a.seq_le_applyFinal p
      | _ => exact hr.elim
  | created hrequest hid | inserted hrequest hid =>
      rw [hrequest] at hr
      exact hr.elim

variable (id since) in
/-- If the log was empty before the run, the follower knows no more lines than the log counts,
except for those that it was told to leave out. -/
structure FollowedRun.Counted (w : FollowedRun) : Prop where
  unique : w.store.Unique
  fresh : w.phase = .awaited ∨ w.phase = .claimed →
    ∀ y, w.store.log? id = some y → y = .empty
  known : ∀ y, w.store.log? id = some y →
    w.follower.seen ≤ y.seq ∨ w.follower.seen = since ∧ y.seq < since

namespace FollowedRun.Counted

theorem known_of_le (h : w.Counted id since) {x y : Snapshot}
    (hx : w.store.log? id = some x) (hle : x.seq ≤ y.seq) :
    w.follower.seen ≤ y.seq ∨ w.follower.seen = since ∧ y.seq < since := by
  rcases h.known x hx with hseen | hsince
  · exact Or.inl (hseen.trans hle)
  · omega

theorem known_of_adds (h : w.Counted id since) (moment : Moment) {r : Request} {y : Snapshot}
    (hy : (w.store.perform moment r).store.log? id = some y) (hr : Adds r) :
    w.follower.seen ≤ y.seq ∨ w.follower.seen = since ∧ y.seq < since := by
  have hrecorded := w.store.recorded_perform h.unique moment r id
  rw [hy] at hrecorded
  obtain ⟨x, hx, hle⟩ := recorded_adds hrecorded hr
  exact h.known_of_le hx hle

theorem poll (h : w.Counted id since) {lines : List String} {b : Backend} {f : Follower}
    (hpoll : Polls id w.store w.follower lines b f) :
    Counted id since { w with store := b, follower := f } := by
  obtain rfl := hpoll.store
  refine ⟨h.unique, h.fresh, fun y hy => ?_⟩
  cases hlooks : w.follower.looks with
  | false =>
      rw [show f.seen = w.follower.seen from (hpoll.silent hlooks).2]
      exact h.known y hy
  | true =>
      obtain ⟨s, printed, hlog, hrender, -⟩ := hpoll.shown hlooks
      obtain rfl : s = y := Option.some.inj (hlog.symm.trans hy)
      rcases seen_of_render hrender with hall | ⟨hsame, hless⟩
      · exact Or.inl hall.le
      · rcases h.known s hlog with hseen | hsince
        · omega
        · exact Or.inr ⟨hsame.trans hsince.1, hsince.2⟩

theorem step (h : w.Counted id since) (hstep : Proceeds id w w') : w'.Counted id since := by
  have hrecorded := fun moment r => w.store.recorded_perform h.unique moment r id
  cases hstep with
  | claim moment limit time hphase hid hanswer =>
      have hsame := (hrecorded moment (.claim limit time)).same trivial
      refine ⟨w.store.unique_perform h.unique moment _, fun _ y hy => ?_, fun y hy => ?_⟩
      · exact h.fresh (Or.inl hphase) y (hsame ▸ hy)
      · exact h.known y (hsame ▸ hy)
  | reset moment hphase =>
      refine ⟨w.store.unique_perform h.unique moment _, fun hstart => ?_, fun y hy => ?_⟩
      · rcases hstart with hstart | hstart <;> cases hstart
      · have hwritten := hrecorded moment (.patch id .runReset)
        rw [hy] at hwritten
        obtain ⟨x, hx⟩ := recorded_found hwritten rfl
        have hzero := congrArg Snapshot.seq (h.fresh (Or.inr hphase) x hx)
        exact h.known_of_le hx (hzero.trans_le (Nat.zero_le _))
  | append moment lines window hphase =>
      refine ⟨w.store.unique_perform h.unique moment _, fun hstart => ?_,
        fun y hy => h.known_of_adds moment hy trivial⟩
      rcases hstart with hstart | hstart <;> cases hstart
  | finalize moment p status hphase hanswer =>
      refine ⟨w.store.unique_perform h.unique moment _, fun hstart => ?_,
        fun y hy => h.known_of_adds moment hy trivial⟩
      rcases hstart with hstart | hstart <;> cases hstart
  | pause moment =>
      have hsame := (hrecorded moment (.pause id)).same trivial
      refine ⟨w.store.unique_perform h.unique moment _, fun hstart y hy => ?_, fun y hy => ?_⟩
      · exact h.fresh hstart y (hsame ▸ hy)
      · exact h.known y (hsame ▸ hy)
  | poll hpoll => exact h.poll hpoll

end FollowedRun.Counted

/-! ## After the run -/

variable (id) in
/-- Whether the log can no longer change: the run is over, or its task cannot be claimed. -/
def FollowedRun.Settled (w : FollowedRun) : Prop :=
  w.store.Unique ∧ (w.phase = .finished ∨
    w.phase = .awaited ∧ ∀ status, w.store.status? id = some status → status.isTerminal = true)

theorem FollowedRun.Settled.step (h : w.Settled id) (hstep : Proceeds id w w') :
    w'.Settled id ∧ w'.store.log? id = w.store.log? id := by
  obtain ⟨hunique, hphase⟩ := h
  have hidle : ¬w.phase.InProgress := by
    rcases hphase with hphase | ⟨hphase, -⟩ <;> simp [hphase, Phase.InProgress]
  cases hstep with
  | claim moment limit time hawaited hid hanswer =>
      rcases hphase with hfinished | ⟨-, hstatus⟩
      · rw [hfinished] at hawaited
        cases hawaited
      · have hends := hstatus .queued (status_of_claim hunique hid hanswer).1
        cases hends
  | reset moment hclaimed => exact absurd (by rw [hclaimed]; trivial) hidle
  | append moment lines window hprogress => exact absurd hprogress hidle
  | finalize moment p status hprogress hanswer => exact absurd hprogress hidle
  | pause moment =>
      refine ⟨⟨w.store.unique_perform hunique moment _, hphase.imp_right fun hwaits => ?_⟩,
        (w.store.recorded_perform hunique moment (.pause id) id).same trivial⟩
      refine ⟨hwaits.1, fun status hstatus => ?_⟩
      rcases status_of_pause hunique moment hstatus with hsame | ⟨-, rfl⟩
      · exact hwaits.2 status hsame
      · rfl
  | poll hpoll =>
      obtain rfl := hpoll.store
      exact ⟨⟨hunique, hphase⟩, rfl⟩

theorem FollowedRun.Settled.log_same (h : w.Settled id)
    (hrun : Relation.ReflTransGen (Proceeds id) w w') :
    w'.store.log? id = w.store.log? id := by
  have hboth : w'.Settled id ∧ w'.store.log? id = w.store.log? id := by
    induction hrun with
    | refl => exact ⟨h, rfl⟩
    | tail _ hstep ih =>
        obtain ⟨hsettled, hsame⟩ := ih.1.step hstep
        exact ⟨hsettled, hsame.trans ih.2⟩
  exact hboth.2

/-! ## What a run can still add -/

variable (id) in
/-- Whether a backend that can be written holds this log for the task. -/
def HeldIn : Backend → Snapshot → Prop
  | .memory m, shown => Log.HeldInMemory id m shown
  | .table t, shown => Log.HeldInTable id t shown
  | .readOnly _, _ => False

variable {b : Backend} {shown : Snapshot}

theorem log_of_held (h : HeldIn id b shown) : b.log? id = some shown := by
  cases b with
  | memory m =>
      obtain ⟨-, t, hfind, rfl⟩ := h
      show (m.find? id).map _ = _
      rw [hfind]
      rfl
  | table t =>
      obtain ⟨rows, row, result, hrows, hfind, hread, -, rfl⟩ := h
      show t.log? id = _
      rw [Store.Table.log_of_rows hrows, hfind, Option.bind_some, hread]
      rfl
  | readOnly t => exact h.elim

theorem held_append (h : HeldIn id b shown) (moment : Moment) {lines : List String} {window : Nat}
    {next : Snapshot} (hpush : shown.push? lines window = some next) :
    HeldIn id (b.perform moment (.append id lines window)).store next := by
  cases b with
  | memory m => exact ((Log.keepsLog_memory id).appends m moment _ _ _ _ h hpush).2
  | table t => exact ((Log.keepsLog_table id).appends t moment _ _ _ _ h hpush).2
  | readOnly t => exact h.elim

theorem held_finalize (h : HeldIn id b shown) (moment : Moment) {p : ResultPatch}
    {lines : List String} {seq : Nat} (hp : Shell.Reports p lines seq)
    (hterminal : status.isTerminal = true)
    (hfits : max (max seq shown.seq) lines.length < counterBound) :
    (b.perform moment (.finalize id p status)).result = (.ok () : Except Fault Unit) ∧
      HeldIn id (b.perform moment (.finalize id p status)).store
        ⟨lines, max (max seq shown.seq) lines.length⟩ := by
  cases b with
  | memory m => exact Shell.finalizesLog_memory id m moment _ _ _ _ _ h hterminal hp hfits
  | table t => exact Shell.finalizesLog_table id t moment _ _ _ _ _ h hterminal hp hfits
  | readOnly t => exact h.elim

/-- A run in progress can add any lines that can be counted, and end after that. -/
theorem run_adds (hphase : w.phase.InProgress) (hheld : HeldIn id w.store shown)
    {more : List String} (hfits : shown.seq + more.length < counterBound) :
    ∃ w', Relation.ReflTransGen (Proceeds id) w w' ∧ w'.phase = .finished ∧
      ∃ y, w'.store.log? id = some y ∧ shown.seq + more.length ≤ y.seq := by
  obtain ⟨next, hpush⟩ := Snapshot.push_isSome hfits 1
  have hseq := Snapshot.seq_of_push hpush
  have hshort : next.lines.length ≤ 1 := by
    unfold Snapshot.push? at hpush
    split at hpush
    · cases hpush
      rw [Log.length_newest]
      exact Nat.min_le_left _ _
    · cases hpush
  let p : ResultPatch := { ResultPatch.empty with logs := some next.lines, seq := some next.seq }
  have hp : Shell.Reports p next.lines next.seq := ⟨rfl, rfl, Json.Object.allReadable_empty _⟩
  have hnext := held_append hheld Store.firstMoment hpush
  have hbound : (1 : Nat) < counterBound := by decide
  obtain ⟨hanswer, hlast⟩ := held_finalize hnext Store.firstMoment hp
    (show Status.succeeded.isTerminal = true from rfl) (by omega)
  have hrun := (Relation.ReflTransGen.single
    (Proceeds.append (w := w) Store.firstMoment more 1 hphase)).tail
    (.finalize Store.firstMoment p .succeeded trivial hanswer)
  refine ⟨_, hrun, rfl, _, log_of_held hlast, ?_⟩
  show shown.seq + more.length ≤ max (max next.seq next.seq) next.lines.length
  omega

/-! ## Where a follower stops -/

variable (id) in
/-- What is known of a follower that has stopped after `n` lines. -/
structure FollowedRun.Stopped (store : Backend) (since : Nat) (w : FollowedRun) (status : Status)
    (n : Nat) : Prop where
  /-- It has printed what there was, up to the last line. -/
  current : (∀ y, store.log? id = some y → y = .empty) →
    ∀ y, w.store.log? id = some y → n = y.seq ∨ n = since ∧ y.seq < since
  /-- Nothing is added later, unless the run was still in progress. -/
  complete : ¬w.phase.InProgress →
    ∀ w', Relation.ReflTransGen (Proceeds id) w w' → w'.store.log? id = w.store.log? id
  /-- That is so only if the task was paused meanwhile. -/
  cause : w.phase.InProgress → status = .paused ∧ w.paused
  /-- Then the run may add any more lines. -/
  missed : w.phase.InProgress → ∀ (shown : Snapshot) (more : List String), HeldIn id w.store shown →
    shown.seq + more.length < counterBound →
    ∃ w', Relation.ReflTransGen (Proceeds id) w w' ∧ w'.phase = .finished ∧
      ∃ y, w'.store.log? id = some y ∧ shown.seq + more.length ≤ y.seq

theorem FollowedRun.placed_of_run {store : Backend} (hunique : store.Unique)
    (hrun : Relation.ReflTransGen (Proceeds id) (.start store since) w) : w.Placed id := by
  induction hrun with
  | refl =>
      refine ⟨hunique, fun _ s n hf => ?_, False.elim, False.elim⟩
      cases hf
  | tail _ hstep ih => exact ih.step hstep

theorem FollowedRun.counted_of_run {store : Backend} (hunique : store.Unique)
    (hempty : ∀ y, store.log? id = some y → y = .empty)
    (hrun : Relation.ReflTransGen (Proceeds id) (.start store since) w) : w.Counted id since := by
  induction hrun with
  | refl =>
      refine ⟨hunique, fun _ => hempty, fun y hy => ?_⟩
      rw [hempty y hy]
      rcases Nat.eq_zero_or_pos since with hzero | hpos
      · exact Or.inl hzero.le
      · exact Or.inr ⟨rfl, hpos⟩
  | tail _ hstep ih => exact ih.step hstep

/-- Over every interleaving of a follower with a run and with pauses: when the follower stops, it has
printed what there was, and this is all that the run leaves if the run is not in progress by then.  A
follower stops during a run only if the task was paused, and what the run still adds is missed. -/
theorem follower_stops (id : TaskId) {store : Backend} (since : Nat) (hunique : store.Unique)
    {w : FollowedRun} (hrun : Relation.ReflTransGen (Proceeds id) (.start store since) w)
    {lines : List String} {b : Backend} {status : Status} {n : Nat}
    (hstop : Polls id w.store w.follower lines b (.stopped status n)) :
    FollowedRun.Stopped id store since { w with store := b, follower := .stopped status n }
      status n := by
  have hplaced := FollowedRun.placed_of_run hunique hrun
  obtain ⟨seen, hdecided, hterminal⟩ := hstop.stopped
  have hlooks : w.follower.looks = true := by
    rw [hdecided]
    rfl
  refine ⟨fun hempty y hy => ?_, fun hidle w' hlater => ?_, fun hphase => ?_,
    fun hphase shown more hheld hfits => run_adds hphase hheld hfits⟩
  · have hcounted := (FollowedRun.counted_of_run hunique hempty hrun).poll hstop
    obtain ⟨s, printed, hlog, hrender, -⟩ := hstop.shown hlooks
    obtain rfl := hstop.store
    obtain rfl : s = y := Option.some.inj (hlog.symm.trans hy)
    rcases seen_of_render hrender with hall | ⟨hsame, hless⟩
    · exact Or.inl hall
    · have hknown : n ≤ s.seq ∨ n = since ∧ s.seq < since := hcounted.known s hy
      have hn : n = w.follower.seen := hsame
      exact hknown.imp_left fun hle => by omega
  · refine FollowedRun.Settled.log_same ⟨hstop.store ▸ hplaced.unique, ?_⟩ hlater
    cases hphase : w.phase with
    | finished => exact Or.inl rfl
    | awaited =>
        refine Or.inr ⟨rfl, fun s hs => ?_⟩
        obtain rfl := hstop.store
        exact hplaced.awaited hphase status seen hdecided hterminal s hs
    | claimed | executing =>
        refine absurd ?_ hidle
        show w.phase.InProgress
        rw [hphase]
        trivial
  · exact hplaced.decided hphase status seen hdecided hterminal

/-- A follower that reads the status after the end of a run has printed all lines of the run. -/
theorem follower_stops_afterEnd :
    let s := Log.freshStore
    (Backend.memory s).Unique ∧ ∃ w b,
      Relation.ReflTransGen (Proceeds ⟨1⟩) (.start (.memory s) 0) w ∧
      Polls ⟨1⟩ w.store w.follower ["two", endMarker .succeeded] b (.stopped .succeeded 2) ∧
      FollowedRun.Stopped ⟨1⟩ (.memory s) 0
        { w with store := b, follower := .stopped .succeeded 2 } .succeeded 2 ∧
      w.phase = .finished ∧ ∃ y, b.log? ⟨1⟩ = some y ∧ y.seq = 2 := by
  intro s
  have hunique : (Backend.memory s).Unique := by
    show (Log.freshStore.tasks.map Task.id).Nodup
    decide
  have hrun := ((((((Relation.ReflTransGen.refl (r := Proceeds ⟨1⟩)
    (a := .start (.memory s) 0)).tail
      (.claim Store.firstMoment 10 ⟨⟨0, 0⟩, 0⟩ rfl rfl rfl)).tail
      (.append Store.firstMoment ["one"] 5 trivial)).tail
      (.poll (.first Store.firstMoment rfl))).tail
      (.append Store.firstMoment ["two"] 5 trivial)).tail
      (.finalize Store.firstMoment .empty .succeeded trivial rfl)).tail
      (.poll (.read Store.firstMoment 1 rfl))
  refine ⟨hunique, _, _, hrun, .stop Store.firstMoment ["two"] rfl rfl, ?_, rfl, _, rfl, rfl⟩
  exact follower_stops ⟨1⟩ 0 hunique hrun (.stop Store.firstMoment ["two"] rfl rfl)

/-- The task is paused after the first line of a run that writes a second one. -/
theorem not_follower_complete_paused :
    ¬∀ w w' lines b status n,
      Relation.ReflTransGen (Proceeds ⟨1⟩) (.start (.memory Log.freshStore) 0) w →
      Polls ⟨1⟩ w.store w.follower lines b (.stopped status n) →
      Relation.ReflTransGen (Proceeds ⟨1⟩)
        { w with store := b, follower := .stopped status n } w' →
      w'.phase = .finished → ∀ y, w'.store.log? ⟨1⟩ = some y → y.seq = n := by
  intro h
  have hrun := (((((Relation.ReflTransGen.refl (r := Proceeds ⟨1⟩)
    (a := .start (.memory Log.freshStore) 0)).tail
      (.claim Store.firstMoment 10 ⟨⟨0, 0⟩, 0⟩ rfl rfl rfl)).tail
      (.append Store.firstMoment ["one"] 5 trivial)).tail
      (.poll (.first Store.firstMoment rfl))).tail
      (.pause Store.firstMoment)).tail
      (.poll (.read Store.firstMoment 1 rfl))
  have hlater := fun w' => h _ w' _ _ .paused 1 hrun (.stop Store.firstMoment [] rfl rfl)
  have hseq := hlater _ (.tail (.single (.append Store.firstMoment ["two"] 5 trivial))
    (.finalize Store.firstMoment .empty .paused trivial rfl)) rfl _ rfl
  cases hseq

end TaskQueue.Cli
