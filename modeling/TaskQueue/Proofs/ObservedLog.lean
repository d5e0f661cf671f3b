import Mathlib.Tactic
import TaskQueue.Proofs.LogWindow
import TaskQueue.Proofs.MemoryLifecycle
import TaskQueue.Proofs.StoreAgreement
import TaskQueue.Proofs.TableLifecycle

/-!
# An observer of a log

The log of a task grows by additions of any size, each with a window of its own, and is reset now
and then.  An observer looks at the log whenever it likes, and may look at earlier snapshots again.
It never loses, repeats or reorders lines, as long as it looks at the log once after each reset
before the log grows again, and at no snapshot from before the reset.
-/

namespace TaskQueue.Log

open Store (Memory Moment Request Row Step Table firstMoment)

variable {σ : Type}

/-- A store, the log of a task in it, and an observer of the log. -/
structure Watched (σ : Type) where
  store : σ
  /-- The lines since the last reset of the log, oldest first. -/
  written : List String
  /-- The snapshots with lines that the log has shown since then. -/
  issued : List Snapshot
  view : View
  /-- Whether the observer has yet to look at the log after a reset. -/
  behind : Bool

/-- Whether a request resets the log of the task: the reset of a run, or an accepted retry. -/
def Resets (id : TaskId) : (r : Request) → Except Fault r.Answer → Prop
  | .patch j p, (result : Except Fault Unit) => j = id ∧ p = .runReset ∧ result = .ok ()
  | .retry j, (result : Except Fault Bool) => j = id ∧ result = .ok true
  | _, _ => False

section Steps

variable (perform : σ → Moment → (r : Request) → Step σ r.Answer) (id : TaskId)

/-- What can happen to the log or to its observer next. -/
inductive Watching : Watched σ → Watched σ → Prop where
  | append (w : Watched σ) (moment : Moment) (lines : List String) (window : Nat) {s : Snapshot}
      (hbehind : w.behind = false) (hfits : w.written.length + lines.length + 1 < counterBound)
      (hanswer : (perform w.store moment (.append id lines window)).result =
        (.ok s : Except Fault Snapshot)) :
    Watching w
      ⟨(perform w.store moment (.append id lines window)).store, w.written ++ lines,
        if s.lines = [] then w.issued else s :: w.issued, w.view, false⟩
  | reset (w : Watched σ) (moment : Moment) (r : Request)
      (hreset : Resets id r (perform w.store moment r).result) :
    Watching w ⟨(perform w.store moment r).store, [], [], w.view, true⟩
  | look (w : Watched σ) (moment : Moment) {s : Snapshot} {delta : Delta} {v : View}
      (hanswer : (perform w.store moment (.snapshot id)).result =
        (.ok (some s) : Except Fault (Option Snapshot)))
      (hupdate : w.view.update? s = some (delta, v)) :
    Watching w ⟨(perform w.store moment (.snapshot id)).store, w.written, w.issued, v, false⟩
  | lookBack (w : Watched σ) {s : Snapshot} {delta : Delta} {v : View}
      (hissued : s ∈ w.issued) (hupdate : w.view.update? s = some (delta, v)) :
    Watching w { w with view := v }

/-- What an observer can rely on. -/
structure Watched.Faithful (w : Watched σ) : Prop where
  /-- The view shows lines that follow one another, up to the newest one seen. -/
  lines : w.behind = false →
    w.view.seen ≤ w.written.length ∧ w.view.lines <:+ w.written.take w.view.seen
  /-- A look at the log as it is brings the view up to date, and another one changes nothing. -/
  current : ∃ s, (∀ moment, (perform w.store moment (.snapshot id)).result =
      (.ok (some s) : Except Fault (Option Snapshot))) ∧
    s.seq = w.written.length ∧ s.lines <:+ w.written ∧
    ∃ delta v, w.view.update? s = some (delta, v) ∧ v.seen = s.seq ∧ s.lines <:+ v.lines ∧
      v.update? s = some (.noop, v) ∧
      ∃ delta' fresh, View.empty.update? s = some (delta', fresh) ∧ fresh.seen = v.seen ∧
        fresh.lines = s.lines
  /-- The view can take in any snapshot that the log has shown. -/
  earlier : ∀ s ∈ w.issued, ∃ delta v, w.view.update? s = some (delta, v)
  grows : ∀ moment lines window, w.written.length + lines.length + 1 < counterBound →
    ∃ s, (perform w.store moment (.append id lines window)).result = (.ok s : Except Fault Snapshot)

/-- A store that keeps the log of a task; it holds the log that its next snapshot shows. -/
structure KeepsLog (Holds : σ → Snapshot → Prop) : Prop where
  reads : ∀ s moment shown, Holds s shown →
    (perform s moment (.snapshot id)).result =
        (.ok (some shown) : Except Fault (Option Snapshot)) ∧
      Holds (perform s moment (.snapshot id)).store shown
  appends : ∀ s moment shown lines window next, Holds s shown →
    shown.push? lines window = some next →
    (perform s moment (.append id lines window)).result = (.ok next : Except Fault Snapshot) ∧
      Holds (perform s moment (.append id lines window)).store next
  resets : ∀ s moment shown r, Holds s shown → Resets id r (perform s moment r).result →
    Holds (perform s moment r).store .empty

end Steps

/-! ## What every step keeps -/

/-- The log shows its lines after number `first`, and no earlier line is missing that the observer
could need. -/
structure Watched.Sound (Holds : σ → Snapshot → Prop) (w : Watched σ) (shown : Snapshot)
    (first : Nat) : Prop where
  holds : Holds w.store shown
  shows_lines : shown.Shows w.written first
  seq : shown.seq = w.written.length
  nonempty : w.written ≠ [] → first < shown.seq
  fits : w.written.length + 1 < counterBound
  issued : ∀ s ∈ w.issued, ∃ b, s.Shows w.written b ∧ b < s.seq ∧ b ≤ first
  follows : w.behind = false → ∃ a, w.view.Follows w.written a ∧ a ≤ first
  behind : w.behind = true → w.written = [] ∧ w.issued = [] ∧ shown = .empty
  blank : w.view.seen = 0 → w.view.lines = []

variable {perform : σ → Moment → (r : Request) → Step σ r.Answer} {id : TaskId}
  {Holds : σ → Snapshot → Prop} {w w' : Watched σ} {shown : Snapshot} {first : Nat}

theorem blank_of_follows {written : List String} {v : View} {a : Nat}
    (h : v.Follows written a) (hseen : v.seen = 0) : v.lines = [] := by
  have ha : a = v.seen := by
    have hle := h.start_le
    omega
  rw [h.lines, ha, between_self]

/-- A view that looks at a log which is back at its beginning is empty. -/
theorem update_reset {v : View} (hblank : v.seen = 0 → v.lines = []) :
    ∃ delta, v.update? .empty = some (delta, .empty) := by
  by_cases hseen : v.seen = 0
  · have hv : v = .empty := by
      rcases v with ⟨lines, seen⟩
      cases hseen
      have hlines : lines = [] := hblank rfl
      rw [hlines]
      rfl
    rw [hv]
    exact ⟨.noop, rfl⟩
  · refine ⟨.resync [] 0, ?_⟩
    unfold View.update?
    rw [reconcile_empty (Nat.pos_of_ne_zero hseen)]
    rfl

namespace Watched.Sound

theorem append (h : w.Sound Holds shown first) (hkeeps : KeepsLog perform id Holds)
    (moment : Moment) {lines : List String} (window : Nat) {s : Snapshot}
    (hbehind : w.behind = false) (hfits : w.written.length + lines.length + 1 < counterBound)
    (hanswer : (perform w.store moment (.append id lines window)).result =
      (.ok s : Except Fault Snapshot)) :
    ∃ first', Sound Holds
      ⟨(perform w.store moment (.append id lines window)).store, w.written ++ lines,
        if s.lines = [] then w.issued else s :: w.issued, w.view, false⟩ s first' := by
  have hcount : shown.seq + lines.length < counterBound := by
    rw [h.seq]
    omega
  obtain ⟨next, hpush⟩ := Snapshot.push_isSome hcount window
  obtain ⟨hresult, hholds⟩ := hkeeps.appends _ moment _ _ _ _ h.holds hpush
  obtain ⟨first', hle, hshows, hseq, hnonempty⟩ := h.shows_lines.push h.seq h.nonempty hpush
  rw [hresult] at hanswer
  cases hanswer
  refine ⟨first', hholds, hshows, hseq, hnonempty, ?_, ?_, ?_, ?_, h.blank⟩
  · rw [List.length_append]
    omega
  · have hold : ∀ r ∈ w.issued, ∃ b, r.Shows (w.written ++ lines) b ∧ b < r.seq ∧ b ≤ first' := by
      intro r hr
      obtain ⟨b, hb, hlt, hbs⟩ := h.issued r hr
      exact ⟨b, hb.append lines, hlt, hbs.trans hle⟩
    intro r hr
    split at hr
    · exact hold r hr
    · rename_i hlines
      rcases List.mem_cons.1 hr with hr | hr
      · refine ⟨first', hr ▸ hshows, ?_, Nat.le_refl _⟩
        have hlength := hshows.length
        have hpos := List.length_pos_iff.2 hlines
        rw [hr]
        omega
      · exact hold r hr
  · intro _
    obtain ⟨a, ha, has⟩ := h.follows hbehind
    exact ⟨a, ha.append lines, has.trans hle⟩
  · intro hfalse
    cases hfalse

/-- A look at the log as it is. -/
theorem look (h : w.Sound Holds shown first) :
    ∃ delta v, w.view.update? shown = some (delta, v) ∧ v.seen = shown.seq ∧
      ∃ a, v.Follows w.written a ∧ a ≤ first := by
  cases hbehind : w.behind with
  | true =>
      obtain ⟨hwritten, -, hshown⟩ := h.behind hbehind
      obtain ⟨delta, hupdate⟩ := update_reset h.blank
      rw [hshown]
      exact ⟨delta, .empty, hupdate, rfl, 0, .empty _, Nat.zero_le _⟩
  | false =>
      obtain ⟨a, ha, has⟩ := h.follows hbehind
      have hseen : w.view.seen ≤ shown.seq := h.seq ▸ ha.seen_le
      by_cases hw : w.written = []
      · have hzero : shown.seq = w.view.seen := by
          have hlength := h.seq
          rw [hw, List.length_nil] at hlength
          omega
        have hlines : shown.lines.length ≤ shown.seq := by
          rw [h.shows_lines.length]
          exact Nat.sub_le _ _
        exact ⟨_, _, View.update_of_seq_eq hlines hzero, hzero.symm, a, ha, has⟩
      · have hfits : shown.seq + 1 < counterBound := h.seq ▸ h.fits
        obtain ⟨delta, v, hupdate, hfollows, hmax⟩ :=
          View.update_of_shows h.shows_lines (h.nonempty hw) hfits ha
        refine ⟨delta, v, hupdate, hmax.trans (Nat.max_eq_right hseen), _, hfollows, ?_⟩
        split
        · exact Nat.le_refl _
        · exact has

/-- A look at a snapshot that the log has shown. -/
theorem lookBack (h : w.Sound Holds shown first) {s : Snapshot} (hs : s ∈ w.issued) :
    ∃ delta v, w.view.update? s = some (delta, v) ∧ ∃ a, v.Follows w.written a ∧ a ≤ first := by
  have hbehind : w.behind = false := by
    cases hbehind : w.behind with
    | false => rfl
    | true =>
        rw [(h.behind hbehind).2.1] at hs
        cases hs
  obtain ⟨a, ha, has⟩ := h.follows hbehind
  obtain ⟨b, hb, hlt, hbs⟩ := h.issued s hs
  have hfits : s.seq + 1 < counterBound := by
    have hle := hb.seq_le
    have hbound := h.fits
    omega
  obtain ⟨delta, v, hupdate, hfollows, -⟩ := View.update_of_shows hb hlt hfits ha
  refine ⟨delta, v, hupdate, _, hfollows, ?_⟩
  split
  · exact hbs
  · exact has

/-- Nothing that happens makes the observer miss a line. -/
theorem step (h : w.Sound Holds shown first) (hkeeps : KeepsLog perform id Holds)
    (hstep : Watching perform id w w') : ∃ shown' first', w'.Sound Holds shown' first' := by
  cases hstep with
  | append moment lines window hbehind hfits hanswer =>
      exact ⟨_, h.append hkeeps moment window hbehind hfits hanswer⟩
  | reset moment r hreset =>
      refine ⟨.empty, 0, hkeeps.resets _ moment _ r h.holds hreset, .empty _, rfl, ?_, ?_, ?_, ?_,
        ?_, h.blank⟩
      · intro hne
        exact absurd rfl hne
      · show 0 + 1 < counterBound
        decide
      · intro s hs
        cases hs
      · intro hfalse
        cases hfalse
      · exact fun _ => ⟨rfl, rfl, rfl⟩
  | look moment hanswer hupdate =>
      obtain ⟨hread, hholds⟩ := hkeeps.reads _ moment _ h.holds
      rw [hread] at hanswer
      cases hanswer
      obtain ⟨delta, v, hlook, -, a, ha, has⟩ := h.look
      rw [hlook] at hupdate
      cases hupdate
      exact ⟨shown, first, hholds, h.shows_lines, h.seq, h.nonempty, h.fits, h.issued,
        fun _ => ⟨a, ha, has⟩, Bool.noConfusion, fun hseen => blank_of_follows ha hseen⟩
  | lookBack hissued hupdate =>
      obtain ⟨delta, v, hlook, a, ha, has⟩ := h.lookBack hissued
      rw [hlook] at hupdate
      cases hupdate
      exact ⟨shown, first, h.holds, h.shows_lines, h.seq, h.nonempty, h.fits, h.issued,
        fun _ => ⟨a, ha, has⟩, h.behind, fun hseen => blank_of_follows ha hseen⟩

theorem faithful (h : w.Sound Holds shown first) (hkeeps : KeepsLog perform id Holds) :
    w.Faithful perform id where
  lines hbehind := by
    obtain ⟨a, ha, -⟩ := h.follows hbehind
    exact ⟨ha.seen_le, ha.suffix⟩
  current := by
    have hsuffix : shown.lines <:+ w.written := by
      have htake := h.shows_lines.suffix
      rwa [h.seq, List.take_length] at htake
    obtain ⟨delta, v, hupdate, hseen, a, ha, has⟩ := h.look
    have hlines : shown.lines <:+ v.lines := by
      rw [h.shows_lines.lines, ha.lines, hseen]
      exact between_suffix has
    have hshort : shown.lines.length ≤ shown.seq := by
      rw [h.shows_lines.length]
      exact Nat.sub_le _ _
    have hfits : shown.seq + 1 < counterBound := h.seq ▸ h.fits
    obtain ⟨delta', fresh, hfresh, hfreshseen, hfreshlines⟩ :=
      View.empty_update h.shows_lines h.nonempty h.seq hfits
    exact ⟨shown, fun moment => (hkeeps.reads _ moment _ h.holds).1, h.seq, hsuffix, delta, v,
      hupdate, hseen, hlines, View.update_of_seq_eq hshort hseen.symm, delta', fresh, hfresh,
      hfreshseen.trans hseen.symm, hfreshlines⟩
  earlier s hs := by
    obtain ⟨delta, v, hupdate, -⟩ := h.lookBack hs
    exact ⟨delta, v, hupdate⟩
  grows moment lines window hfits := by
    have hcount : shown.seq + lines.length < counterBound := by
      rw [h.seq]
      omega
    obtain ⟨next, hpush⟩ := Snapshot.push_isSome hcount window
    exact ⟨next, (hkeeps.appends _ moment _ _ _ _ h.holds hpush).1⟩

end Watched.Sound

/-- A new observer of an empty log. -/
def Watched.start (store : σ) : Watched σ :=
  ⟨store, [], [], .empty, false⟩

theorem sound_start {store : σ} (hholds : Holds store .empty) :
    (Watched.start store).Sound Holds .empty 0 where
  holds := hholds
  shows_lines := .empty _
  seq := rfl
  nonempty hne := absurd rfl hne
  fits := by
    show 0 + 1 < counterBound
    decide
  issued s hs := by cases hs
  follows _ := ⟨0, .empty _, Nat.le_refl _⟩
  behind hfalse := by cases hfalse
  blank _ := rfl

theorem faithful_of_watching (hkeeps : KeepsLog perform id Holds) {store : σ}
    (hholds : Holds store .empty)
    (hrun : Relation.ReflTransGen (Watching perform id) (.start store) w) :
    w.Faithful perform id := by
  have hsound : ∃ shown first, w.Sound Holds shown first := by
    induction hrun with
    | refl => exact ⟨.empty, 0, sound_start hholds⟩
    | tail _ hstep ih =>
        obtain ⟨shown, first, h⟩ := ih
        exact h.step hkeeps hstep
  obtain ⟨shown, first, h⟩ := hsound
  exact h.faithful hkeeps

/-! ## The two stores -/

/-- Whether a store in memory holds this log for the task. -/
def HeldInMemory (id : TaskId) (m : Memory) (shown : Snapshot) : Prop :=
  m.poisoned = false ∧ ∃ t, m.find? id = some t ∧ t.result.snapshot = shown

/-- Whether a table holds this log for the task, in a result that can be read after it was
written. -/
def HeldInTable (id : TaskId) (t : Table) (shown : Snapshot) : Prop :=
  ∃ rows row result, t.rows = some rows ∧ Table.findRow? rows id.text = some row ∧
    Row.resultOf? row.result = some result ∧ result.Storable ∧ result.snapshot = shown

theorem held_replace {m : Memory} {t u : Task} (hopen : m.poisoned = false)
    (hfind : m.find? id = some t) (hid : u.id = id) :
    HeldInMemory id (m.replace u) u.result.snapshot :=
  ⟨hopen, u, Memory.find_replace_self hfind hid, rfl⟩

theorem keepsLog_memory (id : TaskId) : KeepsLog Memory.perform id (HeldInMemory id) where
  reads m moment shown := by
    rintro ⟨hopen, t, hfind, rfl⟩
    have hstep : m.snapshot id = .done m (some t.result.snapshot) := by
      unfold Memory.snapshot
      rw [Memory.locked_open hopen, hfind]
      rfl
    rw [Memory.perform, hstep]
    exact ⟨rfl, hopen, t, hfind, rfl⟩
  appends m moment shown lines window next := by
    rintro ⟨hopen, t, hfind, rfl⟩ hpush
    rw [Memory.perform, Memory.append_of_push hopen hfind hpush]
    exact ⟨rfl, held_replace (u := { t with
      result := t.result.withLog next, updatedAt := moment.now }) hopen hfind
      (Memory.mem_of_find hfind).2⟩
  resets m moment shown r := by
    rintro ⟨hopen, t, hfind, rfl⟩ hreset
    have hid := (Memory.mem_of_find hfind).2
    cases r with
    | patch j p =>
        obtain ⟨hj, hp, -⟩ := hreset
        rw [hj, hp, Memory.perform, Memory.patch_eq_modify, Memory.modify_of_find hopen hfind rfl]
        exact held_replace (u := { t with
          result := t.result.apply .runReset, updatedAt := moment.now }) hopen hfind hid
    | retry j =>
        obtain ⟨hj, haccepted⟩ := hreset
        rw [hj, Memory.perform] at haccepted ⊢
        unfold Memory.retry Memory.withTask at haccepted ⊢
        rw [Memory.locked_open hopen, hfind] at haccepted ⊢
        simp only at haccepted ⊢
        split at haccepted
        · split at haccepted
          · rename_i hretryable hfits
            rw [if_pos hretryable, if_pos hfits]
            exact held_replace (u := { t with
              status := .queued
              retries := t.retries + 1
              result := t.result.apply .runReset
              updatedAt := moment.now }) hopen hfind hid
          · cases haccepted
        · cases haccepted
    | _ => exact hreset.elim

theorem held_replaceRow {rows : List Row} {a b : Row} {result : TaskResult}
    (hfind : Table.findRow? rows id.text = some a) (hid : b.id = id.text)
    (hread : Row.resultOf? b.result = some result) (hstorable : result.Storable) :
    HeldInTable id (Table.replaceRow rows b) result.snapshot :=
  ⟨_, b, result, rfl, Table.find_replaceRow_self hfind hid, hread, hstorable, rfl⟩

theorem keepsLog_table (id : TaskId) : KeepsLog Table.perform id (HeldInTable id) where
  reads t moment shown := by
    rintro ⟨rows, row, result, hrows, hfind, hread, hstorable, rfl⟩
    have hstep : t.snapshot id = .done t (some result.snapshot) := by
      unfold Table.snapshot Table.withRows
      simp only [hrows, hfind, hread]
    rw [Table.perform, hstep]
    exact ⟨rfl, rows, row, result, hrows, hfind, hread, hstorable, rfl⟩
  appends t moment shown lines window next := by
    rintro ⟨rows, row, result, hrows, hfind, hread, hstorable, rfl⟩ hpush
    have hstored := hstorable.push hpush
    have hheld := held_replaceRow (b := { row with
      result := (result.withLog next).encode.compact, updatedAt := moment.now.stamp }) hfind
      (Table.id_of_find hfind).2 (Row.resultOf_compact hstored) hstored
    rw [Table.perform, Table.append_of_push hrows hfind hread hpush]
    exact ⟨rfl, hheld⟩
  resets t moment shown r := by
    rintro ⟨rows, row, result, hrows, hfind, hread, hstorable, rfl⟩ hreset
    have hid := (Table.id_of_find hfind).2
    have hstored := hstorable.runReset
    cases r with
    | patch j p =>
        obtain ⟨hj, hp, -⟩ := hreset
        have hheld := held_replaceRow (b := { row with
          result := (result.apply .runReset).encode.compact, updatedAt := moment.now.stamp }) hfind
          hid (Row.resultOf_compact hstored) hstored
        rw [hj, hp, Table.perform, Table.patch, Table.modify_of_find hrows hfind hread rfl]
        exact hheld
    | retry j =>
        obtain ⟨hj, haccepted⟩ := hreset
        rw [hj, Table.perform] at haccepted ⊢
        unfold Table.retry Table.withRows at haccepted ⊢
        simp only [hrows, hfind, hread] at haccepted ⊢
        split at haccepted
        · cases haccepted
        · split at haccepted
          · rename_i status hstatus hretryable
            rw [if_pos hretryable]
            exact held_replaceRow (b := { row with
              status := Status.queued.name
              retries := row.retries + 1
              result := (result.apply .runReset).encode.compact
              updatedAt := moment.now.stamp }) hfind hid (Row.resultOf_compact hstored) hstored
          · cases haccepted
    | _ => exact hreset.elim

/-- In both stores an observer of a log that starts empty sees every line once and in order. -/
theorem observer_faithful (id : TaskId) :
    (∀ store w, HeldInMemory id store .empty →
        Relation.ReflTransGen (Watching Memory.perform id) (.start store) w →
        w.Faithful Memory.perform id) ∧
      ∀ store w, HeldInTable id store .empty →
        Relation.ReflTransGen (Watching Table.perform id) (.start store) w →
        w.Faithful Table.perform id :=
  ⟨fun _ _ hheld hrun => faithful_of_watching (keepsLog_memory id) hheld hrun,
    fun _ _ hheld hrun => faithful_of_watching (keepsLog_table id) hheld hrun⟩

/-- A store with one new task. -/
def freshStore : Memory :=
  (Memory.empty.perform firstMoment (.enqueue ⟨none, "push", .object []⟩)).store

/-- The first of three lines is dropped before it is seen; the last one is seen after the second. -/
theorem observer_faithful_dropped :
    HeldInMemory ⟨1⟩ freshStore .empty ∧
      ∃ w, Relation.ReflTransGen (Watching Memory.perform ⟨1⟩) (.start freshStore) w ∧
        w.written = ["a", "b", "c"] ∧ w.view.lines = ["b", "c"] ∧
          w.Faithful Memory.perform ⟨1⟩ := by
  have hheld : HeldInMemory ⟨1⟩ freshStore .empty := ⟨rfl, _, rfl, rfl⟩
  have hrun := ((((Relation.ReflTransGen.refl (r := Watching Memory.perform ⟨1⟩)
    (a := .start freshStore)).tail
      (.append _ firstMoment ["a", "b"] 1 rfl (by decide) rfl)).tail
      (.look _ firstMoment rfl rfl)).tail
      (.append _ firstMoment ["c"] 5 rfl (by decide) rfl)).tail
      (.look _ firstMoment rfl rfl)
  exact ⟨hheld, _, hrun, rfl, rfl, (observer_faithful ⟨1⟩).1 _ _ hheld hrun⟩

end TaskQueue.Log
