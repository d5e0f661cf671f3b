import Mathlib.Tactic
import TaskQueue.Proofs.LogFollower
import TaskQueue.Proofs.LogWindow
import TaskQueue.Proofs.ObservedLog

/-!
# What a follower prints

A follower knows the log by a number only.  It prints the lines of a run in their order and without
gaps, and prints a marker where it starts over.  The marker tells the lines of two runs apart, unless
the log is reset and has grown again before the follower has seen it empty: then the follower takes
the lines of the new run for the next ones of the old run.
-/

namespace TaskQueue.Cli

open Log (Delta Snapshot between reconcile?)
open Store (Backend Moment Request)

/-- Something that is printed: a line of the log with the run that has written it and its number
there, or a remark of the follower. -/
inductive Printed where
  | line (run number : Nat) (text : String)
  | remark (text : String)
  deriving DecidableEq, Repr

def Printed.text : Printed → String
  | .line _ _ text | .remark text => text

/-- Lines of a run with their numbers, after the given one. -/
def numbered (run : Nat) : Nat → List String → List Printed
  | _, [] => []
  | n, text :: rest => .line run (n + 1) text :: numbered run (n + 1) rest

/-- What is printed for a delta: its lines are the last ones up to the number that it brings. -/
def labelled (run seen : Nat) : Delta → List Printed
  | .noop => []
  | .append lines next => numbered run (next - lines.length) lines
  | .resync lines next =>
    (if 0 < seen ∨ lines ≠ [] then [.remark resyncMarker] else []) ++
      numbered run (next - lines.length) lines

/-- What the next request of a follower prints, if this is the log of the run. -/
def Follower.prints (run : Nat) (log : Option Snapshot) (f : Follower) : List Printed :=
  if f.looks then
    ((log.bind (reconcile? f.seen)).map (labelled run f.seen)).getD [] ++
      f.ending.map Printed.remark
  else []

/-- A store, a follower of the log of a task, and what it has printed. -/
structure Printout where
  store : Backend
  follower : Follower
  /-- The lines of the runs before the last reset of the log, and those since then. -/
  past : List (List String)
  written : List String
  output : List String
  printed : List Printed
  /-- Whether the log was reset since the follower has looked at it. -/
  behind : Bool
  /-- The runs whose log has grown before the follower has seen it empty. -/
  missed : List Nat

namespace Printout

def start (store : Backend) (since : Nat) : Printout :=
  ⟨store, .opening since, [], [], [], [], false, []⟩

/-- The run whose lines come next. -/
def run (w : Printout) : Nat :=
  w.past.length

/-- The line of a run with this number. -/
def line? (w : Printout) (run number : Nat) : Option String :=
  ((w.past ++ [w.written])[run]?).bind fun lines => lines[number - 1]?

def afterAppend (w : Printout) (lines : List String) (store : Backend) : Printout :=
  { w with
    store := store
    written := w.written ++ lines
    missed := if w.behind ∧ lines ≠ [] then w.run :: w.missed else w.missed }

def afterReset (w : Printout) (store : Backend) : Printout :=
  { w with store := store, past := w.past ++ [w.written], written := [], behind := true }

def afterPoll (w : Printout) (id : TaskId) (lines : List String) (store : Backend)
    (f : Follower) : Printout :=
  { w with
    store := store
    follower := f
    output := w.output ++ lines
    printed := w.printed ++ w.follower.prints w.run (w.store.log? id)
    behind := w.behind && !w.follower.looks }

end Printout

/-- What can happen to the log or to its follower next. -/
inductive Printing (id : TaskId) (w : Printout) : Printout → Prop where
  | append (moment : Moment) (lines : List String) (window : Nat) {next : Snapshot}
      (hanswer : (w.store.perform moment (.append id lines window)).result =
        (.ok next : Except Fault Snapshot)) :
    Printing id w (w.afterAppend lines (w.store.perform moment (.append id lines window)).store)
  | reset (moment : Moment) (r : Request)
      (hreset : Log.Resets id r (w.store.perform moment r).result) :
    Printing id w (w.afterReset (w.store.perform moment r).store)
  | aside (moment : Moment) (r : Request)
      (hother : r.KeepsLogs ∨ r.target? ≠ some id ∧ r.newId? moment ≠ some id) :
    Printing id w { w with store := (w.store.perform moment r).store }
  | poll {lines : List String} {b : Backend} {f : Follower}
      (hpoll : Polls id w.store w.follower lines b f) :
    Printing id w (w.afterPoll id lines b f)

/-- How one line of a log may follow another one in print: it was written right after it, or a run
was missed. -/
def Succeeds (missed : List Nat) : Printed → Printed → Prop
  | .line k n _, .line k' n' _ => n' = n + 1 ∧ (k' = k ∨ k < k' ∧ k' ∈ missed)
  | _, _ => True

/-- What can be relied on in all that is printed. -/
structure Printout.Faithful (w : Printout) : Prop where
  texts : w.printed.map Printed.text = w.output
  source : ∀ k n text, .line k n text ∈ w.printed → 0 < n ∧ w.line? k n = some text
  adjacent : w.printed.IsChain (Succeeds w.missed)

/-! ## Numbered lines -/

variable {run seen a n k m : Nat} {lines written : List String} {text : String} {missed : List Nat}
  {s : Snapshot} {delta : Delta}

@[simp] theorem texts_numbered (run n : Nat) (lines : List String) :
    (numbered run n lines).map Printed.text = lines := by
  induction lines generalizing n with
  | nil => rfl
  | cons text rest ih => simp [numbered, Printed.text, ih]

theorem mem_numbered (h : .line k m text ∈ numbered run n lines) :
    k = run ∧ n < m ∧ lines[m - 1 - n]? = some text := by
  induction lines generalizing n with
  | nil => cases h
  | cons first rest ih =>
      rcases List.mem_cons.1 h with h | h
      · cases h
        simp
      · obtain ⟨hk, hlt, hline⟩ := ih h
        refine ⟨hk, by omega, ?_⟩
        have hindex : m - 1 - n = (m - 1 - (n + 1)) + 1 := by omega
        rw [hindex, List.getElem?_cons_succ, hline]

theorem source_of_between (h : .line k m text ∈ numbered run a (between written a n)) :
    k = run ∧ 0 < m ∧ written[m - 1]? = some text := by
  obtain ⟨hk, hlt, hline⟩ := mem_numbered h
  refine ⟨hk, by omega, ?_⟩
  unfold between at hline
  rw [List.getElem?_drop, show a + (m - 1 - a) = m - 1 by omega, List.getElem?_take] at hline
  split at hline
  · exact hline
  · cases hline

theorem chain_numbered (missed : List Nat) (run n : Nat) (lines : List String) :
    (numbered run n lines).IsChain (Succeeds missed) := by
  induction lines generalizing n with
  | nil => exact List.isChain_nil
  | cons first rest ih =>
      cases rest with
      | nil => exact List.isChain_singleton _
      | cons second rest => exact List.IsChain.cons_cons ⟨rfl, Or.inl rfl⟩ (ih (n + 1))

theorem getLast_numbered (h : (numbered run n lines).getLast? = some (.line k m text)) :
    k = run ∧ m = n + lines.length := by
  induction lines generalizing n with
  | nil => cases h
  | cons first rest ih =>
      cases rest with
      | nil =>
          cases h
          exact ⟨rfl, rfl⟩
      | cons second rest =>
          obtain ⟨hk, hm⟩ := ih (n := n + 1) (by simpa [numbered] using h)
          refine ⟨hk, hm.trans ?_⟩
          simp only [List.length_cons]
          omega

theorem head_numbered {p : Printed} (h : (numbered run n lines).head? = some p) :
    ∃ text, p = .line run (n + 1) text := by
  cases lines with
  | nil => cases h
  | cons first rest =>
      cases h
      exact ⟨first, rfl⟩

/-! ## Remarks -/

@[simp] theorem text_comp_remark : Printed.text ∘ Printed.remark = fun text => text :=
  rfl

theorem succeeds_remark (missed : List Nat) (p : Printed) (text : String) :
    Succeeds missed p (.remark text) := by
  cases p <;> trivial

theorem chain_remarks (missed : List Nat) (remarks : List String) :
    (remarks.map Printed.remark).IsChain (Succeeds missed) := by
  induction remarks with
  | nil => exact List.isChain_nil
  | cons text rest ih =>
      rw [List.map_cons, List.isChain_cons]
      exact ⟨fun _ _ => trivial, ih⟩

/-- A line of the log that is printed last has no remarks after it. -/
theorem getLast_before_remarks {printed : List Printed} {remarks : List String}
    (h : (printed ++ remarks.map Printed.remark).getLast? = some (.line k m text)) :
    printed.getLast? = some (.line k m text) := by
  rw [List.getLast?_append] at h
  cases hremarks : (remarks.map Printed.remark).getLast? with
  | none => simpa [hremarks] using h
  | some p =>
      obtain ⟨remark, -, rfl⟩ := List.mem_map.1 (List.mem_of_getLast? hremarks)
      simp [hremarks] at h

/-! ## A look at the log -/

theorem render_eq_labelled (run seen : Nat) (s : Snapshot) :
    render? seen s = (reconcile? seen s).map fun delta =>
      ((labelled run seen delta).map Printed.text, nextSeen seen delta) := by
  unfold render?
  congr 1
  funext delta
  cases delta with
  | noop => rfl
  | append lines next => simp [labelled, nextSeen, texts_numbered]
  | resync lines next =>
      simp only [labelled, nextSeen, List.map_append, texts_numbered]
      split <;> rfl

/-- The log of a run as it is shown: its last lines. -/
structure ShowsRun (written : List String) (s : Snapshot) (first : Nat) : Prop where
  shows_lines : s.Shows written first
  seq : s.seq = written.length
  nonempty : written ≠ [] → first < s.seq

theorem ShowsRun.empty : ShowsRun [] .empty 0 :=
  ⟨.empty [], rfl, fun hne => absurd rfl hne⟩

theorem ShowsRun.push (h : ShowsRun written s a) {next : Snapshot} {window : Nat}
    (hpush : s.push? lines window = some next) :
    ∃ first, ShowsRun (written ++ lines) next first := by
  obtain ⟨first, -, hshows, hseq, hnonempty⟩ := h.shows_lines.push h.seq h.nonempty hpush
  exact ⟨first, hshows, hseq, hnonempty⟩

/-- A look prints nothing, the lines that come next, or a marker and all lines that are shown. -/
theorem ShowsRun.look (h : ShowsRun written s a) (run : Nat)
    (hdelta : reconcile? seen s = some delta) :
    (labelled run seen delta = [] ∧ nextSeen seen delta = seen ∧ (seen = 0 ∨ written ≠ [])) ∨
      (labelled run seen delta = numbered run seen (between written seen s.seq) ∧
        seen < s.seq ∧ nextSeen seen delta = s.seq) ∨
      (labelled run seen delta =
          .remark resyncMarker :: numbered run a (between written a s.seq) ∧
        nextSeen seen delta = s.seq) := by
  by_cases hw : written = []
  · subst hw
    have hs : s = .empty := by
      rcases s with ⟨lines, seq⟩
      have hseq : seq = 0 := h.seq
      have hlines := h.shows_lines.lines
      subst hseq
      simp only [between, List.take_nil, List.drop_nil] at hlines
      rw [hlines]
      rfl
    subst hs
    have ha : a = 0 := Nat.le_zero.1 h.shows_lines.start_le
    by_cases hseen : seen = 0
    · subst hseen
      cases hdelta
      exact Or.inl ⟨rfl, rfl, Or.inl rfl⟩
    · rw [Log.reconcile_empty (Nat.pos_of_ne_zero hseen)] at hdelta
      cases hdelta
      refine Or.inr (Or.inr ⟨?_, rfl⟩)
      simp [labelled, Nat.pos_of_ne_zero hseen, numbered, between]
  · have hlt := h.nonempty hw
    have hlines := h.shows_lines.lines
    have hlength := h.shows_lines.length
    rw [h.shows_lines.reconcile hlt seen] at hdelta
    split at hdelta
    · cases hdelta
      exact Or.inl ⟨rfl, rfl, Or.inr hw⟩
    · rename_i hseen
      obtain ⟨oldest, -, hdelta⟩ := Option.map_eq_some_iff.1 hdelta
      split at hdelta
      · subst hdelta
        have hne : s.lines ≠ [] := by
          intro hnil
          rw [hnil, List.length_nil] at hlength
          omega
        refine Or.inr (Or.inr ⟨?_, rfl⟩)
        simp only [labelled, hne, ne_eq, not_false_eq_true, or_true, if_true]
        rw [hlength, ← hlines, Nat.sub_sub_self hlt.le]
        rfl
      · subst hdelta
        refine Or.inr (Or.inl ⟨?_, by omega, rfl⟩)
        have hbetween := Log.length_between (a := seen) h.shows_lines.seq_le
        simp only [labelled]
        rw [hbetween, Nat.sub_sub_self (by omega)]

namespace ShowsRun

theorem source_of_look (h : ShowsRun written s a) (hdelta : reconcile? seen s = some delta)
    (hmem : .line k m text ∈ labelled run seen delta) :
    k = run ∧ 0 < m ∧ written[m - 1]? = some text := by
  rcases h.look run hdelta with ⟨hnone, -⟩ | ⟨hnext, -⟩ | ⟨hresync, -⟩
  · rw [hnone] at hmem
    cases hmem
  · rw [hnext] at hmem
    exact source_of_between hmem
  · rw [hresync] at hmem
    rcases List.mem_cons.1 hmem with hmem | hmem
    · cases hmem
    · exact source_of_between hmem

theorem chain_of_look (h : ShowsRun written s a) (hdelta : reconcile? seen s = some delta)
    (missed : List Nat) : (labelled run seen delta).IsChain (Succeeds missed) := by
  rcases h.look run hdelta with ⟨hnone, -⟩ | ⟨hnext, -⟩ | ⟨hresync, -⟩
  · rw [hnone]
    exact List.isChain_nil
  · rw [hnext]
    exact chain_numbered _ _ _ _
  · rw [hresync, List.isChain_cons]
    exact ⟨fun _ _ => trivial, chain_numbered _ _ _ _⟩

theorem last_of_look (h : ShowsRun written s a) (hdelta : reconcile? seen s = some delta)
    (hlast : (labelled run seen delta).getLast? = some (.line k m text)) :
    k = run ∧ nextSeen seen delta = m := by
  have hlength := fun first => Log.length_between (a := first) h.shows_lines.seq_le
  rcases h.look run hdelta with ⟨hnone, -⟩ | ⟨hnext, hlt, hseen⟩ | ⟨hresync, hseen⟩
  · rw [hnone] at hlast
    cases hlast
  · rw [hnext] at hlast
    obtain ⟨hk, hm⟩ := getLast_numbered hlast
    rw [hlength] at hm
    exact ⟨hk, by omega⟩
  · rw [hresync, List.getLast?_cons] at hlast
    have hstart := h.shows_lines.start_le
    cases htail : (numbered run a (between written a s.seq)).getLast? with
    | none =>
        rw [htail] at hlast
        cases hlast
    | some p =>
        rw [htail] at hlast
        cases hlast
        obtain ⟨hk, hm⟩ := getLast_numbered htail
        rw [hlength] at hm
        exact ⟨hk, by omega⟩

end ShowsRun

/-! ## What every step keeps -/

variable {id : TaskId} {w w' : Printout}

variable (id) in
/-- The log shows the last lines of its run, and the follower knows the number of the line that it
has printed last. -/
structure Printout.Sound (w : Printout) : Prop where
  unique : w.store.Unique
  shows_run : ∀ s, w.store.log? id = some s → ∃ first, ShowsRun w.written s first
  faithful : w.Faithful
  last : ∀ k n text, w.printed.getLast? = some (.line k n text) → w.follower.seen = n ∧
    (k = w.run ∨ k < w.run ∧ (w.run ∈ w.missed ∨ w.written = [] ∧ w.behind = true))

theorem Succeeds.mono {more : List Nat} (hmore : ∀ k ∈ missed, k ∈ more) {p q : Printed}
    (h : Succeeds missed p q) : Succeeds more p q := by
  cases p with
  | remark text => trivial
  | line k n text =>
      cases q with
      | remark text => trivial
      | line k' n' text' => exact ⟨h.1, h.2.imp_right fun hk => ⟨hk.1, hmore _ hk.2⟩⟩

theorem line_of_append {past : List (List String)} {k n : Nat}
    (h : ((past ++ [written])[k]?).bind (fun lines => lines[n]?) = some text) :
    ((past ++ [written ++ lines])[k]?).bind (fun lines => lines[n]?) = some text := by
  rw [List.getElem?_append] at h ⊢
  split
  · rename_i hlt
    rwa [if_pos hlt] at h
  · rename_i hge
    rw [if_neg hge] at h
    rcases hk : k - past.length with _ | j
    · rw [hk] at h
      have hn : n < written.length := (List.getElem?_eq_some_iff.1 h).1
      simpa [List.getElem?_append_left hn] using h
    · rw [hk] at h
      simp at h

namespace Printout.Sound

theorem append (h : w.Sound id) (moment : Moment) (lines : List String) (window : Nat)
    {next : Snapshot} (hanswer : (w.store.perform moment (.append id lines window)).result =
      (.ok next : Except Fault Snapshot)) :
    (w.afterAppend lines (w.store.perform moment (.append id lines window)).store).Sound id := by
  have hmore : ∀ k ∈ w.missed,
      k ∈ if w.behind ∧ lines ≠ [] then w.run :: w.missed else w.missed := by
    intro k hk
    split
    · exact List.mem_cons_of_mem _ hk
    · exact hk
  refine ⟨w.store.unique_perform h.unique moment _, fun s hs => ?_,
    ⟨h.faithful.texts, fun k n text hmem => ?_,
      h.faithful.adjacent.imp fun _ _ => Succeeds.mono hmore⟩, fun k n text hlast => ?_⟩
  · obtain ⟨before, hbefore, hpush, hafter⟩ := Backend.append_answered hanswer
    obtain ⟨first, hshows⟩ := h.shows_run before hbefore
    rw [hafter s hs]
    exact hshows.push hpush
  · obtain ⟨hpos, hline⟩ := h.faithful.source k n text hmem
    exact ⟨hpos, line_of_append hline⟩
  · obtain ⟨hseen, hrun⟩ := h.last k n text hlast
    refine ⟨hseen, hrun.imp_right fun hk => ⟨hk.1, ?_⟩⟩
    rcases hk.2 with hmissed | ⟨hwritten, hbehind⟩
    · exact Or.inl (hmore _ hmissed)
    · -- The first lines of a run that the follower has not seen empty make it a missed one.
      by_cases hlines : lines = []
      · right
        simp [Printout.afterAppend, hwritten, hlines, hbehind]
      · left
        simp [Printout.afterAppend, Printout.run, hbehind, hlines]

theorem reset (h : w.Sound id) (moment : Moment) (r : Request)
    (hreset : Log.Resets id r (w.store.perform moment r).result) :
    (w.afterReset (w.store.perform moment r).store).Sound id := by
  refine ⟨w.store.unique_perform h.unique moment _, fun s hs => ?_,
    ⟨h.faithful.texts, fun k n text hmem => ?_, h.faithful.adjacent⟩, fun k n text hlast => ?_⟩
  · rw [Backend.reset_answered hreset hs]
    exact ⟨0, .empty⟩
  · obtain ⟨hpos, hline⟩ := h.faithful.source k n text hmem
    obtain ⟨lines, hrun, htext⟩ := Option.bind_eq_some_iff.1 hline
    have hk := (List.getElem?_eq_some_iff.1 hrun).1
    refine ⟨hpos, ?_⟩
    show (((w.past ++ [w.written]) ++ [[]])[k]?).bind _ = _
    rw [List.getElem?_append_left hk, hrun]
    exact htext
  · obtain ⟨hseen, hrun⟩ := h.last k n text hlast
    have hnext : (w.afterReset (w.store.perform moment r).store).run = w.run + 1 := by
      simp [Printout.afterReset, Printout.run]
    refine ⟨hseen, Or.inr ⟨?_, Or.inr ⟨rfl, rfl⟩⟩⟩
    rw [hnext]
    omega

theorem aside (h : w.Sound id) (moment : Moment) (r : Request)
    (hother : r.KeepsLogs ∨ r.target? ≠ some id ∧ r.newId? moment ≠ some id) :
    Sound id { w with store := (w.store.perform moment r).store } where
  unique := Backend.unique_perform h.unique moment _
  shows_run s hs := by
    have hrecorded := Backend.recorded_perform h.unique moment r id
    have hsame : (w.store.perform moment r).store.log? id = w.store.log? id := by
      rcases hother with hkeeps | ⟨htarget, hnew⟩
      · exact hrecorded.same hkeeps
      · rcases hrecorded.other htarget hnew with hsame | hgone
        · exact hsame
        · rw [hgone] at hs
          cases hs
    exact h.shows_run s (hsame ▸ hs)
  faithful := ⟨h.faithful.texts, h.faithful.source, h.faithful.adjacent⟩
  last := h.last

/-- What a look prints comes right after what was printed before, or after a marker. -/
theorem joins (h : w.Sound id) (hs : ShowsRun w.written s a)
    (hdelta : reconcile? w.follower.seen s = some delta) :
    ∀ p ∈ w.printed.getLast?, ∀ q ∈ (labelled w.run w.follower.seen delta).head?,
      Succeeds w.missed p q := by
  intro p hp q hq
  cases p with
  | remark text => trivial
  | line k n text =>
      obtain ⟨hseen, hrun⟩ := h.last k n text hp
      rcases hs.look w.run hdelta with ⟨hnone, -⟩ | ⟨hnext, hlt, -⟩ | ⟨hresync, -⟩
      · rw [hnone] at hq
        cases hq
      · rw [hnext] at hq
        obtain ⟨text', rfl⟩ := head_numbered hq
        refine ⟨by rw [hseen], ?_⟩
        rcases hrun with hrun | ⟨hrun, hmissed | ⟨hwritten, -⟩⟩
        · exact Or.inl hrun.symm
        · exact Or.inr ⟨hrun, hmissed⟩
        · have hzero : s.seq = 0 := by rw [hs.seq, hwritten, List.length_nil]
          omega
      · rw [hresync] at hq
        cases hq
        trivial

/-- After a look the follower knows the number of the line that it has printed last. -/
theorem last_of_look (h : w.Sound id) (hs : ShowsRun w.written s a)
    (hdelta : reconcile? w.follower.seen s = some delta)
    (hlast : (w.printed ++ labelled w.run w.follower.seen delta).getLast? =
      some (.line k n text)) :
    nextSeen w.follower.seen delta = n ∧ (k = w.run ∨ k < w.run ∧ w.run ∈ w.missed) := by
  rw [List.getLast?_append] at hlast
  cases hnew : (labelled w.run w.follower.seen delta).getLast? with
  | some p =>
      rw [hnew] at hlast
      cases hlast
      obtain ⟨hk, hn⟩ := hs.last_of_look hdelta hnew
      exact ⟨hn, Or.inl hk⟩
  | none =>
      rw [hnew] at hlast
      have hnone := List.getLast?_eq_none_iff.1 hnew
      have hpos := (h.faithful.source k n text (List.mem_of_getLast? hlast)).1
      obtain ⟨hseen, hrun⟩ := h.last k n text hlast
      rcases hs.look w.run hdelta with
        ⟨-, hsame, hwritten⟩ | ⟨hnext, hlt, -⟩ | ⟨hresync, -⟩
      · refine ⟨hsame.trans hseen, hrun.imp_right fun hk => ⟨hk.1, ?_⟩⟩
        rcases hk.2 with hmissed | ⟨hempty, -⟩
        · exact hmissed
        · rcases hwritten with hzero | hne
          · omega
          · exact absurd hempty hne
      · -- Something is printed if there is more than the follower knows.
        have hlength := Log.length_between (a := w.follower.seen) hs.shows_lines.seq_le
        have hlines : (numbered w.run w.follower.seen
            (between w.written w.follower.seen s.seq)).map Printed.text = [] := by
          rw [← hnext, hnone]
          rfl
        rw [texts_numbered] at hlines
        rw [hlines, List.length_nil] at hlength
        omega
      · rw [hresync] at hnone
        cases hnone

theorem look (h : w.Sound id) {lines : List String} {f : Follower}
    (hlooks : w.follower.looks = true) (hlog : w.store.log? id = some s)
    (hdelta : reconcile? w.follower.seen s = some delta)
    (hseen : f.seen = nextSeen w.follower.seen delta)
    (hlines : lines = (labelled w.run w.follower.seen delta).map Printed.text ++
      w.follower.ending) :
    (w.afterPoll id lines w.store f).Sound id := by
  have hprints : w.follower.prints w.run (w.store.log? id) =
      labelled w.run w.follower.seen delta ++ w.follower.ending.map Printed.remark := by
    simp [Follower.prints, hlooks, hlog, hdelta]
  obtain ⟨first, hs⟩ := h.shows_run s hlog
  unfold Printout.afterPoll
  rw [hprints, hlooks, Bool.not_true, Bool.and_false]
  refine ⟨h.unique, h.shows_run, ⟨?_, fun k n text hmem => ?_, ?_⟩, fun k n text hlast => ?_⟩
  · simp [h.faithful.texts, hlines]
  · simp only [List.mem_append] at hmem
    rcases hmem with hmem | hmem | hmem
    · exact h.faithful.source k n text hmem
    · obtain ⟨rfl, hpos, hline⟩ := hs.source_of_look hdelta hmem
      exact ⟨hpos, by simpa [Printout.line?, Printout.run] using hline⟩
    · simp at hmem
  · have hbefore := List.isChain_append.2
      ⟨h.faithful.adjacent, hs.chain_of_look hdelta w.missed, h.joins hs hdelta⟩
    dsimp only
    rw [← List.append_assoc, List.isChain_append]
    refine ⟨hbefore, chain_remarks _ _, fun p _ q hq => ?_⟩
    obtain ⟨text, -, rfl⟩ := List.mem_map.1 (List.mem_of_head? hq)
    exact succeeds_remark _ _ _
  · dsimp only at hlast
    rw [← List.append_assoc] at hlast
    obtain ⟨hn, hk⟩ := h.last_of_look hs hdelta (getLast_before_remarks hlast)
    exact ⟨hseen.trans hn, hk.imp_right fun hk => ⟨hk.1, Or.inl hk.2⟩⟩

theorem poll (h : w.Sound id) {lines : List String} {b : Backend} {f : Follower}
    (hpoll : Polls id w.store w.follower lines b f) : (w.afterPoll id lines b f).Sound id := by
  obtain rfl := hpoll.store
  cases hlooks : w.follower.looks with
  | false =>
      obtain ⟨rfl, hseen⟩ := hpoll.silent hlooks
      unfold Printout.afterPoll Follower.prints
      simp only [hlooks, Bool.false_eq_true, if_false, List.append_nil, Bool.not_false,
        Bool.and_true]
      refine ⟨h.unique, h.shows_run,
        ⟨h.faithful.texts, h.faithful.source, h.faithful.adjacent⟩, fun k n text hlast => ?_⟩
      obtain ⟨hn, hk⟩ := h.last k n text hlast
      exact ⟨hseen.trans hn, hk⟩
  | true =>
      obtain ⟨s, printed, hlog, hrender, hlines⟩ := hpoll.shown hlooks
      rw [render_eq_labelled w.run] at hrender
      obtain ⟨delta, hdelta, hpair⟩ := Option.map_eq_some_iff.1 hrender
      obtain ⟨hprinted, hseen⟩ := Prod.mk.inj hpair
      exact h.look hlooks hlog hdelta hseen.symm (by rw [hprinted, hlines])

theorem step (h : w.Sound id) (hstep : Printing id w w') : w'.Sound id := by
  cases hstep with
  | append moment lines window hanswer => exact h.append moment lines window hanswer
  | reset moment r hreset => exact h.reset moment r hreset
  | aside moment r hother => exact h.aside moment r hother
  | poll hpoll => exact h.poll hpoll

end Printout.Sound

theorem Printout.sound_start {store : Backend} (since : Nat) (hunique : store.Unique)
    (hempty : ∀ s, store.log? id = some s → s = .empty) : (Printout.start store since).Sound id where
  unique := hunique
  shows_run s hs := by
    rw [hempty s hs]
    exact ⟨0, .empty⟩
  faithful := ⟨rfl, fun _ _ _ hmem => absurd hmem List.not_mem_nil, List.isChain_nil⟩
  last _ _ _ hlast := by cases hlast

/-- Over every history of a log that starts empty, and wherever the follower looks: a line is printed
right after another one only if it was written right after it in the same run, or has the number
after it in a run that has grown before the follower has seen it empty. -/
theorem printed_lines_adjacent (id : TaskId) {store : Backend} (since : Nat)
    (hunique : store.Unique) (hempty : ∀ s, store.log? id = some s → s = .empty) {w : Printout}
    (hrun : Relation.ReflTransGen (Printing id) (.start store since) w) : w.Faithful := by
  have hsound : w.Sound id := by
    induction hrun with
    | refl => exact Printout.sound_start since hunique hempty
    | tail _ hstep ih => exact ih.step hstep
  exact hsound.faithful

/-- A reset that the follower sees puts a marker between the lines of the two runs. -/
theorem printed_lines_adjacent_seenReset :
    (Backend.memory Log.freshStore).Unique ∧
      (∀ s, (Backend.memory Log.freshStore).log? ⟨1⟩ = some s → s = .empty) ∧
      ∃ w, Relation.ReflTransGen (Printing ⟨1⟩) (.start (.memory Log.freshStore) 0) w ∧
        w.output = ["old", resyncMarker, "new"] ∧ w.missed = [] ∧ w.Faithful := by
  have hunique : (Backend.memory Log.freshStore).Unique := by
    show (Log.freshStore.tasks.map Task.id).Nodup
    decide
  have hempty : ∀ s, (Backend.memory Log.freshStore).log? ⟨1⟩ = some s → s = .empty := by
    intro s hs
    cases hs
    rfl
  have hrun := ((((((((Relation.ReflTransGen.refl (r := Printing ⟨1⟩)
    (a := .start (.memory Log.freshStore) 0)).tail
      (.append Store.firstMoment ["old"] 5 rfl)).tail
      (.poll (.first Store.firstMoment rfl))).tail
      (.reset Store.firstMoment (.patch ⟨1⟩ .runReset) ⟨rfl, rfl, rfl⟩)).tail
      (.poll (.read Store.firstMoment 1 rfl))).tail
      (.poll (.again Store.firstMoment rfl))).tail
      (.append Store.firstMoment ["new"] 5 rfl)).tail
      (.poll (.read Store.firstMoment 0 rfl))).tail
      (.poll (.again Store.firstMoment rfl))
  exact ⟨hunique, hempty, _, hrun, rfl, rfl, printed_lines_adjacent ⟨1⟩ 0 hunique hempty hrun⟩

/-- Without a look between the reset and the lines of the new run, its third line is printed right
after the second one of the old run. -/
theorem not_printed_adjacent_missedReset :
    ¬∀ w, Relation.ReflTransGen (Printing ⟨1⟩) (.start (.memory Log.freshStore) 0) w →
      w.printed.IsChain (Succeeds []) := by
  intro h
  have hrun := ((((((Relation.ReflTransGen.refl (r := Printing ⟨1⟩)
    (a := .start (.memory Log.freshStore) 0)).tail
      (.append Store.firstMoment ["old 1", "old 2"] 5 rfl)).tail
      (.poll (.first Store.firstMoment rfl))).tail
      (.reset Store.firstMoment (.patch ⟨1⟩ .runReset) ⟨rfl, rfl, rfl⟩)).tail
      (.append Store.firstMoment ["new 1", "new 2", "new 3"] 5 rfl)).tail
      (.poll (.read Store.firstMoment 2 rfl))).tail
      (.poll (.again Store.firstMoment rfl))
  have hprinted : [Printed.line 0 1 "old 1", .line 0 2 "old 2", .line 1 3 "new 3"].IsChain
    (Succeeds []) := h _ hrun
  simp [Succeeds] at hprinted

end TaskQueue.Cli
