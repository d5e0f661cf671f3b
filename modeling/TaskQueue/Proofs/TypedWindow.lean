import Mathlib.Tactic
import TaskQueue.Cli.Command
import TaskQueue.Proofs.EnteredTask
import TaskQueue.Proofs.TypedHours

/-!
# Tasks with a typed window

A window that an operator types takes the place of any schedule in the payload, and the task waits
for that window from its first claim on, in memory and in a table.
-/

namespace TaskQueue

open Json (Fields maxNesting)

theorem Json.ordered_of_parse {s : String} {fields : Fields} (h : parse? s = some (.object fields)) :
    fields.Ordered := by
  obtain ⟨d, -, hvalue⟩ := Option.bind_eq_some_iff.1 h
  cases d with
  | object members =>
      obtain ⟨fs, -, hobject⟩ := Option.map_eq_some_iff.1 hvalue
      cases hobject
      exact Fields.ordered_sorted fs
  | array items =>
      obtain ⟨_, -, hobject⟩ := Option.map_eq_some_iff.1 hvalue
      cases hobject
  | number n =>
      obtain ⟨_, -, hobject⟩ := Option.map_eq_some_iff.1 hvalue
      cases hobject
  | text s =>
      obtain ⟨_, -, hobject⟩ := Option.map_eq_some_iff.1 hvalue
      cases hobject
  | null => cases hvalue
  | bool b => cases hvalue

namespace Schedule

/-- Whether the hour is in the window, which is the whole day if it ends where it starts. -/
def Within (start stop hour : Nat) : Prop :=
  start = stop ∨ Spans start stop hour

instance (start stop hour : Nat) : Decidable (Within start stop hour) :=
  inferInstanceAs (Decidable (start = stop ∨ hoursUntil start hour < hoursUntil start stop))

theorem admits_iff_within {payload : Json} {s : Schedule} {hour : Nat}
    (hpayload : ofPayload? payload = some s) (hoverridden : s.overridden = false)
    (hhour : hour < 24) : admits payload hour = true ↔ Within s.startHour s.endHour hour := by
  obtain ⟨v, -, -, hrange⟩ := ofPayload_eq_some_iff.1 hpayload
  have hadmits : admits payload hour = s.isOpen hour := by
    unfold admits
    rw [hpayload, Option.all_some]
  rw [hadmits, ← Bool.not_eq_false, isOpen_eq_false_iff hrange hhour]
  unfold Within
  simp only [hoverridden, true_and]
  tauto

end Schedule

namespace Cli

open Store (Backend Gates)

theorem buildPayload_eq_ok_iff {raw window : String} {source : Option String} {payload : Json} :
    buildPayload raw (some window) source = .ok payload ↔
      ∃ fields start stop, Json.parse? raw = some (.object fields) ∧ StatesWindow window start stop ∧
        payload = .object (Fields.insert Schedule.key
          (typedSchedule (source.map readSource) start stop).encode.normal fields) := by
  unfold buildPayload
  cases hraw : Json.parse? raw with
  | none => simp
  | some given =>
      simp only [bind_eq_ok_iff, scheduleOf_eq_ok_iff]
      constructor
      · rintro ⟨s, ⟨start, stop, hwindow, rfl⟩, hpayload⟩
        cases given with
        | object fields => exact ⟨fields, start, stop, rfl, hwindow, (Except.ok.inj hpayload).symm⟩
        | _ => cases hpayload
      · rintro ⟨fields, start, stop, hgiven, hwindow, rfl⟩
        cases hgiven
        exact ⟨_, ⟨start, stop, hwindow, rfl⟩, rfl⟩

theorem ofPayload_typed {window : String} {start stop : Nat} (hwindow : StatesWindow window start stop)
    {source : Option ScheduleSource} {payload : Json}
    (hget : payload.get? Schedule.key = some (typedSchedule source start stop).encode.normal) :
    Schedule.ofPayload? payload = some (typedSchedule source start stop) := by
  rw [Schedule.ofPayload_of_member (hwindow.writable source) hget]
  obtain ⟨-, -, -, -, ⟨-, hstart⟩, -, hstop⟩ := hwindow
  exact if_pos ⟨Nat.lt_succ_of_le hstart, Nat.lt_succ_of_le hstop⟩

theorem admits_typed {window : String} {start stop : Nat} (hwindow : StatesWindow window start stop)
    {source : Option ScheduleSource} {payload : Json}
    (hget : payload.get? Schedule.key = some (typedSchedule source start stop).encode.normal) :
    ∀ hour < 24, Schedule.admits payload hour = true ↔ Schedule.Within start stop hour :=
  fun _ hhour => Schedule.admits_iff_within (ofPayload_typed hwindow hget) rfl hhour

theorem rel_readSource (source : Option String) :
    Option.Rel StatesSource source (source.map readSource) := by
  cases source with
  | none => exact .none
  | some text => exact .some (readSource_eq_iff.1 rfl)

theorem perform_enqueue {b : Backend} {moment : Store.Moment} (h : b.Takes moment)
    {eventType raw : String} {group window source : Option String} {payload : Json}
    (hpayload : buildPayload raw window source = .ok payload) :
    Command.perform (.enqueue eventType raw group window source) b moment =
      (.done [moment.freshId.text], (b.perform moment (.enqueue ⟨group, eventType, payload⟩)).store) := by
  have hresult := Backend.result_enqueue h ⟨group, eventType, payload⟩
  simp only [Command.perform, hpayload, orFail, Report.ofRequest, hresult]
  rfl

/-- A payload with a window is built exactly from an object and two hours.  The other members stay,
the window is the one that is found, and the new task is claimed at its hours. -/
theorem window_gates_as_typed (raw window : String) (source : Option String) :
    ((∃ payload, buildPayload raw (some window) source = .ok payload) ↔
        (∃ fields, Json.parse? raw = some (.object fields)) ∧
          ∃ start stop, StatesWindow window start stop) ∧
      ∀ payload, buildPayload raw (some window) source = .ok payload →
        ∃ given start stop tag, Json.parse? raw = some given ∧ StatesWindow window start stop ∧
          Option.Rel StatesSource source tag ∧
          (∀ key, key ≠ "schedule" → payload.get? key = given.get? key) ∧
          Schedule.ofPayload? payload = some ⟨tag, start, stop, false, none, none⟩ ∧
          (∀ hour < 24, Schedule.admits payload hour = true ↔ Schedule.Within start stop hour) ∧
          ∀ (eventType : String) (group : Option String) (b : Backend) (moment : Store.Moment),
            b.Takes moment →
            let (report, entered) :=
              Command.perform (.enqueue eventType raw group (some window) source) b moment
            report = .done [moment.freshId.text] ∧
              Gates Backend.perform b.Quiet entered moment.freshId (Schedule.Within start stop) := by
  constructor
  · constructor
    · rintro ⟨payload, hpayload⟩
      obtain ⟨fields, start, stop, hraw, hwindow, -⟩ := buildPayload_eq_ok_iff.1 hpayload
      exact ⟨⟨fields, hraw⟩, start, stop, hwindow⟩
    · rintro ⟨⟨fields, hraw⟩, start, stop, hwindow⟩
      exact ⟨_, buildPayload_eq_ok_iff.2 ⟨fields, start, stop, hraw, hwindow, rfl⟩⟩
  · intro payload hpayload
    obtain ⟨fields, start, stop, hraw, hwindow, rfl⟩ := buildPayload_eq_ok_iff.1 hpayload
    have hget := Fields.get?_insert Schedule.key
      (typedSchedule (source.map readSource) start stop).encode.normal fields
    have hmember := (hget Schedule.key).trans (if_pos rfl)
    obtain ⟨hvalid, hheight⟩ := Json.valid_of_parse hraw
    obtain ⟨stored, hstored, hstoredmember⟩ := Schedule.exists_stored (hwindow.writable _)
      (Json.ordered_of_parse hraw) hvalid hheight
    refine ⟨.object fields, start, stop, source.map readSource, hraw, hwindow, rel_readSource source,
      ?_, ofPayload_typed hwindow hmember, admits_typed hwindow hmember, ?_⟩
    · intro key hkey
      exact (hget key).trans (if_neg (Ne.symm hkey))
    · intro eventType group b moment htakes
      rw [perform_enqueue htakes hpayload]
      exact ⟨rfl, Backend.gates_enqueue htakes hstored (admits_typed hwindow hmember)
        (admits_typed hwindow hstoredmember)⟩

/-- A window from ten in the evening to two in the morning replaces another schedule: the task is
not claimed from a table at noon, and it is claimed at midnight. -/
theorem window_gates_as_typed_nightly :
    let raw := "\x7b\"repo\": \"acme/api\", \"schedule\": \"always\"\x7d"
    let entered := (Command.perform (.enqueue "push" raw none (some " 22 -\t+02") (some " Robot "))
      (.table .empty) Store.firstMoment).2
    (∃ payload, buildPayload raw (some " 22 -\t+02") (some " Robot ") = .ok payload ∧
      payload.get? "repo" = some (.text "acme/api") ∧
      Schedule.ofPayload? payload = some ⟨some .robot, 22, 2, false, none, none⟩) ∧
      (entered.perform Store.firstMoment (.claim 1 ⟨⟨12 * 3600, 0⟩, 0⟩)).result =
        (.ok none : Except Fault (Option Task)) ∧
      ∃ t : Task, (entered.perform Store.firstMoment (.claim 1 ⟨⟨0, 0⟩, 0⟩)).result = .ok (some t) ∧
        t.id = Store.firstMoment.freshId := by
  intro raw entered
  have hraw : Json.parse? raw =
      some (.object [("repo", .text "acme/api"), ("schedule", .text "always")]) := by decide +kernel
  have hread : readWindow " 22 -\t+02" = .ok (22, 2) := by decide +kernel
  obtain ⟨hbuilds, hgates⟩ := window_gates_as_typed raw " 22 -\t+02" (some " Robot ")
  obtain ⟨payload, hpayload⟩ := hbuilds.2 ⟨⟨_, hraw⟩, 22, 2, readWindow_eq_ok_iff.1 hread⟩
  obtain ⟨given, start, stop, tag, hgiven, hwindow, htag, hothers, hfound, -, hclaims⟩ :=
    hgates payload hpayload
  have hhours := readWindow_eq_ok_iff.2 hwindow
  rw [hread] at hhours
  cases hhours
  have hrobot : tag = some .robot := by
    cases htag with
    | some hsource =>
        rw [← readSource_eq_iff.2 hsource]
        decide +kernel
  subst hrobot
  rw [hraw] at hgiven
  cases hgiven
  have htakes : (Backend.table .empty).Takes Store.firstMoment :=
    ⟨by decide, [], rfl, ⟨by decide, by simp⟩, rfl⟩
  have hgate := (hclaims "push" none (.table .empty) Store.firstMoment htakes).2
  have hquiet : ∀ hour, (Backend.table .empty).Quiet hour 1 := by
    rintro hour rows ⟨⟩
    exact ⟨by simp, by simp⟩
  refine ⟨⟨payload, hpayload, hothers "repo" (by decide), hfound⟩, ?_, ?_⟩
  · apply hgate.passed _ _ _ (hquiet _)
    decide
  · apply hgate.taken _ _ _ (by decide) (hquiet _)
    decide

end Cli

end TaskQueue
