import Mathlib.Tactic
import TaskQueue.Proofs.RecordFields
import TaskQueue.Schedule

/-!
# The hours at which a payload is admitted

A window that a task can have is open at its first hour, so every payload is admitted at some hour
of the day, and a task waits for its window less than a day.  A payload is turned away only by a
schedule that states two hours of the day, and only at the hours from the end of the window to its
start.
-/

namespace TaskQueue

namespace Time

/-- The time a number of hours later, in the same zone. -/
def ZonedTime.later (t : ZonedTime) (hours : Nat) : ZonedTime :=
  { t with instant := { t.instant with seconds := t.instant.seconds + 3600 * hours } }

theorem ZonedTime.hour_lt (t : ZonedTime) : t.hour < 24 := by
  unfold hour
  omega

theorem ZonedTime.hour_later (t : ZonedTime) (hours : Nat) :
    (t.later hours).hour = (t.hour + hours) % 24 := by
  unfold hour later
  simp only
  omega

end Time

namespace Schedule

open Json (Decoder Document)
open Time (ZonedTime)

/-- Whether the value states the hours of the schedule, and overrides them as the schedule does. -/
structure States (v : Json) (s : Schedule) : Prop where
  startHour : v.field? 1 "startHour" = some (.nat s.startHour)
  endHour : v.field? 2 "endHour" = some (.nat s.endHour)
  overridden : v.field? 3 "override" = some (.bool s.overridden) ∨
    v.field? 3 "override" = none ∧ s.overridden = false

theorem states_of_decoded {v : Json} {s : Schedule} (h : Decoder.ofValue? decoder v = some s) :
    States v s := by
  unfold Decoder.ofValue? decoder at h
  simp only [Option.bind_eq_bind, Option.bind_eq_some_iff] at h
  obtain ⟨⟨limit, r⟩, hrecord, source, -, start, hstart, finish, hfinish, overridden,
    hoverridden, time, -, rule, -, hs⟩ := h
  cases hs
  have hget := Decoder.get_of_record hrecord
  obtain ⟨first, hfirst, hnat⟩ := Decoder.field_of_required (hget 1 "startHour") hstart
  obtain ⟨last, hlast, hnat'⟩ := Decoder.field_of_required (hget 2 "endHour") hfinish
  rw [Decoder.eq_nat_of_natBelow hnat] at hfirst
  rw [Decoder.eq_nat_of_natBelow hnat'] at hlast
  refine ⟨hfirst, hlast, ?_⟩
  rcases Decoder.field_of_defaulted (hget 3 "override") hoverridden with ⟨flag, hflag, hbool⟩ | habsent
  · rw [Decoder.eq_bool_of_bool hbool] at hflag
    exact Or.inl hflag
  · exact Or.inr habsent

/-- How many hours it takes until the clock shows the given hour. -/
def hoursUntil (now hour : Nat) : Nat :=
  (hour + hoursPerDay - now) % hoursPerDay

/-- Whether the hour is reached on the way round the clock from the first hour to the last one,
which is left out. -/
def Spans (first last hour : Nat) : Prop :=
  hoursUntil first hour < hoursUntil first last

variable {s : Schedule} {payload : Json} {hour : Nat}

theorem hour_after {now : Nat} (hnow : now < hoursPerDay) (hhour : hour < hoursPerDay) :
    (now + hoursUntil now hour) % hoursPerDay = hour := by
  unfold hoursUntil hoursPerDay at *
  omega

theorem isOpen_eq_false_iff (hrange : s.inRange = true) (hhour : hour < hoursPerDay) :
    s.isOpen hour = false ↔
      s.startHour ≠ s.endHour ∧ s.overridden = false ∧ ¬Spans s.startHour s.endHour hour := by
  obtain ⟨hstart, hend⟩ := of_decide_eq_true hrange
  unfold Spans hoursUntil isOpen hoursPerDay at *
  cases s.overridden with
  | true => simp
  | false =>
      simp only [Bool.false_eq_true, if_false, true_and]
      split
      · simp [*]
      · split <;> simp only [decide_eq_false_iff_not] <;> omega

theorem isOpen_start (s : Schedule) : s.isOpen s.startHour = true := by
  unfold isOpen
  split
  · rfl
  · split
    · rfl
    · split <;> simp [*]

theorem read_of_get {v : Json} (hget : payload.get? key = some v) (hv : v ≠ .null) :
    read payload =
      match Decoder.ofValue? decoder v with
      | none => .malformed
      | some s => if s.inRange then .found s else .outOfRange s.startHour s.endHour := by
  unfold read
  rw [hget]
  cases v with
  | null => exact absurd rfl hv
  | _ => rfl

/-- A schedule that is not in range is passed over. -/
theorem ofPayload_of_get {v : Json} (hget : payload.get? key = some v) :
    ofPayload? payload = (Decoder.ofValue? decoder v).filter inRange := by
  unfold ofPayload?
  by_cases hv : v = .null
  · subst hv
    unfold read
    rw [hget]
    rfl
  · rw [read_of_get hget hv]
    cases Decoder.ofValue? decoder v with
    | none => rfl
    | some s => cases hrange : s.inRange <;> simp [Option.filter, hrange]

theorem ofPayload_eq_some_iff :
    ofPayload? payload = some s ↔
      ∃ v, payload.get? key = some v ∧ Decoder.ofValue? decoder v = some s ∧
        s.inRange = true := by
  cases hget : payload.get? key with
  | none =>
      have hnone : ofPayload? payload = none := by
        unfold ofPayload? read
        rw [hget]
      simp [hnone]
  | some v =>
      rw [ofPayload_of_get hget, Option.filter_eq_some_iff]
      simp

theorem admits_eq_false_iff :
    admits payload hour = false ↔
      ∃ s, ofPayload? payload = some s ∧ s.isOpen hour = false := by
  unfold admits
  cases ofPayload? payload <;> simp

theorem exists_admitted (payload : Json) :
    ∃ hour < hoursPerDay, admits payload hour = true := by
  cases hpayload : ofPayload? payload with
  | none =>
      refine ⟨0, by decide, ?_⟩
      unfold admits
      rw [hpayload]
      rfl
  | some s =>
      obtain ⟨v, -, -, hrange⟩ := ofPayload_eq_some_iff.1 hpayload
      refine ⟨s.startHour, (of_decide_eq_true hrange).1, ?_⟩
      unfold admits
      rw [hpayload]
      exact s.isOpen_start

/-- Every payload is admitted at some hour of the day, so no task waits a day for its window.  Only
a schedule turns a task away, one that can be read, states two hours of the day and is not
overridden, and it does so outside of its window. -/
theorem opens_every_day (payload : Json) :
    (∃ hour < 24, admits payload hour = true) ∧
      (∀ time : ZonedTime, ∃ hours < 24, admits payload (time.later hours).hour = true) ∧
      ∀ time : ZonedTime, admits payload time.hour = false ↔
        ∃ v s, payload.get? "schedule" = some v ∧ Decoder.ofValue? decoder v = some s ∧
          States v s ∧ s.startHour < 24 ∧ s.endHour < 24 ∧ s.startHour ≠ s.endHour ∧
          s.overridden = false ∧ ¬Spans s.startHour s.endHour time.hour := by
  obtain ⟨hour, hhour, hadmits⟩ := exists_admitted payload
  refine ⟨⟨hour, hhour, hadmits⟩, ?_, ?_⟩
  · intro time
    refine ⟨hoursUntil time.hour hour, Nat.mod_lt _ (by decide), ?_⟩
    have hreached : (time.later (hoursUntil time.hour hour)).hour = hour := by
      rw [ZonedTime.hour_later]
      exact hour_after time.hour_lt hhour
    rw [hreached]
    exact hadmits
  · intro time
    rw [admits_eq_false_iff]
    constructor
    · rintro ⟨s, hpayload, hclosed⟩
      obtain ⟨v, hget, hdecode, hrange⟩ := ofPayload_eq_some_iff.1 hpayload
      obtain ⟨hstart, hend⟩ := of_decide_eq_true hrange
      exact ⟨v, s, hget, hdecode, states_of_decoded hdecode, hstart, hend,
        (isOpen_eq_false_iff hrange time.hour_lt).1 hclosed⟩
    · rintro ⟨v, s, hget, hdecode, -, hstart, hend, hclosed⟩
      have hrange : s.inRange = true := decide_eq_true ⟨hstart, hend⟩
      exact ⟨s, ofPayload_eq_some_iff.2 ⟨v, hget, hdecode, hrange⟩,
        (isOpen_eq_false_iff hrange time.hour_lt).2 hclosed⟩

/-- A schedule by position, from ten in the evening to two in the morning: at noon the task is
turned away, and ten hours later it is admitted. -/
theorem opens_every_day_nightly :
    let payload : Json := .object [("schedule", .array [.null, .nat 22, .nat 2])]
    let noon : ZonedTime := ⟨⟨12 * 3600, 0⟩, 0⟩
    admits payload noon.hour = false ∧ admits payload (noon.later 10).hour = true ∧
      ∃ v s, payload.get? "schedule" = some v ∧ Decoder.ofValue? decoder v = some s ∧
        States v s ∧ s.startHour ≠ s.endHour ∧ ¬Spans s.startHour s.endHour noon.hour := by
  intro payload noon
  have hclosed : admits payload noon.hour = false := by decide
  obtain ⟨v, s, hget, hdecode, hstates, -, -, hne, -, hspans⟩ :=
    ((opens_every_day payload).2.2 noon).1 hclosed
  exact ⟨hclosed, by decide, v, s, hget, hdecode, hstates, hne, hspans⟩

end Schedule

end TaskQueue
