import Mathlib.Tactic
import TaskQueue.Time.Calendar

/-!
# Dates and day numbers

Every day number belongs to a date that exists, and this date has that day number again.  Later
dates have greater day numbers, so the order of dates is the order of days.

A day is found through its place in the cycle of 400 years: the century, the group of four years
in the century, the year in the group, and the day in a year that is reckoned from March.
-/

namespace TaskQueue.Time

/-- The place of a day in the cycle of 400 years that starts in March. -/
structure CyclePlace where
  century : Nat
  group : Nat
  year : Nat
  day : Nat

namespace CyclePlace

def yearOfCycle (p : CyclePlace) : Nat :=
  100 * p.century + 4 * p.group + p.year

def dayOfCycle (p : CyclePlace) : Nat :=
  36524 * p.century + 1461 * p.group + 365 * p.year + p.day

/-- A year has a last day more if it is the last one of its group, but in the last group of a
century only if the century is the last one of the cycle. -/
structure Exists (p : CyclePlace) : Prop where
  century : p.century ≤ 3
  group : p.group ≤ 24
  year : p.year ≤ 3
  day : p.day ≤ 365
  leap : p.day = 365 → p.year = 3 ∧ (p.group < 24 ∨ p.century = 3)

theorem exists_of_dayOfCycle {d : Nat} (hd : d < 146097) :
    ∃ p : CyclePlace, p.Exists ∧ p.dayOfCycle = d := by
  have hcentury : d = 36524 * min (d / 36524) 3 + (d - 36524 * min (d / 36524) 3) := by omega
  generalize hc : min (d / 36524) 3 = c at hcentury
  generalize he : d - 36524 * c = e at hcentury
  have hgroup : e = 1461 * (e / 1461) + e % 1461 := (Nat.div_add_mod e 1461).symm
  generalize hq : e / 1461 = q at hgroup
  generalize hf : e % 1461 = f at hgroup
  refine ⟨⟨c, q, min (f / 365) 3, f - 365 * min (f / 365) 3⟩, ?_, ?_⟩
  · constructor <;> simp only <;> omega
  · simp only [dayOfCycle]
    omega

theorem yearOfCycle_eq {p : CyclePlace} (hp : p.Exists) :
    (p.dayOfCycle - p.dayOfCycle / 1460 + p.dayOfCycle / 36524 - p.dayOfCycle / 146096) / 365 =
      p.yearOfCycle := by
  obtain ⟨c, q, y, day⟩ := p
  obtain ⟨hcentury, hgroup, hyear, hday, hleap⟩ := hp
  simp only [dayOfCycle, yearOfCycle] at *
  generalize hd : 36524 * c + 1461 * q + 365 * y + day = d
  -- A century is exceeded on the last day of the cycle only.
  have hlast : d / 36524 = c + d / 146096 := by
    by_cases hfull : 1461 * q + 365 * y + day = 36524
    · have hc : c = 3 := by
        have hday : day = 365 := by omega
        have hq : ¬q < 24 := by omega
        rcases (hleap hday).2 with h | h
        · exact absurd h hq
        · exact h
      omega
    · have hc : d / 36524 = c := by omega
      have hzero : d / 146096 = 0 := by omega
      omega
  have hgroups : d / 1460 = 25 * c + q ∨ (d / 1460 = 25 * c + q + 1 ∧ y = 3 ∧ 0 < day) := by omega
  have hcycle : d / 146096 ≤ 1 := by omega
  omega

theorem dayOfYear_eq {p : CyclePlace} (hp : p.Exists) :
    p.dayOfCycle - (365 * p.yearOfCycle + p.yearOfCycle / 4 - p.yearOfCycle / 100) = p.day := by
  obtain ⟨century, group, year, day⟩ := p
  obtain ⟨hcentury, hgroup, hyear, hday, hleap⟩ := hp
  simp only [dayOfCycle, yearOfCycle] at *
  omega

def month (p : CyclePlace) : Nat :=
  (5 * p.day + 2) / 153

def date (p : CyclePlace) (cycle : Int) : Date :=
  let civilMonth := if p.month < 10 then p.month + 3 else p.month - 9
  let year := cycle * 400 + (p.yearOfCycle : Int)
  ⟨if civilMonth ≤ 2 then year + 1 else year, civilMonth,
    p.day - (153 * p.month + 2) / 5 + 1⟩

theorem month_bounds {p : CyclePlace} (hp : p.Exists) :
    p.month ≤ 11 ∧ 153 * p.month ≤ 5 * p.day + 2 ∧ 5 * p.day + 2 < 153 * p.month + 153 := by
  have hday := hp.day
  unfold month
  omega

/-- The year in which a year of 366 days ends is a leap year. -/
theorem isLeapYear_of_day {p : CyclePlace} (hp : p.Exists) (hday : p.day = 365) (cycle : Int) :
    isLeapYear (cycle * 400 + (p.yearOfCycle : Int) + 1) = true := by
  obtain ⟨hyear, hlast⟩ := hp.leap hday
  have hcentury := hp.century
  have hgroup := hp.group
  unfold isLeapYear yearOfCycle
  simp only [decide_eq_true_eq]
  omega

theorem date_isValid {p : CyclePlace} (hp : p.Exists) (cycle : Int) :
    (p.date cycle).isValid = true := by
  obtain ⟨hmonth, hlow, hhigh⟩ := month_bounds hp
  have hday := hp.day
  have hleap := isLeapYear_of_day hp
  unfold date Date.isValid daysInMonth
  generalize p.month = m at *
  by_cases hfebruary : m = 11
  · subst hfebruary
    by_cases hlast : p.day = 365
    · simp [hleap hlast, hlast]
    · simp
      split <;> omega
  · simp only [decide_eq_true_eq]
    interval_cases m <;> simp <;> omega

theorem dayNumber_date {p : CyclePlace} (hp : p.Exists) (cycle : Int) :
    (p.date cycle).dayNumber = cycle * 146097 + (p.dayOfCycle : Int) - 719468 := by
  obtain ⟨hmonth, hlow, hhigh⟩ := month_bounds hp
  obtain ⟨hcentury, hgroup, hyear, hday, _⟩ := hp
  have hmarch : (if (p.date cycle).month ≤ 2 then (p.date cycle).year - 1
      else (p.date cycle).year) = cycle * 400 + (p.yearOfCycle : Int) := by
    unfold date
    simp only
    split <;> omega
  have hcivil : ((p.date cycle).month + 9) % 12 = p.month := by
    unfold date
    simp only
    split <;> omega
  unfold Date.dayNumber
  simp only [hmarch, hcivil]
  unfold date yearOfCycle dayOfCycle
  simp only
  omega

end CyclePlace

namespace Date

theorem ofDayNumber_eq_date (n : Int) :
    ∃ p : CyclePlace, p.Exists ∧
      n + 719468 = (n + 719468) / 146097 * 146097 + (p.dayOfCycle : Int) ∧
      ofDayNumber n = p.date ((n + 719468) / 146097) := by
  obtain ⟨p, hp, hd⟩ := CyclePlace.exists_of_dayOfCycle
    (show ((n + 719468) % 146097).toNat < 146097 by omega)
  refine ⟨p, hp, by omega, ?_⟩
  have hyear := CyclePlace.yearOfCycle_eq hp
  have hday := CyclePlace.dayOfYear_eq hp
  rw [hd] at hyear hday
  simp only [ofDayNumber, hyear, hday]
  rfl

theorem dayNumber_ofDayNumber (n : Int) : (ofDayNumber n).dayNumber = n := by
  obtain ⟨p, hp, hn, hdate⟩ := ofDayNumber_eq_date n
  rw [hdate, CyclePlace.dayNumber_date hp]
  omega

theorem isValid_ofDayNumber (n : Int) : (ofDayNumber n).isValid = true := by
  obtain ⟨p, hp, _, hdate⟩ := ofDayNumber_eq_date n
  rw [hdate]
  exact CyclePlace.date_isValid hp _

/-! ## The order of dates -/

/-- Whether `a` comes before `b` in the calendar. -/
def Before (a b : Date) : Prop :=
  a.year < b.year ∨
    (a.year = b.year ∧ (a.month < b.month ∨ (a.month = b.month ∧ a.day < b.day)))

/-- The year that starts with the March before the date, or with its own. -/
def marchYear (d : Date) : Int :=
  if d.month ≤ 2 then d.year - 1 else d.year

/-- The days since the March with which the year starts. -/
def marchDay (d : Date) : Nat :=
  (153 * ((d.month + 9) % 12) + 2) / 5 + d.day - 1

/-- The number of the day before the years that start in March are counted on. -/
def yearStart (year : Int) : Int :=
  365 * year + year / 4 - year / 100 + year / 400 - 719468

theorem dayNumber_eq (d : Date) : d.dayNumber = yearStart d.marchYear + d.marchDay := by
  unfold dayNumber yearStart marchYear marchDay
  simp only
  generalize (if d.month ≤ 2 then d.year - 1 else d.year) = y
  omega

theorem yearStart_lt {y z : Int} (h : y < z) : yearStart (y + 1) ≤ yearStart z := by
  unfold yearStart
  omega

theorem yearStart_succ (y : Int) : yearStart y + 365 ≤ yearStart (y + 1) := by
  have hcentury : ∀ z : Int, z / 100 = z / 4 / 25 := by omega
  have hcycle : ∀ z : Int, z / 400 = z / 4 / 100 := by omega
  have hgroup : (y + 1) / 4 = y / 4 ∨ (y + 1) / 4 = y / 4 + 1 := by omega
  unfold yearStart
  rw [hcentury y, hcentury (y + 1), hcycle y, hcycle (y + 1)]
  rcases hgroup with h | h <;> rw [h] <;> omega

theorem isValid_iff (d : Date) :
    d.isValid = true ↔
      1 ≤ d.month ∧ d.month ≤ 12 ∧ 1 ≤ d.day ∧ d.day ≤ daysInMonth d.year d.month := by
  simp [isValid]

/-- The months from March on have the days that their starts leave between them. -/
theorem day_le_of_isValid {d : Date} (hd : d.isValid = true) (hmonth : d.month ≠ 2) :
    d.day + (153 * ((d.month + 9) % 12) + 2) / 5 ≤
      (153 * ((d.month + 9) % 12 + 1) + 2) / 5 := by
  obtain ⟨hlow, hhigh, _, hday⟩ := (isValid_iff d).1 hd
  unfold daysInMonth at hday
  rw [if_neg hmonth] at hday
  generalize d.month = m at *
  interval_cases m <;> simp at * <;> omega

/-- The days of a date that exists lie inside its year. -/
theorem marchDay_lt {d : Date} (hd : d.isValid = true) :
    yearStart d.marchYear + d.marchDay < yearStart (d.marchYear + 1) := by
  obtain ⟨hlow, hhigh, hfirst, hday⟩ := (isValid_iff d).1 hd
  by_cases hmonth : d.month = 2
  · unfold marchYear marchDay yearStart
    rw [hmonth] at hday ⊢
    simp only [daysInMonth, if_true, isLeapYear] at hday
    simp only [decide_eq_true_eq] at hday
    split at hday <;> simp <;> omega
  · have hinside := day_le_of_isValid hd hmonth
    have hyear := yearStart_succ d.marchYear
    unfold marchDay
    omega

theorem marchDay_lt_of_lt {a b : Date} (ha : a.isValid = true) (hb : b.isValid = true)
    (hyear : a.marchYear = b.marchYear) (h : Before a b) : a.marchDay < b.marchDay := by
  obtain ⟨halow, hahigh, hafirst, _⟩ := (isValid_iff a).1 ha
  obtain ⟨hblow, hbhigh, hbfirst, _⟩ := (isValid_iff b).1 hb
  have horder : (a.month + 9) % 12 < (b.month + 9) % 12 ∨
      (a.month = b.month ∧ a.day < b.day) := by
    unfold Before at h
    unfold marchYear at hyear
    split at hyear <;> split at hyear <;> omega
  unfold marchDay
  rcases horder with hmonth | ⟨hmonth, hday⟩
  · have hnotLast : a.month ≠ 2 := by omega
    have hinside := day_le_of_isValid ha hnotLast
    omega
  · rw [hmonth]
    omega

/-- Of two dates that exist, the earlier one has the smaller day number. -/
theorem dayNumber_lt_of_before {a b : Date} (ha : a.isValid = true) (hb : b.isValid = true)
    (h : Before a b) : a.dayNumber < b.dayNumber := by
  rw [dayNumber_eq, dayNumber_eq]
  by_cases hyear : a.marchYear < b.marchYear
  · have hinside := marchDay_lt ha
    have hstart := yearStart_lt hyear
    omega
  · have heq : a.marchYear = b.marchYear := by
      obtain ⟨halow, hahigh, _⟩ := (isValid_iff a).1 ha
      obtain ⟨hblow, hbhigh, _⟩ := (isValid_iff b).1 hb
      unfold Before at h
      unfold marchYear at *
      split at hyear <;> split at hyear <;> simp_all <;> omega
    have hday := marchDay_lt_of_lt ha hb heq h
    rw [heq]
    omega

theorem before_ofDayNumber_iff (m n : Int) :
    Before (ofDayNumber m) (ofDayNumber n) ↔ m < n := by
  have hforward : ∀ m n : Int, Before (ofDayNumber m) (ofDayNumber n) → m < n := by
    intro m n h
    have hlt := dayNumber_lt_of_before (isValid_ofDayNumber m) (isValid_ofDayNumber n) h
    rwa [dayNumber_ofDayNumber, dayNumber_ofDayNumber] at hlt
  constructor
  · exact hforward m n
  · intro hlt
    by_contra hnot
    have hne : ofDayNumber m ≠ ofDayNumber n := by
      intro heq
      have hnumber := congrArg dayNumber heq
      rw [dayNumber_ofDayNumber, dayNumber_ofDayNumber] at hnumber
      omega
    have hreverse : Before (ofDayNumber n) (ofDayNumber m) := by
      unfold Before at hnot ⊢
      by_contra hother
      apply hne
      cases hm : ofDayNumber m
      cases hn : ofDayNumber n
      simp only [hm, hn, Date.mk.injEq] at hnot hother ⊢
      omega
    have hgt := hforward n m hreverse
    omega

end Date

end TaskQueue.Time
