import Mathlib.Data.List.TakeWhile
import Mathlib.Tactic
import TaskQueue.Proofs.Calendar
import TaskQueue.Proofs.Digits
import TaskQueue.Time.Reader
import TaskQueue.Time.Written

/-!
# Stamps of instants

An instant can be stamped if its year has four digits and it is a whole number of microseconds.
Its stamp is read back as that instant, and stamps are ordered as the instants, leap seconds
included.
-/

namespace TaskQueue.Time

open Decimal (places value)
open Text.Front (char digits)

/-! ## Reading fixed places -/

theorem digits_places {least width : Nat} (hleast : least ≤ width) (n : Nat) (rest : List Char) :
    digits least width (places width n ++ rest) = some (n % 10 ^ width, rest) := by
  have htake : (places width n ++ rest).take width = places width n :=
    List.take_left' (Decimal.length_places width n)
  have hall : (places width n).takeWhile Char.isDigit = places width n :=
    List.takeWhile_eq_self_iff.2 fun _ hc => Decimal.isDigit_of_mem_places hc
  have hdrop : (places width n ++ rest).drop width = rest :=
    List.drop_left' (Decimal.length_places width n)
  unfold digits
  simp only [htake, hall, Decimal.length_places, Nat.not_lt.2 hleast, if_false, Decimal.value_places,
    hdrop]

theorem digits_places_of_lt {least width n : Nat} (hleast : least ≤ width) (hn : n < 10 ^ width)
    (rest : List Char) : digits least width (places width n ++ rest) = some (n, rest) := by
  rw [digits_places hleast, Nat.mod_eq_of_lt hn]

theorem fraction_places (width n : Nat) (hpos : 0 < width) (hwidth : width ≤ 9)
    (hn : n < 10 ^ width) (rest : List Char)
    (hrest : ∀ c, rest.head? = some c → c.isDigit = false) :
    Reader.fraction ('.' :: (places width n ++ rest)) = some (n * 10 ^ (9 - width), rest) := by
  have hsplit : Decimal.splitDigits (places width n ++ rest) = (places width n, rest) :=
    Decimal.splitDigits_append (fun _ hc => Decimal.isDigit_of_mem_places hc) hrest
  have hrun : (places width n ++ rest).takeWhile Char.isDigit = places width n :=
    congrArg Prod.fst hsplit
  have hleft : (places width n ++ rest).dropWhile Char.isDigit = rest := congrArg Prod.snd hsplit
  have hempty : (places width n).isEmpty = false := by
    rw [List.isEmpty_eq_false_iff, ← List.length_pos_iff, Decimal.length_places]
    exact hpos
  have htake : (places width n).take 9 = places width n :=
    List.take_of_length_le (by rw [Decimal.length_places]; exact hwidth)
  unfold Reader.fraction
  simp [hrun, hleft, hempty, htake, Decimal.value_places, Nat.mod_eq_of_lt hn]

/-- One reader after another, when the first one succeeds. -/
theorem bind_eq_of_eq_some {found : Option α} {a : α} {next : α → Option β}
    (h : found = some a) : (found >>= next) = next a := by
  rw [h]
  rfl

namespace Instant

/-- Whether the instant can be stamped without loss. -/
structure Stampable (t : Instant) : Prop where
  year_nonneg : 0 ≤ t.date.year
  year_lt : t.date.year < 10000
  whole : t.nanos % 1000 = 0
  /-- Only the last second of a minute can be followed by a leap second. -/
  nanos : t.nanos < 10 ^ 9 ∨ (t.nanos < 2 * 10 ^ 9 ∧ t.seconds % 60 = 59)

instance (t : Instant) : Decidable t.Stampable :=
  decidable_of_iff
    (0 ≤ t.date.year ∧ t.date.year < 10000 ∧ t.nanos % 1000 = 0 ∧
      (t.nanos < 10 ^ 9 ∨ (t.nanos < 2 * 10 ^ 9 ∧ t.seconds % 60 = 59)))
    ⟨fun ⟨h₁, h₂, h₃, h₄⟩ => ⟨h₁, h₂, h₃, h₄⟩, fun ⟨h₁, h₂, h₃, h₄⟩ => ⟨h₁, h₂, h₃, h₄⟩⟩

/-- Whether the year of the instant has four digits, and a leap second follows nothing but the last
second of a minute.  The instant need not be a whole number of microseconds. -/
structure Dated (t : Instant) : Prop where
  year_nonneg : 0 ≤ t.date.year
  year_lt : t.date.year < 10000
  nanos : t.nanos < 10 ^ 9 ∨ (t.nanos < 2 * 10 ^ 9 ∧ t.seconds % 60 = 59)

instance (t : Instant) : Decidable t.Dated :=
  decidable_of_iff
    (0 ≤ t.date.year ∧ t.date.year < 10000 ∧
      (t.nanos < 10 ^ 9 ∨ (t.nanos < 2 * 10 ^ 9 ∧ t.seconds % 60 = 59)))
    ⟨fun ⟨h₁, h₂, h₃⟩ => ⟨h₁, h₂, h₃⟩, fun ⟨h₁, h₂, h₃⟩ => ⟨h₁, h₂, h₃⟩⟩

theorem Stampable.dated {t : Instant} (ht : t.Stampable) : t.Dated :=
  ⟨ht.year_nonneg, ht.year_lt, ht.nanos⟩

theorem char_cons (c : Char) (rest : List Char) : char c (c :: rest) = some ((), rest) := by
  simp [char]

theorem dateTimeSeparator_cons (rest : List Char) :
    Reader.dateTimeSeparator ('T' :: rest) = some ((), rest) :=
  rfl

/-- The second that is shown, which is second 60 in a leap second. -/
def shownSecond (t : Instant) : Nat :=
  t.secondOfDay % 60 + t.nanos / 10 ^ 9

theorem yearChars_of_lt {year : Int} (hlow : 0 ≤ year) (hhigh : year < 10000) :
    yearChars year = places 4 year.toNat := by
  cases year with
  | ofNat n =>
      have hn : n < 10000 := by simpa using hhigh
      simp [yearChars, hn]
  | negSucc n => omega

/-- The numbers shown by a stamp fit their places, apart from the second. -/
structure Fits (t : Instant) : Prop where
  year : t.date.year.toNat < 10 ^ 4
  month : t.date.month < 10 ^ 2
  day : t.date.day < 10 ^ 2
  hour : t.secondOfDay / 3600 < 10 ^ 2
  minute : t.secondOfDay / 60 % 60 < 10 ^ 2
  fraction : t.fraction / 1000 < 10 ^ 6

theorem secondOfDay_lt (t : Instant) : t.secondOfDay < 86400 := by
  unfold secondOfDay
  omega

theorem fits_of_lt {t : Instant} (hhigh : t.date.year < 10000) : t.Fits := by
  obtain ⟨_, hmonth, _, hday⟩ := (Date.isValid_iff t.date).1 (Date.isValid_ofDayNumber _)
  have hdays : daysInMonth t.date.year t.date.month ≤ 31 := by
    unfold daysInMonth
    split
    · split <;> omega
    · split <;> omega
  have hsod := t.secondOfDay_lt
  have hfraction : t.fraction / 1000 < 10 ^ 6 := by
    unfold fraction
    omega
  constructor <;> omega

theorem Stampable.fits {t : Instant} (ht : t.Stampable) : t.Fits :=
  fits_of_lt ht.year_lt

theorem Dated.shownSecond_le {t : Instant} (ht : t.Dated) : t.shownSecond ≤ 60 := by
  have hnanos := ht.nanos
  unfold shownSecond secondOfDay
  omega

theorem Stampable.shownSecond_le {t : Instant} (ht : t.Stampable) : t.shownSecond ≤ 60 :=
  ht.dated.shownSecond_le

/-- The stamp as its parts one after the other. -/
theorem stampChars_eq {t : Instant} (hlow : 0 ≤ t.date.year) (hhigh : t.date.year < 10000) :
    t.stampChars =
      places 4 t.date.year.toNat ++ '-' :: (places 2 t.date.month ++ '-' ::
        (places 2 t.date.day ++ 'T' :: (places 2 (t.secondOfDay / 3600) ++ ':' ::
          (places 2 (t.secondOfDay / 60 % 60) ++ ':' :: (places 2 t.shownSecond ++ '.' ::
            (places 6 (t.fraction / 1000) ++ ['Z'])))))) := by
  simp [stampChars, dateChars, yearChars_of_lt hlow hhigh, clock, clockChars, shownSecond]

/-- The date and the time of day that an instant shows are those of the instant. -/
theorem Dated.zoned {t : Instant} (ht : t.Dated) :
    zoned? ⟨(t.date.year.toNat : Int), t.date.month, t.date.day⟩ (t.secondOfDay / 3600)
      (t.secondOfDay / 60 % 60) t.shownSecond t.fraction 0 = some ⟨t, 0⟩ := by
  have hlow := ht.year_nonneg
  have hhigh := ht.year_lt
  have hnanos := ht.nanos
  have hvalid : t.date.isValid = true := Date.isValid_ofDayNumber _
  have hnumber : t.date.dayNumber = t.seconds / 86400 := Date.dayNumber_ofDayNumber _
  have hdate : (⟨(t.date.year.toNat : Int), t.date.month, t.date.day⟩ : Date) = t.date := by
    rw [Int.toNat_of_nonneg hlow]
  have hday := t.secondOfDay_lt
  have hminute : t.seconds % 60 = ((t.secondOfDay % 60 : Nat) : Int) := by
    unfold secondOfDay
    omega
  have hsecond := ht.shownSecond_le
  have hleap : (t.shownSecond = 60 ∧ t.secondOfDay % 60 = 59 ∧ t.fraction + 10 ^ 9 = t.nanos) ∨
      (t.shownSecond ≠ 60 ∧ t.shownSecond = t.secondOfDay % 60 ∧ t.fraction = t.nanos) := by
    unfold shownSecond fraction
    omega
  have hseconds : t.date.dayNumber * 86400 +
      ((t.secondOfDay / 3600 * 3600 + t.secondOfDay / 60 % 60 * 60 +
        (if t.shownSecond = 60 then 59 else t.shownSecond) : Nat) : Int) - 0 = t.seconds := by
    have hparts : (t.secondOfDay : Int) = t.seconds % 86400 := by
      unfold secondOfDay
      omega
    rcases hleap with ⟨hshown, hlast, _⟩ | ⟨hshown, heq, _⟩
    · rw [if_pos hshown]
      omega
    · rw [if_neg hshown]
      omega
  have hnanos' : (if t.shownSecond = 60 then t.fraction + 10 ^ 9 else t.fraction) = t.nanos := by
    rcases hleap with ⟨hshown, _, heq⟩ | ⟨hshown, _, heq⟩
    · rw [if_pos hshown]
      omega
    · rw [if_neg hshown]
      omega
  rw [hdate]
  unfold zoned? firstYear lastYear
  rw [if_pos (by refine ⟨hvalid, ?_, ?_, ?_, ?_, hsecond, ?_, ?_⟩ <;> omega)]
  simp only
  rw [hseconds, hnanos']
  exact if_pos (show -262143 ≤ t.date.year ∧ t.date.year ≤ 262142 by omega)

theorem zoned_stamp {t : Instant} (ht : t.Stampable) :
    zoned? ⟨(t.date.year.toNat : Int), t.date.month, t.date.day⟩ (t.secondOfDay / 3600)
      (t.secondOfDay / 60 % 60) t.shownSecond (t.fraction / 1000 * 1000) 0 = some ⟨t, 0⟩ := by
  have hwhole : t.fraction / 1000 * 1000 = t.fraction := by
    have h := ht.whole
    unfold fraction
    omega
  rw [hwhole]
  exact ht.dated.zoned

/-- A stamp whose year has four digits is read as the date and the time of day that it shows. -/
theorem strict_stamp_eq {t : Instant} (hlow : 0 ≤ t.date.year) (hhigh : t.date.year < 10000) :
    strict? t.stamp =
      zoned? ⟨(t.date.year.toNat : Int), t.date.month, t.date.day⟩ (t.secondOfDay / 3600)
        (t.secondOfDay / 60 % 60) (t.shownSecond % 10 ^ 2) (t.fraction / 1000 * 1000) 0 := by
  have hfits := fits_of_lt hhigh
  have hoffset : Reader.offset (char ':') ['Z'] = some (0, []) := rfl
  unfold strict? stamp
  rw [String.toList_ofList, stampChars_eq hlow hhigh]
  refine (bind_eq_of_eq_some (digits_places_of_lt (le_refl _) hfits.year _)).trans ?_
  refine (bind_eq_of_eq_some (char_cons '-' _)).trans ?_
  refine (bind_eq_of_eq_some (digits_places_of_lt (le_refl _) hfits.month _)).trans ?_
  refine (bind_eq_of_eq_some (char_cons '-' _)).trans ?_
  refine (bind_eq_of_eq_some (digits_places_of_lt (le_refl _) hfits.day _)).trans ?_
  refine (bind_eq_of_eq_some (dateTimeSeparator_cons _)).trans ?_
  refine (bind_eq_of_eq_some (digits_places_of_lt (le_refl _) hfits.hour _)).trans ?_
  refine (bind_eq_of_eq_some (char_cons ':' _)).trans ?_
  refine (bind_eq_of_eq_some (digits_places_of_lt (le_refl _) hfits.minute _)).trans ?_
  refine (bind_eq_of_eq_some (char_cons ':' _)).trans ?_
  refine (bind_eq_of_eq_some (digits_places (le_refl 2) _ _)).trans ?_
  have hfraction := fraction_places _ _ (by omega) (by omega) hfits.fraction ['Z'] (by simp)
  refine (bind_eq_of_eq_some hfraction).trans ?_
  refine (bind_eq_of_eq_some hoffset).trans ?_
  exact if_pos rfl

/-- The stamp of an instant is read as that instant. -/
theorem strict_stamp {t : Instant} (ht : t.Stampable) : strict? t.stamp = some ⟨t, 0⟩ := by
  have hsecond : t.shownSecond % 10 ^ 2 = t.shownSecond := by
    have hshown := ht.shownSecond_le
    omega
  rw [strict_stamp_eq ht.year_nonneg ht.year_lt, hsecond, zoned_stamp ht]

/-- No stamp is read whose year has a sign. -/
theorem strict_stamp_of_signed {t : Instant} (hyear : t.date.year < 0 ∨ 10000 ≤ t.date.year) :
    strict? t.stamp = none := by
  obtain ⟨c, cs, hchars, hc⟩ : ∃ c cs, t.stampChars = c :: cs ∧ c.isDigit = false := by
    unfold stampChars dateChars
    cases hdate : t.date.year with
    | ofNat n =>
        have hn : ¬n < 10000 := by
          rw [hdate] at hyear
          simp only [Int.ofNat_eq_natCast] at hyear
          omega
        exact ⟨'+', _, by simp only [yearChars, if_neg hn, List.cons_append]; rfl, rfl⟩
    | negSucc n => exact ⟨'-', _, by simp only [yearChars, List.cons_append]; rfl, rfl⟩
  have hdigits : digits 4 4 (c :: cs) = none := by simp [digits, hc]
  unfold strict? stamp
  rw [String.toList_ofList, hchars, hdigits]
  rfl

theorem nanos_of_zoned {date : Date} {hour minute second nanos : Nat} {z : ZonedTime}
    (h : zoned? date hour minute second nanos 0 = some z) :
    z.instant.nanos = (if second = 60 then nanos + 10 ^ 9 else nanos) := by
  unfold zoned? at h
  rw [Option.ite_none_right_eq_some] at h
  obtain ⟨-, h⟩ := h
  simp only [Option.ite_none_right_eq_some] at h
  rw [← Option.some.inj h.2]

/-- An instant comes back from its stamp exactly if it can be stamped. -/
theorem strict_stamp_iff {t : Instant} :
    (strict? t.stamp).map (·.instant) = some t ↔ t.Stampable := by
  constructor
  · intro h
    obtain ⟨z, hread, hz⟩ := Option.map_eq_some_iff.1 h
    by_cases hyear : t.date.year < 0 ∨ 10000 ≤ t.date.year
    · rw [strict_stamp_of_signed hyear] at hread
      cases hread
    · rw [strict_stamp_eq (by omega) (by omega)] at hread
      have hnanos := nanos_of_zoned hread
      have hfraction : t.fraction < 10 ^ 9 := Nat.mod_lt _ (by decide)
      have hsod : ((t.secondOfDay % 60 : Nat) : Int) = t.seconds % 60 := by
        unfold secondOfDay
        omega
      have hshown : t.shownSecond = t.secondOfDay % 60 + t.nanos / 10 ^ 9 := rfl
      rw [hz] at hnanos
      split at hnanos
      · refine ⟨by omega, by omega, by omega, ?_⟩
        omega
      · exact ⟨by omega, by omega, by omega, by omega⟩
  · intro ht
    rw [strict_stamp ht]
    rfl

/-! ## The order of stamps -/

/-- On one day the order is that of hour, minute, shown second and fraction. -/
theorem clock_lt_iff {t u : Instant} (ht : t.Stampable) (hu : u.Stampable)
    (hday : t.seconds / 86400 = u.seconds / 86400) :
    (t.secondOfDay / 3600 < u.secondOfDay / 3600 ∨
      (t.secondOfDay / 3600 = u.secondOfDay / 3600 ∧
        (t.secondOfDay / 60 % 60 < u.secondOfDay / 60 % 60 ∨
          (t.secondOfDay / 60 % 60 = u.secondOfDay / 60 % 60 ∧
            (t.shownSecond < u.shownSecond ∨
              (t.shownSecond = u.shownSecond ∧ t.fraction / 1000 < u.fraction / 1000)))))) ↔
      t.before u = true := by
  have htnanos := ht.nanos
  have hunanos := hu.nanos
  have htwhole := ht.whole
  have huwhole := hu.whole
  have hseconds : t.seconds < u.seconds ↔ t.secondOfDay < u.secondOfDay := by
    unfold secondOfDay
    omega
  have hequal : t.seconds = u.seconds ↔ t.secondOfDay = u.secondOfDay := by
    unfold secondOfDay
    omega
  have htlast : t.seconds % 60 = ((t.secondOfDay % 60 : Nat) : Int) := by
    unfold secondOfDay
    omega
  have hulast : u.seconds % 60 = ((u.secondOfDay % 60 : Nat) : Int) := by
    unfold secondOfDay
    omega
  rw [htlast] at htnanos
  rw [hulast] at hunanos
  unfold before shownSecond fraction
  rw [decide_eq_true_eq, hseconds, hequal]
  generalize t.secondOfDay = s at *
  generalize u.secondOfDay = r at *
  rcases htnanos with htnanos | htnanos <;> rcases hunanos with hunanos | hunanos <;> omega

/-- What a stamp cuts off does not show in it. -/
theorem stamp_truncated (t : Instant) : t.truncated.stamp = t.stamp := by
  have hsecond : t.nanos / 1000 * 1000 / 10 ^ 9 = t.nanos / 10 ^ 9 := by omega
  have hfraction : t.nanos / 1000 * 1000 % 10 ^ 9 / 1000 = t.nanos % 10 ^ 9 / 1000 := by omega
  unfold stamp stampChars truncated clock fraction date secondOfDay
  simp only [hsecond, hfraction]

/-- Stamps are ordered as the instants. -/
theorem stamp_lt_stamp_iff {t u : Instant} (ht : t.Stampable) (hu : u.Stampable) :
    t.stamp < u.stamp ↔ t.before u = true := by
  have htfits := ht.fits
  have hufits := hu.fits
  have htyear := ht.year_nonneg
  have huyear := hu.year_nonneg
  have htsecond := ht.shownSecond_le
  have husecond := hu.shownSecond_le
  have hdate : Date.Before t.date u.date ↔ t.seconds / 86400 < u.seconds / 86400 :=
    Date.before_ofDayNumber_iff _ _
  have hsame : t.date = u.date ↔ t.seconds / 86400 = u.seconds / 86400 := by
    constructor
    · intro h
      have hnumber := congrArg Date.dayNumber h
      unfold date at hnumber
      rwa [Date.dayNumber_ofDayNumber, Date.dayNumber_ofDayNumber] at hnumber
    · intro h
      unfold date
      rw [h]
  rw [String.lt_iff, stamp, stamp, String.toList_ofList, String.toList_ofList,
    stampChars_eq ht.year_nonneg ht.year_lt, stampChars_eq hu.year_nonneg hu.year_lt,
    Decimal.places_cons_lt_iff htfits.year hufits.year,
    Decimal.places_cons_lt_iff htfits.month hufits.month,
    Decimal.places_cons_lt_iff htfits.day hufits.day,
    Decimal.places_cons_lt_iff htfits.hour hufits.hour,
    Decimal.places_cons_lt_iff htfits.minute hufits.minute,
    Decimal.places_cons_lt_iff (by omega) (by omega),
    Decimal.places_cons_lt_iff htfits.fraction hufits.fraction]
  -- On one day the dates drop out and only the clocks are left; otherwise the dates decide.
  rcases lt_trichotomy (t.seconds / 86400) (u.seconds / 86400) with hday | hday | hday
  · have hbefore : t.before u = true := by
      unfold before
      rw [decide_eq_true_eq]
      omega
    have hearlier := hdate.2 hday
    unfold Date.Before at hearlier
    simp only [hbefore, iff_true]
    omega
  · have hclock := clock_lt_iff ht hu hday
    rw [hsame.2 hday]
    simpa using hclock
  · have hbefore : t.before u = false := by
      unfold before
      rw [decide_eq_false_iff_not]
      omega
    have hlater : Date.Before u.date t.date := (Date.before_ofDayNumber_iff _ _).2 hday
    unfold Date.Before at hlater
    simp only [hbefore, Bool.false_eq_true, iff_false]
    omega

end Instant

end TaskQueue.Time
