import Mathlib.Tactic
import TaskQueue.Proofs.Stamp

/-!
# The short texts of instants

The text of an instant has as many fraction digits as it needs, and the free reader, which allows
much that no text contains, reads it as that instant.
-/

namespace TaskQueue.Time

open Decimal (places)
open Text (isBlank)
open Text.Front (char digits)

/-! ## Readers that skip blanks -/

theorem isBlank_of_isDigit {c : Char} (hc : c.isDigit = true) : isBlank c = false := by
  have hrange := Char.isDigit_iff_toNat.1 hc
  have hlow : 48 ≤ c.toNat := hrange.1
  have hhigh : c.toNat ≤ 57 := hrange.2
  simp only [isBlank, Text.inRanges, Text.blankRanges, List.any_cons, List.any_nil, Bool.or_false,
    Bool.or_eq_false_iff, Bool.and_eq_false_iff, decide_eq_false_iff_not]
  omega

theorem exists_places (width n : Nat) :
    ∃ c cs, places (width + 1) n = c :: cs ∧ c.isDigit = true := by
  cases h : places (width + 1) n with
  | nil =>
      have hlength := Decimal.length_places (width + 1) n
      rw [h] at hlength
      cases hlength
  | cons c cs => exact ⟨c, cs, rfl, Decimal.isDigit_of_mem_places (by rw [h]; simp)⟩

namespace Reader

theorem skipBlanks_cons {c : Char} (hc : isBlank c = false) (cs : List Char) :
    skipBlanks (c :: cs) = c :: cs := by
  simp [skipBlanks, hc]

theorem skipBlanks_places (width n : Nat) (rest : List Char) :
    skipBlanks (places (width + 1) n ++ rest) = places (width + 1) n ++ rest := by
  obtain ⟨c, cs, hplaces, hc⟩ := exists_places width n
  rw [hplaces, List.cons_append]
  exact skipBlanks_cons (isBlank_of_isDigit hc) _

theorem anyYear_places {n : Nat} (hn : n < 10 ^ 4) (rest : List Char) :
    anyYear (places 4 n ++ rest) = some ((n : Int), rest) := by
  have hdigits : digits 1 4 (places 4 n ++ rest) = some (n, rest) :=
    digits_places_of_lt (by omega) hn rest
  obtain ⟨c, cs, hplaces, hc⟩ := exists_places 3 n
  have hsign : ∀ d : Char, d.isDigit = false → c ≠ d := by
    rintro d hd rfl
    rw [hd] at hc
    cases hc
  unfold anyYear
  rw [skipBlanks_places]
  split
  · rename_i h
    rw [hplaces, List.cons_append, List.cons.injEq] at h
    exact absurd h.1 (hsign '-' rfl)
  · rename_i h
    rw [hplaces, List.cons_append, List.cons.injEq] at h
    exact absurd h.1 (hsign '+' rfl)
  · rw [hdigits, Option.map_some]

theorem shortNumber_places (n : Nat) (rest : List Char) :
    shortNumber (places 2 n ++ rest) = some (n % 10 ^ 2, rest) := by
  unfold shortNumber
  rw [skipBlanks_places]
  exact digits_places (by omega) n rest

theorem shortNumber_places_of_lt {n : Nat} (hn : n < 10 ^ 2) (rest : List Char) :
    shortNumber (places 2 n ++ rest) = some (n, rest) := by
  rw [shortNumber_places, Nat.mod_eq_of_lt hn]

theorem spacedChar_cons {c : Char} (hc : isBlank c = false) (rest : List Char) :
    spacedChar c (c :: rest) = some ((), rest) := by
  unfold spacedChar
  rw [skipBlanks_cons hc]
  exact Instant.char_cons c rest

/-- A fraction in three, six or nine digits loses nothing. -/
theorem fraction_shortFraction {n : Nat} (hn : n < 10 ^ 9) :
    fraction (Instant.shortFraction n ++ ['Z']) = some (n, ['Z']) := by
  unfold Instant.shortFraction
  split
  · rename_i hzero
    rw [hzero]
    rfl
  split
  · have h := fraction_places 3 (n / 10 ^ 6) (by omega) (by omega) (by omega) ['Z'] (by simp)
    rw [show n / 10 ^ 6 * 10 ^ (9 - 3) = n by omega] at h
    exact h
  split
  · have h := fraction_places 6 (n / 10 ^ 3) (by omega) (by omega) (by omega) ['Z'] (by simp)
    rw [show n / 10 ^ 3 * 10 ^ (9 - 6) = n by omega] at h
    exact h
  · have h := fraction_places 9 n (by omega) (by omega) hn ['Z'] (by simp)
    rw [show n * 10 ^ (9 - 9) = n by omega] at h
    exact h

end Reader

namespace Instant

open Reader

/-- The text as its parts one after the other. -/
theorem text_eq {t : Instant} (hlow : 0 ≤ t.date.year) (hhigh : t.date.year < 10000) :
    t.text.toList =
      places 4 t.date.year.toNat ++ '-' :: (places 2 t.date.month ++ '-' ::
        (places 2 t.date.day ++ 'T' :: (places 2 (t.secondOfDay / 3600) ++ ':' ::
          (places 2 (t.secondOfDay / 60 % 60) ++ ':' :: (places 2 t.shownSecond ++
            (shortFraction t.fraction ++ ['Z'])))))) := by
  simp [text, dateChars, yearChars_of_lt hlow hhigh, clock, clockChars, shownSecond]

/-- The text of an instant is read as that instant. -/
theorem lenient_text {t : Instant} (ht : t.Dated) : lenient? t.text = some ⟨t, 0⟩ := by
  have hfits := fits_of_lt ht.year_lt
  have hsecond : t.shownSecond < 10 ^ 2 := by
    have hshown := ht.shownSecond_le
    omega
  have hfraction : t.fraction < 10 ^ 9 := Nat.mod_lt _ (by decide)
  have hoffset : anyOffset (skipBlanks ['Z']) = some (0, []) := rfl
  have hhyphen : isBlank '-' = false := rfl
  have hcolon : isBlank ':' = false := rfl
  unfold lenient?
  rw [text_eq ht.year_nonneg ht.year_lt]
  refine (bind_eq_of_eq_some (anyYear_places hfits.year _)).trans ?_
  refine (bind_eq_of_eq_some (spacedChar_cons hhyphen _)).trans ?_
  refine (bind_eq_of_eq_some (shortNumber_places_of_lt hfits.month _)).trans ?_
  refine (bind_eq_of_eq_some (spacedChar_cons hhyphen _)).trans ?_
  refine (bind_eq_of_eq_some (shortNumber_places_of_lt hfits.day _)).trans ?_
  refine (bind_eq_of_eq_some (dateTimeSeparator_cons _)).trans ?_
  refine (bind_eq_of_eq_some (shortNumber_places_of_lt hfits.hour _)).trans ?_
  refine (bind_eq_of_eq_some (spacedChar_cons hcolon _)).trans ?_
  refine (bind_eq_of_eq_some (shortNumber_places_of_lt hfits.minute _)).trans ?_
  refine (bind_eq_of_eq_some (spacedChar_cons hcolon _)).trans ?_
  refine (bind_eq_of_eq_some (shortNumber_places_of_lt hsecond _)).trans ?_
  refine (bind_eq_of_eq_some (fraction_shortFraction hfraction)).trans ?_
  refine (bind_eq_of_eq_some hoffset).trans ?_
  exact (if_pos rfl).trans ht.zoned

end Instant

end TaskQueue.Time
