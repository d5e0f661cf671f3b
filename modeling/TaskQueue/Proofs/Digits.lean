import TaskQueue.Decimal.Digits
import Mathlib.Tactic

/-!
# Reading decimal digits back

The two ways in which a number is written in decimal, at full length and in a fixed number of
places, are undone by `value`.  The digits of a number are found again at the front of a longer
text as soon as no further digit follows them, and places of one width are ordered as the numbers
that they show.
-/

namespace TaskQueue.Decimal

theorem digit_eq_digitChar (n : Nat) : digit n = Nat.digitChar (n % 10) := by
  have hlt : n % 10 < 10 := Nat.mod_lt n (by omega)
  unfold digit
  generalize n % 10 = d at hlt ⊢
  match d, hlt with
  | 0, _ | 1, _ | 2, _ | 3, _ | 4, _ | 5, _ | 6, _ | 7, _ | 8, _ | 9, _ => rfl

theorem isDigit_digit (n : Nat) : (digit n).isDigit = true := by
  rw [digit_eq_digitChar]
  simp [Nat.mod_lt]

theorem digitValue_digit (n : Nat) : digitValue (digit n) = n % 10 := by
  rw [digit_eq_digitChar]
  exact Nat.toNat_digitChar_sub_48_of_lt_ten (Nat.mod_lt n (by omega))

theorem value_append_digit (cs : List Char) (c : Char) :
    value (cs ++ [c]) = 10 * value cs + digitValue c := by
  simp [value]

theorem value_places (width n : Nat) : value (places width n) = n % 10 ^ width := by
  induction width generalizing n with
  | zero => simp [places, value, Nat.mod_one]
  | succ width ih =>
      rw [places, value_append_digit, ih, digitValue_digit, Nat.pow_succ,
        Nat.mul_comm (10 ^ width) 10, Nat.mod_mul]
      omega

theorem isDigit_of_mem_places {width n : Nat} {c : Char} (hc : c ∈ places width n) :
    c.isDigit = true := by
  induction width generalizing n with
  | zero => simp [places] at hc
  | succ width ih =>
      rw [places, List.mem_append] at hc
      rcases hc with hc | hc
      · exact ih hc
      · rw [List.mem_singleton.1 hc]
        exact isDigit_digit n

theorem value_text (n : Nat) : value (text n) = n :=
  Nat.ofDigitChars_ten_toDigits

theorem isDigit_of_mem_text {n : Nat} {c : Char} (hc : c ∈ text n) : c.isDigit = true :=
  Nat.isDigit_of_mem_toDigits (by omega) (by omega) hc

theorem text_ne_nil (n : Nat) : text n ≠ [] :=
  Nat.toDigits_ne_nil

theorem text_of_lt {n : Nat} (hn : n < 10) : text n = [digit n] := by
  rw [digit_eq_digitChar, Nat.mod_eq_of_lt hn]
  exact Nat.toDigits_of_lt_base hn

theorem text_of_le {n : Nat} (hn : 10 ≤ n) : text n = text (n / 10) ++ [digit n] := by
  rw [digit_eq_digitChar]
  exact Nat.toDigits_of_base_le (by omega) hn

/-- Only zero is written with a leading zero. -/
theorem head_text_ne_zero {n : Nat} (hn : 0 < n) : (text n).head? ≠ some '0' := by
  induction n using Nat.strongRecOn with
  | ind n ih =>
      by_cases hlt : n < 10
      · rw [text_of_lt hlt, digit_eq_digitChar, Nat.mod_eq_of_lt hlt]
        simp only [List.head?_cons, ne_eq, Option.some.injEq, Nat.digitChar_eq_zero]
        omega
      · have hge : 10 ≤ n := by omega
        have hrec := ih (n / 10) (by omega) (by omega)
        rw [text_of_le hge]
        cases htext : text (n / 10) with
        | nil => exact absurd htext (text_ne_nil _)
        | cons c cs => simpa [htext] using hrec

/-- A run of digits is cut off where no further digit follows. -/
theorem splitDigits_append {ds rest : List Char} (hds : ∀ c ∈ ds, c.isDigit = true)
    (hrest : ∀ c, rest.head? = some c → c.isDigit = false) :
    splitDigits (ds ++ rest) = (ds, rest) := by
  have htake : rest.takeWhile Char.isDigit = [] := by
    cases rest with
    | nil => rfl
    | cons c cs => simp [hrest c rfl]
  have hdrop : rest.dropWhile Char.isDigit = rest := by
    cases rest with
    | nil => rfl
    | cons c cs => simp [hrest c rfl]
  unfold splitDigits
  rw [List.takeWhile_append_of_pos hds, List.dropWhile_append_of_pos hds, htake, hdrop,
    List.append_nil]

theorem splitDigits_text (n : Nat) : splitDigits (text n) = (text n, []) := by
  have h : splitDigits (text n ++ []) = (text n, []) :=
    splitDigits_append (fun _ hc => isDigit_of_mem_text hc) (by simp)
  simpa using h

/-! ## The order of texts of one length -/

theorem append_lt_append_iff {as bs xs ys : List Char} (hlength : as.length = bs.length) :
    as ++ xs < bs ++ ys ↔ as < bs ∨ (as = bs ∧ xs < ys) := by
  induction as generalizing bs with
  | nil =>
      cases bs with
      | nil => simp
      | cons b bs => simp at hlength
  | cons a as ih =>
      cases bs with
      | nil => simp at hlength
      | cons b bs =>
          have hrec : as ++ xs < bs ++ ys ↔ as < bs ∨ (as = bs ∧ xs < ys) :=
            ih (by simpa using hlength)
          simp only [List.cons_append, List.cons_lt_cons_iff, hrec, List.cons.injEq]
          tauto

theorem mul_add_lt_iff {base r s m n : Nat} (hr : r < base) (hs : s < base) :
    (m < n ∨ (m = n ∧ r < s)) ↔ r + base * m < s + base * n := by
  rcases Nat.lt_trichotomy m n with h | h | h
  · have hmul : base * (m + 1) ≤ base * n := Nat.mul_le_mul_left base h
    rw [Nat.mul_succ] at hmul
    omega
  · subst h
    omega
  · have hmul : base * (n + 1) ≤ base * m := Nat.mul_le_mul_left base h
    rw [Nat.mul_succ] at hmul
    omega

theorem mul_add_inj {base r s m n : Nat} (hr : r < base) (hs : s < base) :
    (m = n ∧ r = s) ↔ r + base * m = s + base * n := by
  have hlt := mul_add_lt_iff hr hs (m := m) (n := n)
  have hgt := mul_add_lt_iff hs hr (m := n) (n := m)
  omega

/-- A way to write the last places of a number in some base, most significant first, with signs
that are ordered as the digits for which they stand. -/
structure Positional (base : Nat) (sign : Nat → Char) (write : Nat → Nat → List Char) : Prop where
  zero : ∀ n, write 0 n = []
  succ : ∀ width n, write (width + 1) n = write width (n / base) ++ [sign (n % base)]
  sign_lt_iff : ∀ {m n}, m < base → n < base → (sign m < sign n ↔ m < n)

namespace Positional

variable {base : Nat} {sign : Nat → Char} {write : Nat → Nat → List Char}

theorem length_write (h : Positional base sign write) (width n : Nat) :
    (write width n).length = width := by
  induction width generalizing n with
  | zero => rw [h.zero]; rfl
  | succ width ih => rw [h.succ, List.length_append, ih]; rfl

theorem write_add (h : Positional base sign write) (high low n : Nat) :
    write (high + low) n = write high (n / base ^ low) ++ write low n := by
  induction low generalizing n with
  | zero => rw [h.zero, Nat.pow_zero, Nat.div_one, List.append_nil, Nat.add_zero]
  | succ low ih =>
      rw [← Nat.add_assoc, h.succ, ih, h.succ low, Nat.div_div_eq_div_mul, Nat.pow_succ',
        List.append_assoc]

theorem sign_inj (h : Positional base sign write) {m n : Nat} (hm : m < base) (hn : n < base) :
    sign m = sign n ↔ m = n := by
  constructor
  · intro heq
    have hlt := h.sign_lt_iff hm hn
    have hgt := h.sign_lt_iff hn hm
    rw [heq] at hlt hgt
    have hirrefl := Char.lt_irrefl (sign n)
    rcases Nat.lt_trichotomy m n with hc | hc | hc
    · exact absurd (hlt.2 hc) hirrefl
    · exact hc
    · exact absurd (hgt.2 hc) hirrefl
  · intro heq
    rw [heq]

theorem write_inj (h : Positional base sign write) (hbase : 0 < base) (width m n : Nat) :
    write width m = write width n ↔ m % base ^ width = n % base ^ width := by
  induction width generalizing m n with
  | zero => simp [h.zero, Nat.mod_one]
  | succ width ih =>
      have hsign := h.sign_inj (Nat.mod_lt m hbase) (Nat.mod_lt n hbase)
      have hlength : (write width (m / base)).length = (write width (n / base)).length := by
        rw [h.length_write, h.length_write]
      have happend : write width (m / base) ++ [sign (m % base)] =
            write width (n / base) ++ [sign (n % base)] ↔
          write width (m / base) = write width (n / base) ∧ m % base = n % base := by
        constructor
        · intro heq
          obtain ⟨hinit, hlast⟩ := List.append_inj heq hlength
          rw [List.cons.injEq] at hlast
          exact ⟨hinit, hsign.1 hlast.1⟩
        · rintro ⟨hinit, hlast⟩
          rw [hinit, hlast]
      rw [h.succ, h.succ, happend, ih, Nat.pow_succ', Nat.mod_mul, Nat.mod_mul,
        ← mul_add_inj (Nat.mod_lt m hbase) (Nat.mod_lt n hbase)]

/-- Places of one width are ordered as the numbers that they show. -/
theorem write_lt_write_iff (h : Positional base sign write) (hbase : 0 < base)
    (width m n : Nat) :
    write width m < write width n ↔ m % base ^ width < n % base ^ width := by
  induction width generalizing m n with
  | zero => simp [h.zero, Nat.mod_one]
  | succ width ih =>
      have hinj := h.write_inj hbase width (m / base) (n / base)
      have hsign := h.sign_lt_iff (Nat.mod_lt m hbase) (Nat.mod_lt n hbase)
      rw [h.succ, h.succ, append_lt_append_iff (by rw [h.length_write, h.length_write]), ih, hinj,
        List.cons_lt_cons_iff, hsign, Nat.pow_succ', Nat.mod_mul, Nat.mod_mul,
        ← mul_add_lt_iff (Nat.mod_lt m hbase) (Nat.mod_lt n hbase)]
      simp

/-- Texts that start with places of one width and a common sign are ordered by the numbers first. -/
theorem write_cons_lt_iff (h : Positional base sign write) (hbase : 0 < base) (width m n : Nat)
    (c : Char) (xs ys : List Char) :
    write width m ++ c :: xs < write width n ++ c :: ys ↔
      m % base ^ width < n % base ^ width ∨
        (m % base ^ width = n % base ^ width ∧ xs < ys) := by
  have hcons : c :: xs < c :: ys ↔ xs < ys := by simp
  rw [append_lt_append_iff (by rw [h.length_write, h.length_write]),
    h.write_lt_write_iff hbase, h.write_inj hbase, hcons]

end Positional

theorem toNat_digit (n : Nat) : (digit n).toNat = 48 + n % 10 := by
  rw [digit_eq_digitChar]
  exact Nat.toNat_digitChar_of_lt_ten (Nat.mod_lt n (by omega))

theorem positional_places : Positional 10 digit places where
  zero _ := rfl
  succ width n := by
    have hdigit : digit (n % 10) = digit n := by
      rw [digit_eq_digitChar, digit_eq_digitChar, Nat.mod_mod]
    rw [places, hdigit]
  sign_lt_iff := by
    intro m n hm hn
    have hlt : digit m < digit n ↔ (digit m).toNat < (digit n).toNat := Iff.rfl
    rw [hlt, toNat_digit, toNat_digit]
    omega

theorem places_cons_lt_iff {width m n : Nat} (hm : m < 10 ^ width) (hn : n < 10 ^ width) (c : Char)
    (xs ys : List Char) :
    places width m ++ c :: xs < places width n ++ c :: ys ↔ m < n ∨ (m = n ∧ xs < ys) := by
  have h := positional_places.write_cons_lt_iff (by omega) width m n c xs ys
  rwa [Nat.mod_eq_of_lt hm, Nat.mod_eq_of_lt hn] at h

end TaskQueue.Decimal
