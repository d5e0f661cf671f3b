import Mathlib.Tactic
import TaskQueue.Proofs.ScaledNumber
import TaskQueue.Proofs.ShortestDecimal

/-!
# The texts of numbers are numerals

The text of a number is a numeral with the digits of the number, whichever layout it has.  So the
text of a valid number is always read as some number, although not always as the same one.
-/

namespace TaskQueue.Json

open Decimal (splitDigits topPlace)

namespace Numeral

/-! ## Reading the parts of a numeral -/

/-- Reads what follows the sign. -/
def readUnsigned (negative : Bool) (cs : List Char) : Option Numeral := do
  let (whole, cs) ← readWhole cs
  let (fraction, cs) ← readFraction cs
  let (exponent, cs) ← readExponent cs
  if cs.isEmpty then some { negative, whole, fraction, exponent } else none

theorem read_eq (cs : List Char) : read? cs = readUnsigned (readSign cs).1 (readSign cs).2 :=
  rfl

def StopsDigits (rest : List Char) : Prop :=
  ∀ c, rest.head? = some c → c.isDigit = false

variable {ds fs rest : List Char}

/-- Digits that have no leading zero, or are a single zero. -/
structure IsWhole (ds : List Char) : Prop where
  digits : ∀ c ∈ ds, c.isDigit = true
  nonempty : ds ≠ []
  leading : ds.head? = some '0' → ds.length = 1

theorem readWhole_append (hds : IsWhole ds) (hrest : StopsDigits rest) :
    readWhole (ds ++ rest) = some (ds, rest) := by
  unfold readWhole
  rw [Decimal.splitDigits_append hds.digits hrest]
  split
  · rename_i h
    exact absurd (congrArg Prod.fst h) hds.nonempty
  · rename_i d more _ h
    have hzero : ds = '0' :: d :: more := congrArg Prod.fst h
    have hlength := hds.leading (by rw [hzero]; rfl)
    rw [hzero] at hlength
    cases hlength
  · rfl

theorem readFraction_point (hfs : ∀ c ∈ fs, c.isDigit = true) (hne : fs ≠ []) (hrest : StopsDigits rest) :
    readFraction ('.' :: (fs ++ rest)) = some (some fs, rest) := by
  unfold readFraction
  simp only
  rw [Decimal.splitDigits_append hfs hrest]
  split
  · rename_i h
    exact absurd (congrArg Prod.fst h) hne
  · rename_i h
    cases h
    rfl

theorem readFraction_skip (hrest : ∀ c, rest.head? = some c → c ≠ '.') :
    readFraction rest = some (none, rest) := by
  unfold readFraction
  split
  · rename_i tail
    exact absurd rfl (hrest '.' rfl)
  · rfl

theorem readExponentDigits_text (minus : Bool) (n : Nat) :
    readExponentDigits minus (Decimal.text n) = some (some (minus, Decimal.text n), []) := by
  unfold readExponentDigits
  rw [Decimal.splitDigits_text]
  split
  · rename_i h
    exact absurd (congrArg Prod.fst h) (Decimal.text_ne_nil n)
  · rename_i h
    cases h
    rfl

theorem readExponent_text (e : Int) :
    readExponent (Number.exponentText e) = some (some (decide (e < 0), Decimal.text e.natAbs), []) := by
  unfold Number.exponentText
  cases e with
  | ofNat n =>
      have hsign : (0 : Int) ≤ Int.ofNat n := Int.natCast_nonneg n
      have hplus : decide (Int.ofNat n < 0) = false := decide_eq_false (not_lt.2 hsign)
      rw [if_pos hsign, hplus]
      exact readExponentDigits_text false n
  | negSucc n =>
      have hsign : ¬(0 : Int) ≤ Int.negSucc n := by omega
      have hminus : decide (Int.negSucc n < 0) = true := decide_eq_true (by omega)
      rw [if_neg hsign, hminus]
      exact readExponentDigits_text true (n + 1)

theorem readUnsigned_point {negative : Bool} (hds : IsWhole ds) (hfs : ∀ c ∈ fs, c.isDigit = true)
    (hne : fs ≠ []) : readUnsigned negative (ds ++ '.' :: fs) = some ⟨negative, ds, some fs, none⟩ := by
  have hwhole : readWhole (ds ++ '.' :: fs) = some (ds, '.' :: fs) :=
    readWhole_append hds (by rintro c ⟨⟩; rfl)
  have hfraction : readFraction ('.' :: (fs ++ [])) = some (some fs, []) :=
    readFraction_point hfs hne (by rintro c ⟨⟩)
  rw [List.append_nil] at hfraction
  simp [readUnsigned, hwhole, hfraction, readExponent]

theorem isWhole_digit {d : Char} (hd : d.isDigit = true) : IsWhole [d] where
  digits := by simp [hd]
  nonempty := by simp
  leading := fun _ => rfl

theorem stopsDigits_exponentText (e : Int) : StopsDigits (Number.exponentText e) := by
  rintro c ⟨⟩
  rfl

theorem readUnsigned_exponent {negative : Bool} {d : Char} (hd : d.isDigit = true) (e : Int) :
    readUnsigned negative (d :: Number.exponentText e) =
      some ⟨negative, [d], none, some (decide (e < 0), Decimal.text e.natAbs)⟩ := by
  have hwhole : readWhole ([d] ++ Number.exponentText e) = some ([d], Number.exponentText e) :=
    readWhole_append (isWhole_digit hd) (stopsDigits_exponentText e)
  have hfraction : readFraction (Number.exponentText e) = some (none, Number.exponentText e) :=
    readFraction_skip (by rintro c ⟨⟩; decide)
  rw [List.singleton_append] at hwhole
  simp [readUnsigned, hwhole, hfraction, readExponent_text]

theorem readUnsigned_point_exponent {negative : Bool} {d : Char} (hd : d.isDigit = true)
    (hfs : ∀ c ∈ fs, c.isDigit = true) (hne : fs ≠ []) (e : Int) :
    readUnsigned negative (d :: '.' :: (fs ++ Number.exponentText e)) =
      some ⟨negative, [d], some fs, some (decide (e < 0), Decimal.text e.natAbs)⟩ := by
  have hwhole : readWhole ([d] ++ '.' :: (fs ++ Number.exponentText e)) =
      some ([d], '.' :: (fs ++ Number.exponentText e)) :=
    readWhole_append (isWhole_digit hd) (by rintro c ⟨⟩; rfl)
  have hfraction := readFraction_point hfs hne (stopsDigits_exponentText e)
  rw [List.singleton_append] at hwhole
  simp [readUnsigned, hwhole, hfraction, readExponent_text]

/-! ## The layouts -/

/-- Whether a text without a sign is a numeral with a number, with and without a minus. -/
def HasNumber (cs : List Char) : Prop :=
  ∀ negative, ∃ n m, readUnsigned negative cs = some n ∧ number? n = some m

theorem foldl_lt {s : Nat} (hds : ∀ c ∈ ds, c.isDigit = true) :
    ds.foldl (fun n c => 10 * n + Decimal.digitValue c) s < (s + 1) * 10 ^ ds.length := by
  induction ds generalizing s with
  | nil => simp
  | cons d ds ih =>
      have hd : Decimal.digitValue d ≤ 9 := by
        have hrange : d.toNat ≤ 57 := (Char.isDigit_iff_toNat.1 (hds d (by simp))).2
        unfold Decimal.digitValue
        omega
      have hrest := ih (s := 10 * s + Decimal.digitValue d) fun c hc => hds c (by simp [hc])
      calc ds.foldl _ (10 * s + Decimal.digitValue d)
          < (10 * s + Decimal.digitValue d + 1) * 10 ^ ds.length := hrest
        _ ≤ (10 * (s + 1)) * 10 ^ ds.length := Nat.mul_le_mul_right _ (by omega)
        _ = (s + 1) * 10 ^ (d :: ds).length := by
            rw [List.length_cons, pow_succ]
            ring

theorem value_lt {bound : Nat} (hds : ∀ c ∈ ds, c.isDigit = true) (hlength : ds.length ≤ bound) :
    Decimal.value ds < 10 ^ bound := by
  have h := foldl_lt (s := 0) hds
  rw [Nat.zero_add, Nat.one_mul] at h
  exact h.trans_le (Nat.pow_le_pow_right (by norm_num) hlength)

/-- Digits with a point, not too many of them before it. -/
theorem hasNumber_point (hds : IsWhole ds) (hlength : ds.length ≤ 16)
    (hfs : ∀ c ∈ fs, c.isDigit = true) (hne : fs ≠ []) : HasNumber (ds ++ '.' :: fs) := by
  intro negative
  have hvalue : Decimal.value ds < 2 ^ 64 := (value_lt hds.digits hlength).trans (by norm_num)
  obtain ⟨m, hm⟩ : ∃ m, number? ⟨negative, ds, some fs, none⟩ = some m := exists_number_plain hvalue
  exact ⟨_, m, readUnsigned_point hds hfs hne, hm⟩

theorem exists_number_digits {negative : Bool} {n : Nat} (hn : 0 < n) {d : Char}
    (htext : Decimal.text n = d :: fs) (places : Option (List Char)) (hplaces : places.getD [] = fs)
    {e : Int} (hbound : (n : ℚ) * 10 ^ (e - fs.length) ≤ safeBound) :
    ∃ m, number? ⟨negative, [d], places, some (decide (e < 0), Decimal.text e.natAbs)⟩ = some m := by
  have hd : d.isDigit = true := Decimal.isDigit_of_mem_text (n := n) (by simp [htext])
  have hvalue : Decimal.value ([d] ++ fs) = n := by
    rw [List.singleton_append, ← htext, Decimal.value_text]
  have hwhole : Decimal.value [d] < 2 ^ 64 :=
    (value_lt (isWhole_digit hd).digits (le_refl _)).trans (by norm_num)
  have hfirst : 10 ^ fs.length ≤ Decimal.value ([d] ++ fs) := by
    have h := Decimal.pow_length_text_le hn
    rwa [htext, List.length_cons, Nat.add_sub_cancel, ← hvalue] at h
  rw [← hvalue] at hbound
  exact exists_number_scaled hplaces hwhole hfirst hbound

theorem isWhole_text (n : Nat) : IsWhole (Decimal.text n) where
  digits _ := Decimal.isDigit_of_mem_text
  nonempty := Decimal.text_ne_nil n
  leading h := by
    rcases Nat.eq_zero_or_pos n with rfl | hn
    · rfl
    · exact absurd h (Decimal.head_text_ne_zero hn)

theorem isWhole_of_head {n : Nat} (hn : 0 < n) (hds : ∀ c ∈ ds, c.isDigit = true)
    (hhead : ds.head? = (Decimal.text n).head?) : IsWhole ds where
  digits := hds
  nonempty := by
    rintro rfl
    exact Decimal.text_ne_nil n (List.head?_eq_none_iff.1 hhead.symm)
  leading h := absurd (hhead ▸ h) (Decimal.head_text_ne_zero hn)

theorem hasNumber_layout {n : Nat} {k : Int} (hzero : n = 0 → k = 0)
    (hbound : (n : ℚ) * 10 ^ k ≤ safeBound) : HasNumber (Number.layout (Decimal.text n) k) := by
  have hdigits : ∀ c ∈ Decimal.text n, c.isDigit = true := fun _ => Decimal.isDigit_of_mem_text
  have hlength : 0 < (Decimal.text n).length := List.length_pos_of_ne_nil (Decimal.text_ne_nil n)
  have hpos : k ≠ 0 → 0 < n := fun hk => Nat.pos_of_ne_zero fun hn => hk (hzero hn)
  unfold Number.layout
  simp only
  split
  · rename_i h
    have hzeros : ∀ c ∈ Decimal.text n ++ List.replicate k.toNat '0', c.isDigit = true := by
      intro c hc
      rcases List.mem_append.1 hc with hc | hc
      · exact hdigits c hc
      · rw [(List.mem_replicate.1 hc).2]
        rfl
    refine hasNumber_point ?_ ?_ (by simp) (by simp)
    · rcases eq_or_ne k 0 with rfl | hk
      · simpa using isWhole_text n
      · apply isWhole_of_head (hpos hk) hzeros
        rw [List.head?_append_of_ne_nil _ (Decimal.text_ne_nil n)]
    · rw [List.length_append, List.length_replicate]
      omega
  split
  · rename_i hlarge hpoint
    have hn : 0 < n := hpos (by omega)
    apply hasNumber_point
    · apply isWhole_of_head hn fun c hc => hdigits c (List.mem_of_mem_take hc)
      rw [List.head?_take, if_neg (by omega)]
    · rw [List.length_take]
      omega
    · exact fun c hc => hdigits c (List.mem_of_mem_drop hc)
    · simp only [ne_eq, List.drop_eq_nil_iff]
      omega
  split
  · rename_i hpoint
    show HasNumber (['0'] ++ '.' :: _)
    refine hasNumber_point (isWhole_text 0) (by simp) ?_ ?_
    · intro c hc
      rcases List.mem_append.1 hc with hc | hc
      · rw [(List.mem_replicate.1 hc).2]
        rfl
      · exact hdigits c hc
    · simp [Decimal.text_ne_nil]
  · rename_i hlarge _ _
    have hn : 0 < n := by
      apply Nat.pos_of_ne_zero
      rintro rfl
      exact hlarge (by rw [hzero rfl]; decide)
    obtain ⟨d, fs, htext⟩ := List.exists_cons_of_ne_nil (Decimal.text_ne_nil n)
    have hd : d.isDigit = true := hdigits d (by simp [htext])
    have hfs : ∀ c ∈ fs, c.isDigit = true := fun c hc => hdigits c (by simp [htext, hc])
    -- The exponent counts from the first digit, the scale from the last one.
    have hplace : ((Decimal.text n).length : Int) + k - 1 - fs.length = k := by
      rw [htext, List.length_cons]
      omega
    rw [← hplace] at hbound
    generalize ((Decimal.text n).length : Int) + k - 1 = e at hbound ⊢
    rw [htext]
    intro negative
    cases fs with
    | nil =>
        obtain ⟨m, hm⟩ := exists_number_digits hn htext none rfl hbound
        exact ⟨_, m, readUnsigned_exponent hd e, hm⟩
    | cons x more =>
        obtain ⟨m, hm⟩ := exists_number_digits hn htext (some (x :: more)) rfl hbound
        exact ⟨_, m, readUnsigned_point_exponent hd hfs (by simp) e, hm⟩

theorem readSign_of_readUnsigned {negative : Bool} {cs : List Char} {n : Numeral}
    (h : readUnsigned negative cs = some n) : readSign cs = (false, cs) := by
  rcases readSign_cases cs with ⟨rest, rfl, -⟩ | hsign
  · cases h
  · exact hsign

theorem HasNumber.read {cs : List Char} (h : HasNumber cs) :
    (∃ m, Number.ofChars? cs = some m) ∧ ∃ m, Number.ofChars? ('-' :: cs) = some m := by
  obtain ⟨n, m, hn, hm⟩ := h false
  obtain ⟨n', m', hn', hm'⟩ := h true
  constructor
  · refine ⟨m, ?_⟩
    rw [Number.ofChars?, read_eq, readSign_of_readUnsigned hn, hn, Option.bind_some, hm]
  · refine ⟨m', ?_⟩
    rw [Number.ofChars?, read_eq]
    exact Option.bind_eq_some_iff.2 ⟨n', hn', hm'⟩

end Numeral

namespace Number

theorem survives_negative {n : Nat} (hpos : 0 < n) (hn : n ≤ 2 ^ 63) : Survives (.negative n) := by
  have hread : Numeral.read? ('-' :: Decimal.text n) = some ⟨true, Decimal.text n, none, none⟩ := by
    have hsign : Numeral.readSign ('-' :: Decimal.text n) = (true, Decimal.text n) := rfl
    rw [Numeral.read_eq, hsign]
    simp [Numeral.readUnsigned, Numeral.readWhole_text, Numeral.readFraction, Numeral.readExponent]
  have hrange : ¬(n = 0 ∨ 2 ^ 63 < n) := by omega
  unfold Survives ofChars? chars
  rw [hread, Option.bind_some]
  simp only [Numeral.number?, Numeral.accumulate_text (show n < 2 ^ 64 by omega), if_true,
    if_neg hrange]

theorem ofBits_range {bits : UInt64} (h : bits.toNat / 2 ^ 52 % 2 ^ 11 < 2047) :
    (Decimal.Binary.ofBits bits).mantissa < 2 ^ 53 ∧ -1074 ≤ (Decimal.Binary.ofBits bits).exponent ∧
      (Decimal.Binary.ofBits bits).exponent ≤ 971 := by
  have hfraction : bits.toNat % 2 ^ 52 < 2 ^ 52 := Nat.mod_lt _ (Nat.two_pow_pos 52)
  unfold Decimal.Binary.ofBits
  simp only
  split
  · simp only
    omega
  · simp only
    omega

/-- The greatest finite numbers, with both signs. -/
def greatest : List UInt64 :=
  [0x7fefffffffffffff, 0x7feffffffffffffe, 0x7feffffffffffffd, 0xffefffffffffffff,
    0xffeffffffffffffe, 0xffeffffffffffffd]

theorem mem_greatest {bits : UInt64} (hmantissa : 2 ^ 53 - 3 ≤ (Decimal.Binary.ofBits bits).mantissa)
    (hexponent : (Decimal.Binary.ofBits bits).exponent = 971) : bits ∈ greatest := by
  have hbits := bits.toNat_lt
  unfold Decimal.Binary.ofBits at hmantissa hexponent
  simp only at hmantissa hexponent
  split at hmantissa
  · rename_i hsubnormal
    rw [if_pos hsubnormal] at hexponent
    cases hexponent
  · rename_i hnormal
    rw [if_neg hnormal] at hexponent
    simp only at hmantissa hexponent
    have hcases : bits.toNat = 0x7fefffffffffffff ∨ bits.toNat = 0x7feffffffffffffe ∨
        bits.toNat = 0x7feffffffffffffd ∨ bits.toNat = 0xffefffffffffffff ∨
        bits.toNat = 0xffeffffffffffffe ∨ bits.toNat = 0xffeffffffffffffd := by
      omega
    simpa [greatest, ← UInt64.toNat_inj] using hcases

/-- Below those numbers even the end of the rounding interval keeps the safe bound. -/
theorem le_safeBound {b : Decimal.Binary} (hshort : b.mantissa < 2 ^ 53) (hmost : b.exponent ≤ 971)
    (htop : ¬(2 ^ 53 - 3 ≤ b.mantissa ∧ b.exponent = 971)) :
    b.value + 2 ^ b.exponent / 2 ≤ safeBound := by
  have htopPlace : 0 ≤ topPlace := by linarith [Decimal.pow_le_topPlace]
  have hplace : topPlace = 2 ^ (971 : Int) := by rw [topPlace]
  have hunit : (0 : ℚ) < 2 ^ b.exponent := by positivity
  unfold Decimal.Binary.value safeBound
  by_cases he : b.exponent = 971
  · have hm : b.mantissa + 4 ≤ 2 ^ 53 := by omega
    have hmq : (b.mantissa : ℚ) + 4 ≤ 2 ^ 53 := by exact_mod_cast hm
    rw [he, ← hplace]
    have hmul : ((b.mantissa : ℚ) + 4) * topPlace ≤ 2 ^ 53 * topPlace :=
      mul_le_mul_of_nonneg_right hmq htopPlace
    linarith only [hmul]
  · have hm : (b.mantissa : ℚ) ≤ 2 ^ 53 - 1 := by
      have : b.mantissa + 1 ≤ 2 ^ 53 := hshort
      have : (b.mantissa : ℚ) + 1 ≤ 2 ^ 53 := by exact_mod_cast this
      linarith
    have hhalf : (2 : ℚ) ^ b.exponent * 2 ≤ topPlace := by
      rw [hplace, ← zpow_add_one₀ two_ne_zero]
      exact zpow_le_zpow_right₀ one_le_two (by omega)
    have hmul : (b.mantissa : ℚ) * 2 ^ b.exponent ≤ (2 ^ 53 - 1) * 2 ^ b.exponent :=
      mul_le_mul_of_nonneg_right hm hunit.le
    linarith only [hmul, hhalf, htopPlace]

theorem exists_ofChars_greatest : ∀ bits ∈ greatest, (ofChars? (chars (.real bits))).isSome = true := by
  have hall : (greatest.all fun bits => (ofChars? (chars (.real bits))).isSome) = true := by
    decide +kernel
  exact List.all_eq_true.1 hall

theorem exists_ofChars_real {bits : UInt64} (h : bits.toNat / 2 ^ 52 % 2 ^ 11 < 2047) :
    ∃ m, ofChars? (chars (.real bits)) = some m := by
  obtain ⟨hshort, hleast, hmost⟩ := ofBits_range h
  by_cases htop : 2 ^ 53 - 3 ≤ (Decimal.Binary.ofBits bits).mantissa ∧
      (Decimal.Binary.ofBits bits).exponent = 971
  · -- So near to the bound the estimates do not help, and the few numbers there are read one by one.
    exact Option.isSome_iff_exists.1 (exists_ofChars_greatest bits (mem_greatest htop.1 htop.2))
  have hbody : Numeral.HasNumber (layout (Decimal.text (Decimal.Binary.ofBits bits).shortest.digits)
      (Decimal.Binary.ofBits bits).shortest.exponent) := by
    generalize Decimal.Binary.ofBits bits = b at *
    rcases Nat.eq_zero_or_pos b.mantissa with hzero | hpos
    · have hshortest : b.shortest = ⟨0, 0⟩ := by
        unfold Decimal.Binary.shortest
        rw [if_pos hzero]
      rw [hshortest]
      refine Numeral.hasNumber_layout (fun _ => rfl) ?_
      have hlarge := Numeral.safeBound_large
      simp only [Nat.cast_zero, zero_mul]
      linarith
    · obtain ⟨hdigits, hnear⟩ := Decimal.Binary.shortest_near hpos hshort hleast
      refine Numeral.hasNumber_layout (fun hn => absurd hn hdigits) ?_
      have hbound := le_safeBound hshort hmost htop
      have hvalue : b.shortest.value ≤ b.value + 2 ^ b.exponent / 2 := by
        linarith [(abs_le.1 hnear).2]
      exact hvalue.trans hbound
  obtain ⟨hplain, hminus⟩ := hbody.read
  unfold chars
  simp only
  split
  · exact hminus
  · exact hplain

theorem exists_ofChars {n : Number} (h : n.IsValid) : ∃ m, ofChars? n.chars = some m := by
  cases n with
  | natural n => exact ⟨_, survives_natural h⟩
  | negative n => exact ⟨_, survives_negative h.1 h.2⟩
  | real bits => exact exists_ofChars_real h

end Number

end TaskQueue.Json
