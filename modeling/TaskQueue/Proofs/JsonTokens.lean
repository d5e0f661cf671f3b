import Mathlib.Tactic
import TaskQueue.Json.Printer
import TaskQueue.Json.Token
import TaskQueue.Proofs.Digits

/-!
# Scanning printed JSON

The scanner finds the same tokens in a piece of printed JSON whatever follows it, as long as that
does not continue a numeral.  A number comes back as what its own text is read as: the shortest
text of a binary fraction is not always read back as that fraction.
-/

namespace TaskQueue.Json

open Decimal (splitDigits)

/-! ## The characters of a numeral -/

namespace Numeral

theorem isNumeral_of_isDigit {c : Char} (hc : c.isDigit = true) : isNumeral c = true := by
  simp [isNumeral, hc]

theorem readSign_cases (cs : List Char) :
    (∃ rest, cs = '-' :: rest ∧ readSign cs = (true, rest)) ∨ readSign cs = (false, cs) := by
  unfold readSign
  split
  · rename_i rest
    exact Or.inl ⟨rest, rfl, rfl⟩
  · exact Or.inr rfl

theorem le_foldl_digits (s : Nat) (ds : List Char) :
    s ≤ ds.foldl (fun n c => 10 * n + Decimal.digitValue c) s := by
  induction ds generalizing s with
  | nil => exact le_refl s
  | cons d ds ih =>
      have hrec := ih (10 * s + Decimal.digitValue d)
      rw [List.foldl_cons]
      omega

/-- Digits whose number fits 64 bits are all taken in. -/
theorem accumulate_eq {s : Nat} {ds : List Char}
    (hfit : ds.foldl (fun n c => 10 * n + Decimal.digitValue c) s < 2 ^ 64) :
    accumulate s ds = (ds.foldl (fun n c => 10 * n + Decimal.digitValue c) s, []) := by
  induction ds generalizing s with
  | nil => rfl
  | cons d ds ih =>
      rw [List.foldl_cons] at hfit ⊢
      have hnext : 10 * s + Decimal.digitValue d < 2 ^ 64 :=
        lt_of_le_of_lt (le_foldl_digits _ ds) hfit
      rw [accumulate, if_pos hnext]
      exact ih hfit

theorem accumulate_text {n : Nat} (hn : n < 2 ^ 64) : accumulate 0 (Decimal.text n) = (n, []) := by
  have hvalue : (Decimal.text n).foldl (fun n c => 10 * n + Decimal.digitValue c) 0 = n :=
    Decimal.value_text n
  have h := accumulate_eq (s := 0) (show (Decimal.text n).foldl _ 0 < 2 ^ 64 by rw [hvalue]; exact hn)
  rwa [hvalue] at h

/-- Digits that are all taken in stand for the number that is returned. -/
theorem accumulate_eq_nil {s n : Nat} {ds : List Char} (h : accumulate s ds = (n, [])) :
    n = ds.foldl (fun n c => 10 * n + Decimal.digitValue c) s := by
  induction ds generalizing s with
  | nil => exact (congrArg Prod.fst h).symm
  | cons d ds ih =>
      rw [accumulate] at h
      split at h
      · exact ih h
      · cases h

theorem readWhole_text (n : Nat) : readWhole (Decimal.text n) = some (Decimal.text n, []) := by
  unfold readWhole
  rw [Decimal.splitDigits_text]
  split
  · rename_i h
    exact absurd (congrArg Prod.fst h) (Decimal.text_ne_nil n)
  · rename_i d ds _ h
    have htext : Decimal.text n = '0' :: d :: ds := congrArg Prod.fst h
    by_cases hn : 0 < n
    · exact absurd (by rw [htext]; rfl) (Decimal.head_text_ne_zero hn)
    · have hzero : n = 0 := by omega
      rw [hzero, show Decimal.text 0 = ['0'] from rfl] at htext
      cases htext
  · rfl

theorem read_text (n : Nat) : read? (Decimal.text n) = some ⟨false, Decimal.text n, none, none⟩ := by
  have hsign : readSign (Decimal.text n) = (false, Decimal.text n) := by
    rcases readSign_cases (Decimal.text n) with ⟨rest, hminus, _⟩ | h
    · have hdigit : ('-' : Char).isDigit = true :=
        Decimal.isDigit_of_mem_text (n := n) (by rw [hminus]; simp)
      exact absurd hdigit (by decide)
    · exact h
  unfold read?
  rw [hsign]
  simp [readWhole_text, readFraction, readExponent]

end Numeral

/-! ## The texts of numbers -/

namespace Number

/-- A text that begins as a numeral and holds only characters of numerals. -/
structure IsRun (cs : List Char) : Prop where
  all : cs.all isNumeral = true
  start : ∃ c tail, cs = c :: tail ∧ (c = '-' ∨ c.isDigit = true)

namespace IsRun

theorem append {cs ds : List Char} (h : IsRun cs) (hds : ds.all isNumeral = true) :
    IsRun (cs ++ ds) := by
  obtain ⟨c, tail, rfl, hc⟩ := h.start
  exact ⟨by rw [List.all_append, h.all, hds]; rfl, c, tail ++ ds, rfl, hc⟩

theorem minus {cs : List Char} (h : IsRun cs) : IsRun ('-' :: cs) :=
  ⟨by rw [List.all_cons, h.all]; rfl, '-', cs, rfl, Or.inl rfl⟩

theorem of_digits {ds : List Char} (hne : ds ≠ []) (hds : ∀ c ∈ ds, c.isDigit = true) :
    IsRun ds := by
  obtain ⟨c, tail, rfl⟩ := List.exists_cons_of_ne_nil hne
  refine ⟨List.all_eq_true.2 ?_, c, tail, rfl, Or.inr (hds c List.mem_cons_self)⟩
  exact fun d hd => Numeral.isNumeral_of_isDigit (hds d hd)

theorem text (n : Nat) : IsRun (Decimal.text n) :=
  of_digits (Decimal.text_ne_nil n) fun _ hc => Decimal.isDigit_of_mem_text hc

end IsRun

theorem all_exponentText (e : Int) : (exponentText e).all isNumeral = true := by
  have hmark : isNumeral 'e' = true ∧ isNumeral '+' = true := ⟨rfl, rfl⟩
  unfold exponentText
  split
  · simp [hmark, (IsRun.text e.toNat).all]
  · cases e with
    | ofNat n => simp [Decimal.signedText, hmark, (IsRun.text n).all]
    | negSucc n => simp [Decimal.signedText, hmark, (IsRun.text (n + 1)).minus.all]

theorem isRun_layout {digits : List Char} (hne : digits ≠ [])
    (hdigits : ∀ c ∈ digits, c.isDigit = true) (e : Int) : IsRun (layout digits e) := by
  have hrun : IsRun digits := .of_digits hne hdigits
  have hmarks : isNumeral '.' = true ∧ isNumeral '0' = true := ⟨rfl, rfl⟩
  unfold layout
  simp only
  split
  · rw [List.append_assoc]
    apply hrun.append
    simp [hmarks]
  split
  · -- At least one digit stands before the point.
    apply IsRun.append (.of_digits _ _)
    · rw [List.all_cons, hmarks.1]
      exact List.all_eq_true.2 fun c hc =>
        List.all_eq_true.1 hrun.all c (List.mem_of_mem_drop hc)
    · simp only [ne_eq, List.take_eq_nil_iff, hne, or_false]
      omega
    · exact fun c hc => hdigits c (List.mem_of_mem_take hc)
  split
  · have hzero : IsRun ['0'] := .text 0
    have hrest : ('.' :: List.replicate (-((digits.length : Int) + e)).toNat '0' ++ digits).all
        isNumeral = true := by
      simp [hmarks, hrun.all]
    exact hzero.append hrest
  · obtain ⟨d, rest, rfl⟩ := List.exists_cons_of_ne_nil hne
    have hd : IsRun [d] := .of_digits (by simp) (by simp [hdigits d])
    have hrest := (List.all_cons ▸ hrun.all : (isNumeral d && rest.all isNumeral) = true)
    rw [Bool.and_eq_true] at hrest
    cases rest with
    | nil => exact hd.append (all_exponentText _)
    | cons x more =>
        have hpoint : ('.' :: x :: more).all isNumeral = true := by
          rw [List.all_cons, hmarks.1, hrest.2]
          rfl
        exact (hd.append hpoint).append (all_exponentText _)

theorem isRun_chars (n : Number) : IsRun n.chars := by
  cases n with
  | natural n => exact .text n
  | negative n => exact (IsRun.text n).minus
  | real bits =>
      have hbody : IsRun (layout (Decimal.text (Decimal.Binary.ofBits bits).shortest.digits)
          (Decimal.Binary.ofBits bits).shortest.exponent) :=
        isRun_layout (Decimal.text_ne_nil _) (fun _ hc => Decimal.isDigit_of_mem_text hc) _
      unfold chars
      simp only
      split
      · exact hbody.minus
      · exact hbody

theorem survives_natural {n : Nat} (hn : n < 2 ^ 64) : Survives (.natural n) := by
  unfold Survives ofChars? chars
  rw [Numeral.read_text, Option.bind_some]
  simp [Numeral.number?, Numeral.accumulate_text hn]

end Number

/-! ## Scanning one token -/

def StopsNumeral (rest : List Char) : Prop :=
  ∀ c, rest.head? = some c → isNumeral c = false

namespace Scanner

theorem run_cons_of_step {s next : Scanner} {c : Char} {tokens : List Token} {cs : List Char}
    (h : s.step c = some (next, tokens)) :
    run s (c :: cs) = (run next cs).map (tokens ++ ·) := by
  rw [run, h]
  rfl

/-- A character that does not belong to the numeral ends it. -/
theorem run_numeral_of_stops {read rest : List Char} (hstops : StopsNumeral rest) :
    run (.numeral read) rest =
      (numeralToken? read).bind fun token => (run .between rest).map ([token] ++ ·) := by
  cases rest with
  | nil => cases h : numeralToken? read <;> simp [run, finish, h]
  | cons c cs =>
      have hc : isNumeral c = false := hstops c rfl
      have hstep : step (.numeral read) c = (numeralToken? read).bind fun token =>
          (start c).map fun p => (p.1, token :: p.2) := by
        simp only [step, hc, Bool.false_eq_true, if_false]
        cases numeralToken? read <;> cases start c <;> rfl
      rw [run, run, hstep]
      cases numeralToken? read with
      | none => rfl
      | some token =>
          cases hstart : start c with
          | none => simp [step, hstart]
          | some p =>
              obtain ⟨next, tokens⟩ := p
              simp only [step, hstart, Option.map_some, Option.bind_eq_bind, Option.bind_some,
                Option.map_map]
              rfl

theorem run_numeral_append {read cs rest : List Char}
    (hcs : ∀ c ∈ cs, isNumeral c = true) :
    run (.numeral read) (cs ++ rest) = run (.numeral (cs.reverse ++ read)) rest := by
  induction cs generalizing read with
  | nil => rfl
  | cons c cs ih =>
      have hc : isNumeral c = true := hcs c (by simp)
      have hstep : step (.numeral read) c = some (.numeral (c :: read), []) := by
        simp [step, hc]
      rw [List.cons_append, run_cons_of_step hstep]
      have hrec := @ih (c :: read) (fun d hd => hcs d (by simp [hd]))
      simpa using hrec

theorem start_numeral {c : Char} (hc : c = '-' ∨ c.isDigit = true) :
    start c = some (.numeral [c], []) := by
  rcases hc with hc | hc
  · rw [hc]
    rfl
  · have hne : ∀ d : Char, d.isDigit = false → c ≠ d := by
      intro d hd heq
      rw [heq, hd] at hc
      cases hc
    simp [start, isSpace, hc, hne ' ' rfl, hne '\t' rfl, hne '\n' rfl, hne '\r' rfl, hne '[' rfl,
      hne ']' rfl, hne '\x7b' rfl, hne '\x7d' rfl, hne ':' rfl, hne ',' rfl, hne '"' rfl,
      hne 'n' rfl, hne 't' rfl, hne 'f' rfl]

/-- Before `rest` the scanner finds in `cs` the given tokens, or fails if there are none. -/
def Scans (cs : List Char) (found : Option (List Token)) (rest : List Char) : Prop :=
  run .between (cs ++ rest) = found.bind fun tokens => (run .between rest).map (tokens ++ ·)

theorem Scans.append {cs ds rest : List Char} {found more : Option (List Token)}
    (hcs : Scans cs found (ds ++ rest)) (hds : Scans ds more rest) :
    Scans (cs ++ ds) (found.bind fun tokens => more.map (tokens ++ ·)) rest := by
  unfold Scans at hcs hds ⊢
  rw [List.append_assoc, hcs, hds]
  cases found with
  | none => rfl
  | some tokens =>
      cases more with
      | none => rfl
      | some last =>
          simp only [Option.bind_some, Option.map_some, Option.map_map]
          congr 1
          funext others
          simp

/-- What a number is read as, if its text is a numeral. -/
def echoed (n : Number) : Option (Option Number) :=
  (Numeral.read? n.chars).map Numeral.number?

theorem scans_number (n : Number) {rest : List Char} (hstops : StopsNumeral rest) :
    Scans n.chars ((echoed n).map fun m => [.number m]) rest := by
  obtain ⟨hall, c, tail, hchars, hc⟩ := Number.isRun_chars n
  have hfirst : step .between c = some (.numeral [c], []) := start_numeral hc
  have htail : ∀ d ∈ tail, isNumeral d = true := by
    intro d hd
    exact List.all_eq_true.1 hall d (by simp [hchars, hd])
  have htoken : numeralToken? (tail.reverse ++ [c]) = (echoed n).map .number := by
    unfold numeralToken? echoed
    rw [hchars, List.reverse_append, List.reverse_reverse, Option.map_map]
    rfl
  unfold Scans
  rw [hchars, List.cons_append, run_cons_of_step hfirst, run_numeral_append htail,
    run_numeral_of_stops hstops, htoken]
  cases echoed n <;> simp [Function.comp_def]

/-- A natural number comes back as itself, unless it is read as a fraction. -/
theorem natBelow_echoed {n bound k : Nat} {m : Option Number}
    (hecho : echoed (.natural n) = some m) (hread : m.bind (Number.natBelow? bound) = some k) :
    k = n := by
  unfold echoed Number.chars at hecho
  rw [Numeral.read_text, Option.map_some, Option.some.injEq] at hecho
  unfold Numeral.number? at hecho
  rcases hwhole : Numeral.accumulate 0 (Decimal.text n) with ⟨whole, beyond⟩
  simp only [hwhole] at hecho
  rw [← hecho] at hread
  cases beyond with
  | nil =>
      have hn : whole = n := (Numeral.accumulate_eq_nil hwhole).trans (Decimal.value_text n)
      simp only [Bool.false_eq_true, if_false, Option.bind_some, Number.natBelow?, hn,
        Option.ite_none_right_eq_some] at hread
      exact (Option.some.inj hread.2).symm
  | cons d ds =>
      rw [Option.bind_map, Option.bind_eq_some_iff] at hread
      obtain ⟨f, -, hf⟩ := hread
      cases hf

theorem scans_sign {c : Char} {token : Token} {rest : List Char}
    (h : start c = some (.between, [token])) : Scans [c] (some [token]) rest := by
  unfold Scans
  exact run_cons_of_step h

theorem scans_null (rest : List Char) : Scans ['n', 'u', 'l', 'l'] (some [.null]) rest := by
  unfold Scans
  simp only [List.cons_append, List.nil_append]
  rw [run_cons_of_step rfl, run_cons_of_step rfl, run_cons_of_step rfl, run_cons_of_step rfl]
  simp only [Option.map_map]
  rfl

theorem scans_bool (b : Bool) (rest : List Char) :
    Scans (chars (.bool b)) (some [.bool b]) rest := by
  unfold Scans
  cases b
  · simp only [chars, List.cons_append, List.nil_append]
    rw [run_cons_of_step rfl, run_cons_of_step rfl, run_cons_of_step rfl, run_cons_of_step rfl,
      run_cons_of_step rfl]
    simp only [Option.map_map]
    rfl
  · simp only [chars, List.cons_append, List.nil_append]
    rw [run_cons_of_step rfl, run_cons_of_step rfl, run_cons_of_step rfl, run_cons_of_step rfl]
    simp only [Option.map_map]
    rfl

end Scanner

/-! ## Scanning quoted texts -/

/-- How a character comes back when its escaped form is read. -/
def Piece.ofChar (c : Char) : Piece :=
  if c = '\n' ∨ c = '\r' ∨ c = '\t' ∨ c = '\x08' ∨ c = '\x0c' then .char c
  else if c.toNat < 32 then .unit c.toNat
  else .char c

theorem Piece.ofChar_cases (c : Char) :
    ofChar c = .char c ∨ (c.toNat < 32 ∧ ofChar c = .unit c.toNat) := by
  unfold ofChar
  split
  · exact Or.inl rfl
  · split
    · rename_i hc
      exact Or.inr ⟨hc, rfl⟩
    · exact Or.inl rfl

theorem Piece.decode_unit {n : Nat} (hn : n < 32) (ps : List Piece) :
    decode (.unit n :: ps) = (decode ps).map (Char.ofNat n :: ·) := by
  cases ps with
  | nil => simp [decode, show ¬0xD800 ≤ n by omega]
  | cons p ps =>
      cases p with
      | char c => simp [decode, show ¬0xD800 ≤ n by omega]
      | unit m =>
          simp [decode, show ¬0xD800 ≤ n by omega, show ¬0xDC00 ≤ n by omega]

theorem Piece.decode_map_ofChar (cs : List Char) :
    decode (cs.map ofChar) = some cs := by
  induction cs with
  | nil => rfl
  | cons c cs ih =>
      rw [List.map_cons]
      rcases ofChar_cases c with h | ⟨hc, h⟩
      · simp [h, decode, ih]
      · rw [h, decode_unit hc, ih]
        simp

theorem hexValue_hexDigit {n : Nat} (hn : n < 16) : hexValue? (hexDigit n) = some n := by
  interval_cases n <;> rfl

namespace Scanner

theorem run_text_of_step {read more : List Piece} {c : Char} {cs : List Char}
    (h : step (.text read) c = some (.text more, [])) :
    run (.text read) (c :: cs) = run (.text more) cs := by
  simp [run_cons_of_step h]

/-- A short escape is read as the character that it stands for. -/
theorem run_shortEscape {read : List Piece} {c d : Char} {cs : List Char} (hne : c ≠ 'u')
    (h : shortEscape? c = some d) :
    run (.text read) ('\\' :: c :: cs) = run (.text (.char d :: read)) cs := by
  have hfirst : step (.text read) '\\' = some (.escaped read, []) := rfl
  have hsecond : step (.escaped read) c = some (.text (.char d :: read), []) := by
    simp [step, hne, h]
  rw [run_cons_of_step hfirst, run_cons_of_step hsecond]
  simp

/-- A control character written in hexadecimal is read as a unit. -/
theorem run_longEscape {read : List Piece} {n : Nat} {cs : List Char} (hn : n < 256) :
    run (.text read) (['\\', 'u', '0', '0', hexDigit (n / 16), hexDigit (n % 16)] ++ cs) =
      run (.text (.unit n :: read)) cs := by
  have hhigh := hexValue_hexDigit (show n / 16 < 16 by omega)
  have hlow := hexValue_hexDigit (show n % 16 < 16 by omega)
  have hthird : step (.unit read 2 0) (hexDigit (n / 16)) =
      some (.unit read 1 (n / 16), []) := by
    simp [step, hhigh]
  have hfourth : step (.unit read 1 (n / 16)) (hexDigit (n % 16)) =
      some (.text (.unit n :: read), []) := by
    simp [step, hlow]
    omega
  simp only [List.cons_append, List.nil_append]
  rw [run_cons_of_step (show step (.text read) '\\' = some (.escaped read, []) from rfl),
    run_cons_of_step (show step (.escaped read) 'u' = some (.unit read 4 0, []) from rfl),
    run_cons_of_step (show step (.unit read 4 0) '0' = some (.unit read 3 0, []) from rfl),
    run_cons_of_step (show step (.unit read 3 0) '0' = some (.unit read 2 0, []) from rfl),
    run_cons_of_step hthird, run_cons_of_step hfourth]
  simp

theorem run_escape (read : List Piece) (c : Char) (cs : List Char) :
    run (.text read) (escape c ++ cs) = run (.text (Piece.ofChar c :: read)) cs := by
  unfold escape
  split
  · rename_i h
    rw [h]
    exact run_shortEscape (by decide) rfl
  split
  · rename_i h
    rw [h]
    exact run_shortEscape (by decide) rfl
  split
  · rename_i h
    rw [h]
    exact run_shortEscape (by decide) rfl
  split
  · rename_i h
    rw [h]
    exact run_shortEscape (by decide) rfl
  split
  · rename_i h
    rw [h]
    exact run_shortEscape (by decide) rfl
  split
  · rename_i h
    rw [h]
    exact run_shortEscape (by decide) rfl
  split
  · rename_i h
    rw [h]
    exact run_shortEscape (by decide) rfl
  rename_i hquote hslash hline hreturn htab hback hfeed
  have hplain : ¬(c = '\n' ∨ c = '\r' ∨ c = '\t' ∨ c = '\x08' ∨ c = '\x0c') := by tauto
  split
  · rename_i hcontrol
    rw [Piece.ofChar, if_neg hplain, if_pos hcontrol]
    exact run_longEscape (by omega)
  · rename_i hcontrol
    rw [Piece.ofChar, if_neg hplain, if_neg hcontrol]
    exact run_text_of_step (by simp [step, hquote, hslash, hcontrol])

theorem run_flatMap_escape (read : List Piece) (cs rest : List Char) :
    run (.text read) (cs.flatMap escape ++ rest) =
      run (.text ((cs.map Piece.ofChar).reverse ++ read)) rest := by
  induction cs generalizing read with
  | nil => rfl
  | cons c cs ih =>
      rw [List.flatMap_cons, List.append_assoc, run_escape, ih]
      simp

theorem scans_quoted (s : String) (rest : List Char) : Scans (quoted s) (some [.text s]) rest := by
  have hopen : step .between '"' = some (.text [], []) := rfl
  have hclose : step (.text (s.toList.map Piece.ofChar).reverse) '"' =
      some (.between, [.text s]) := by
    simp [step, Piece.decode_map_ofChar]
  unfold Scans quoted
  simp only [List.cons_append, List.append_assoc]
  rw [run_cons_of_step hopen, run_flatMap_escape, List.append_nil, List.nil_append,
    run_cons_of_step hclose]
  simp only [Option.map_map]
  rfl

end Scanner

end TaskQueue.Json
