import Mathlib.Tactic
import TaskQueue.Cli.Window
import TaskQueue.Proofs.EmbeddedSchedule

/-!
# Windows as they are typed

The hours of a window are decimal numbers, with blanks around them or a plus sign before them.  The
first hyphen of the text is the one that separates them, so a window with a signed hour is refused.
-/

namespace TaskQueue

/-! ## Blanks around a word -/

namespace Text

/-- Whether the characters are the word with blanks around it. -/
def Pads (cs word : List Char) : Prop :=
  ∃ before after, cs = before ++ word ++ after ∧ (∀ c ∈ before, isBlank c = true) ∧
    ∀ c ∈ after, isBlank c = true

theorem pads_trimChars (cs : List Char) : Pads cs (trimChars cs) := by
  let rest := cs.dropWhile isBlank
  refine ⟨cs.takeWhile isBlank, (rest.reverse.takeWhile isBlank).reverse, ?_, ?_, ?_⟩
  · have hrest : trimChars cs ++ (rest.reverse.takeWhile isBlank).reverse = rest := by
      unfold trimChars
      rw [← List.reverse_append, List.takeWhile_append_dropWhile, List.reverse_reverse]
    rw [List.append_assoc, hrest, List.takeWhile_append_dropWhile]
  · exact fun c hc => List.mem_takeWhile_imp hc
  · exact fun c hc => List.mem_takeWhile_imp (List.mem_reverse.1 hc)

theorem dropWhile_blanks {blanks word : List Char} (hblanks : ∀ c ∈ blanks, isBlank c = true)
    (hword : ∀ c ∈ word, isBlank c = false) : (blanks ++ word).dropWhile isBlank = word := by
  rw [List.dropWhile_append_of_pos hblanks]
  cases word with
  | nil => rfl
  | cons c rest => simp [hword c List.mem_cons_self]

theorem trimChars_eq_iff {cs word : List Char} (hword : ∀ c ∈ word, isBlank c = false) :
    trimChars cs = word ↔ Pads cs word := by
  constructor
  · rintro rfl
    exact pads_trimChars cs
  · rintro ⟨before, after, rfl, hbefore, hafter⟩
    have hreversed : ∀ c ∈ word.reverse, isBlank c = false := by simpa using hword
    have hblanks : ∀ c ∈ after.reverse, isBlank c = true := by simpa using hafter
    unfold trimChars
    cases word with
    | nil =>
        -- All characters are blank, and the first pass takes them.
        have hall : ∀ c ∈ before ++ after, isBlank c = true :=
          List.forall_mem_append.2 ⟨hbefore, hafter⟩
        rw [List.append_nil, List.dropWhile_eq_nil_iff.2 hall]
        rfl
    | cons c rest =>
        have hfront : (before ++ (c :: rest) ++ after).dropWhile isBlank = (c :: rest) ++ after := by
          rw [List.append_assoc, List.dropWhile_append_of_pos hbefore]
          simp [hword c List.mem_cons_self]
        rw [hfront, List.reverse_append, dropWhile_blanks hblanks hreversed, List.reverse_reverse]

end Text

/-! ## Numbers -/

namespace Decimal

/-- Whether the characters are digits of the number, perhaps after a plus sign. -/
def Spells (cs : List Char) (n : Nat) : Prop :=
  ∃ digits, (cs = digits ∨ cs = '+' :: digits) ∧ digits ≠ [] ∧
    (∀ c ∈ digits, c.isDigit = true) ∧ value digits = n

theorem unsigned_eq_some_iff {bound n : Nat} {cs : List Char} :
    unsigned? bound cs = some n ↔ Spells cs n ∧ n < bound := by
  have hdigits : ∀ digits : List Char,
      (if digits.isEmpty ∨ !digits.all Char.isDigit ∨ bound ≤ value digits then none
        else some (value digits)) = some n ↔
        digits ≠ [] ∧ (∀ c ∈ digits, c.isDigit = true) ∧ value digits = n ∧ n < bound := by
    intro digits
    rw [Option.ite_none_left_eq_some]
    simp only [List.isEmpty_iff, Bool.not_eq_eq_eq_not, Bool.not_true, List.all_eq_false, not_or,
      not_exists, not_and, not_not, Nat.not_le, Option.some.injEq]
    constructor
    · rintro ⟨⟨hne, hall, hlt⟩, rfl⟩
      exact ⟨hne, hall, rfl, hlt⟩
    · rintro ⟨hne, hall, rfl, hlt⟩
      exact ⟨⟨hne, hall, hlt⟩, rfl⟩
  unfold unsigned?
  simp only
  split
  · rename_i rest
    rw [hdigits]
    constructor
    · rintro ⟨hne, hall, hvalue, hlt⟩
      exact ⟨⟨rest, Or.inr rfl, hne, hall, hvalue⟩, hlt⟩
    · rintro ⟨⟨digits, hcs | hcs, hne, hall, hvalue⟩, hlt⟩
      · -- A plus sign is no digit, so it is not the first of them.
        have hplus := hall '+' (hcs ▸ List.mem_cons_self)
        exact absurd hplus (by decide)
      · cases hcs
        exact ⟨hne, hall, hvalue, hlt⟩
  · rename_i hunsigned
    rw [hdigits]
    constructor
    · rintro ⟨hne, hall, hvalue, hlt⟩
      exact ⟨⟨cs, Or.inl rfl, hne, hall, hvalue⟩, hlt⟩
    · rintro ⟨⟨digits, rfl | rfl, hne, hall, hvalue⟩, hlt⟩
      · exact ⟨hne, hall, hvalue, hlt⟩
      · exact absurd rfl (hunsigned digits)

theorem Spells.isBlank {cs : List Char} {n : Nat} (h : Spells cs n) :
    ∀ c ∈ cs, Text.isBlank c = false := by
  obtain ⟨digits, hcs, -, hall, -⟩ := h
  have hdigits : ∀ c ∈ digits, Text.isBlank c = false := fun c hc => Time.isBlank_of_isDigit (hall c hc)
  rcases hcs with rfl | rfl
  · exact hdigits
  · exact List.forall_mem_cons.2 ⟨by decide, hdigits⟩

end Decimal

/-! ## Windows -/

namespace Cli

/-- Whether the characters state an hour of the day. -/
def StatesHour (cs : List Char) (hour : Nat) : Prop :=
  (∃ word, Text.Pads cs word ∧ Decimal.Spells word hour) ∧ hour ≤ 23

/-- Whether the text before its first hyphen states the start and the text after it the end. -/
def StatesWindow (window : String) (start stop : Nat) : Prop :=
  ∃ first last, window.toList = first ++ '-' :: last ∧ '-' ∉ first ∧
    StatesHour first start ∧ StatesHour last stop

theorem readHour_eq_ok_iff {cs : List Char} {hour : Nat} :
    readHour cs = .ok hour ↔ StatesHour cs hour := by
  have hspelled : Decimal.unsigned? (2 ^ 32) (Text.trimChars cs) = some hour ↔
      (∃ word, Text.Pads cs word ∧ Decimal.Spells word hour) ∧ hour < 2 ^ 32 := by
    rw [Decimal.unsigned_eq_some_iff]
    apply and_congr_left'
    constructor
    · exact fun h => ⟨_, Text.pads_trimChars cs, h⟩
    · rintro ⟨word, hpads, hspells⟩
      rw [(Text.trimChars_eq_iff hspells.isBlank).2 hpads]
      exact hspells
  unfold readHour StatesHour
  constructor
  · intro h
    split at h
    · cases h
    · rename_i n hn
      split at h
      · rename_i hlt
        cases h
        exact ⟨(hspelled.1 hn).1, Nat.le_of_lt_succ hlt⟩
      · cases h
  · rintro ⟨hword, hle⟩
    rw [hspelled.2 ⟨hword, by omega⟩]
    exact if_pos (Nat.lt_succ_of_le hle)

theorem splitAtHyphen_cons (c : Char) (cs : List Char) :
    splitAtHyphen (c :: cs) =
      if c = '-' then some ([], cs) else (splitAtHyphen cs).map fun parts => (c :: parts.1, parts.2) := by
  unfold splitAtHyphen
  split
  · rename_i hhyphen
    simp [hhyphen]
  · rename_i hne
    simp only [ne_eq, hne, not_false_eq_true, decide_true, List.takeWhile_cons_of_pos,
      List.length_cons, List.drop_succ_cons]
    split <;> simp [*]

theorem splitAtHyphen_eq_some_iff {cs first last : List Char} :
    splitAtHyphen cs = some (first, last) ↔ cs = first ++ '-' :: last ∧ '-' ∉ first := by
  induction cs generalizing first with
  | nil => simp [splitAtHyphen]
  | cons c cs ih =>
      rw [splitAtHyphen_cons]
      split
      · rename_i hhyphen
        subst hhyphen
        cases first with
        | nil => simp [eq_comm]
        | cons d first =>
            simp only [Option.some.injEq, Prod.mk.injEq, reduceCtorEq, false_and, false_iff]
            rintro ⟨hcs, hfirst⟩
            exact hfirst ((List.cons.inj hcs).1 ▸ List.mem_cons_self)
      · rename_i hne
        cases first with
        | nil => simp [hne]
        | cons d first =>
            rw [Option.map_eq_some_iff]
            constructor
            · rintro ⟨⟨first', last'⟩, hsplit, hparts⟩
              cases hparts
              obtain ⟨rfl, hfirst⟩ := ih.1 hsplit
              exact ⟨rfl, by simpa [hfirst] using Ne.symm hne⟩
            · rintro ⟨hcs, hfirst⟩
              obtain ⟨rfl, hrest⟩ := List.cons.inj hcs
              have hfirst' : '-' ∉ first := fun h => hfirst (List.mem_cons_of_mem _ h)
              exact ⟨_, ih.2 ⟨hrest, hfirst'⟩, rfl⟩

theorem bind_eq_ok_iff {ε α β : Type} {x : Except ε α} {f : α → Except ε β} {b : β} :
    (x >>= f) = .ok b ↔ ∃ a, x = .ok a ∧ f a = .ok b := by
  cases x with
  | error e => simp [bind, Except.bind]
  | ok a => simp [bind, Except.bind]

theorem readWindow_eq_ok_iff {window : String} {start stop : Nat} :
    readWindow window = .ok (start, stop) ↔ StatesWindow window start stop := by
  unfold readWindow StatesWindow
  constructor
  · intro h
    split at h
    · cases h
    · rename_i first last hsplit
      simp only [bind_eq_ok_iff, readHour_eq_ok_iff] at h
      obtain ⟨start', hstart, stop', hstop, hboth⟩ := h
      cases hboth
      obtain ⟨hwindow, hfirst⟩ := splitAtHyphen_eq_some_iff.1 hsplit
      exact ⟨first, last, hwindow, hfirst, hstart, hstop⟩
  · rintro ⟨first, last, hwindow, hfirst, hstart, hstop⟩
    rw [splitAtHyphen_eq_some_iff.2 ⟨hwindow, hfirst⟩]
    simp only [bind_eq_ok_iff, readHour_eq_ok_iff]
    exact ⟨start, hstart, stop, hstop, rfl⟩

/-! ## Sources -/

/-- Whether the text is the name of the source, in any case and with blanks around it. -/
def Names (s : String) (source : ScheduleSource) : Prop :=
  ∃ word, Text.Pads s.toList word ∧ word.map Char.toLower = source.name.toList

/-- Whether the text stands for the source: it names it, or it names none. -/
def StatesSource (s : String) (source : ScheduleSource) : Prop :=
  Names s source ∨ source = .other ∧ ∀ named, ¬Names s named

theorem toLower_of_isBlank {c : Char} (hc : Text.isBlank c = true) : c.toLower = c := by
  have hcase : ¬(c.val ≥ 'A'.val ∧ c.val ≤ 'Z'.val) := by
    rintro ⟨hlow, hhigh⟩
    have hlow' : 65 ≤ c.toNat := UInt32.le_iff_toNat_le.1 hlow
    have hhigh' : c.toNat ≤ 90 := UInt32.le_iff_toNat_le.1 hhigh
    simp only [Text.isBlank, Text.inRanges, Text.blankRanges, List.any_cons, List.any_nil,
      Bool.or_false, Bool.or_eq_true, Bool.and_eq_true, decide_eq_true_eq] at hc
    omega
  exact dif_neg hcase

theorem isBlank_of_toLower {word : List Char} {source : ScheduleSource}
    (hword : word.map Char.toLower = source.name.toList) : ∀ c ∈ word, Text.isBlank c = false := by
  have hname : (source.name.toList.all fun c => !Text.isBlank c) = true := by
    cases source <;> decide
  rw [List.all_eq_true] at hname
  intro c hc
  by_contra hblank
  rw [Bool.not_eq_false] at hblank
  have hmem := List.mem_map_of_mem (f := Char.toLower) hc
  rw [toLower_of_isBlank hblank, hword] at hmem
  have hvisible := hname c hmem
  rw [hblank] at hvisible
  cases hvisible

theorem names_iff {s : String} {source : ScheduleSource} :
    Names s source ↔
      String.ofList ((Text.trimChars s.toList).map Char.toLower) = source.name := by
  constructor
  · rintro ⟨word, hpads, hword⟩
    rw [(Text.trimChars_eq_iff (isBlank_of_toLower hword)).2 hpads, hword, String.ofList_toList]
  · intro h
    refine ⟨_, Text.pads_trimChars _, ?_⟩
    rw [← h, String.toList_ofList]

theorem statesSource_readSource (s : String) : StatesSource s (readSource s) := by
  unfold StatesSource
  simp only [names_iff]
  unfold readSource
  generalize String.ofList ((Text.trimChars s.toList).map Char.toLower) = name
  by_cases hnamed : ∃ source : ScheduleSource, name = source.name
  · obtain ⟨source, rfl⟩ := hnamed
    rw [Schedule.ofName_name]
    exact Or.inl rfl
  · rw [not_exists] at hnamed
    have hrobot : name ≠ "robot" := hnamed .robot
    have htrigger : name ≠ "trigger" := hnamed .trigger
    have hchat : name ≠ "chat" := hnamed .chat
    have hother : ScheduleSource.ofName name = .other := by
      simp [ScheduleSource.ofName, hrobot, htrigger, hchat]
    exact Or.inr ⟨hother, hnamed⟩

theorem readSource_eq_iff {s : String} {source : ScheduleSource} :
    readSource s = source ↔ StatesSource s source := by
  constructor
  · rintro rfl
    exact statesSource_readSource s
  · rintro (hnamed | ⟨rfl, hnone⟩)
    · unfold readSource
      rw [names_iff.1 hnamed, Schedule.ofName_name]
    · rcases statesSource_readSource s with hnamed | ⟨hother, -⟩
      · exact absurd hnamed (hnone _)
      · exact hother

/-- The schedule that stands for a typed window. -/
def typedSchedule (source : Option ScheduleSource) (start stop : Nat) : Schedule :=
  ⟨source, start, stop, false, none, none⟩

theorem StatesWindow.writable {window : String} {start stop : Nat}
    (h : StatesWindow window start stop) (source : Option ScheduleSource) :
    (typedSchedule source start stop).Writable := by
  obtain ⟨-, -, -, -, ⟨-, hstart⟩, -, hstop⟩ := h
  refine ⟨Nat.lt_of_le_of_lt hstart (by decide), Nat.lt_of_le_of_lt hstop (by decide), ?_⟩
  rintro t ⟨⟩

theorem scheduleOf_eq_ok_iff {window : String} {source : Option String} {s : Schedule} :
    scheduleOf window source = .ok s ↔ ∃ start stop, StatesWindow window start stop ∧
      s = typedSchedule (source.map readSource) start stop := by
  unfold scheduleOf
  simp only [bind_eq_ok_iff, Prod.exists, readWindow_eq_ok_iff]
  refine exists₂_congr fun start stop => and_congr_right' ?_
  cases source with
  | none => exact ⟨fun h => (Except.ok.inj h).symm, fun h => congrArg Except.ok h.symm⟩
  | some text => exact ⟨fun h => (Except.ok.inj h).symm, fun h => congrArg Except.ok h.symm⟩

end Cli

end TaskQueue
