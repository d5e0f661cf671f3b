import Mathlib.Tactic
import TaskQueue.Proofs.Replacement

/-!
# The forms of an expression

A name stands for the value of its variable, with a default for that or the default, and with a
message for that or a failure with the whole message.  The last form means this for exactly those
messages in which no colon is followed by a hyphen.  Any other message is taken apart there: the
expression then has a default, and a name that nobody meant.
-/

namespace TaskQueue.Config

variable {mark : Char} {name text body before after : List Char}

/-! ## Where an expression is split -/

theorem splitAtMark_cons {a : Char} (h : ¬[':', mark] <+: a :: text) :
    splitAtMark mark (a :: text) =
      (splitAtMark mark text).map fun (before, after) => (a :: before, after) := by
  cases text with
  | nil => rfl
  | cons b text =>
      have hmark : ¬(a = ':' ∧ b = mark) := by
        rintro ⟨rfl, rfl⟩
        exact h (List.prefix_append [':', b] text)
      rw [splitAtMark, if_neg hmark]

theorem splitAtMark_eq_none_iff : splitAtMark mark text = none ↔ ¬[':', mark] <:+: text := by
  induction text with
  | nil => simp [splitAtMark]
  | cons a text ih =>
      rw [List.infix_cons_iff, not_or, ← ih]
      by_cases h : [':', mark] <+: a :: text
      · obtain ⟨rest, hrest⟩ := h
        rw [← hrest]
        simp [splitAtMark]
      · rw [splitAtMark_cons h, Option.map_eq_none_iff]
        exact (and_iff_right h).symm

/-- The first mark counts. -/
theorem splitAtMark_mark (hmark : mark ≠ ':') (h : ¬[':', mark] <:+: before) (after : List Char) :
    splitAtMark mark (before ++ ':' :: mark :: after) = some (before, after) := by
  induction before with
  | nil => simp [splitAtMark]
  | cons a before ih =>
      have hrest : ¬[':', mark] <:+: before := fun hwithin =>
        h (List.infix_cons hwithin)
      have hnone : ¬[':', mark] <+: a :: (before ++ ':' :: mark :: after) := by
        intro hprefix
        obtain ⟨rfl, hopen⟩ := List.cons_prefix_cons.1 hprefix
        cases before with
        | nil => exact hmark (List.cons_prefix_cons.1 hopen).1
        | cons b before =>
            obtain ⟨rfl, -⟩ := List.cons_prefix_cons.1 hopen
            exact h (List.prefix_append [':', mark] before).isInfix
      rw [List.cons_append, splitAtMark_cons hnone, ih hrest]
      rfl

theorem splitAtMark_append (h : ':' ∉ before) (text : List Char) :
    splitAtMark mark (before ++ text) =
      (splitAtMark mark text).map fun (first, after) => (before ++ first, after) := by
  induction before with
  | nil => simp
  | cons a before ih =>
      rw [List.mem_cons, not_or] at h
      have hnone : ¬[':', mark] <+: a :: (before ++ text) := fun hprefix =>
        h.1 (List.cons_prefix_cons.1 hprefix).1
      rw [List.cons_append, splitAtMark_cons hnone, ih h.2, Option.map_map]
      rfl

theorem not_infix_of_not_mem (h : ':' ∉ name) (mark : Char) : ¬[':', mark] <:+: name :=
  fun hwithin => h (hwithin.subset List.mem_cons_self)

namespace Expression

theorem ofChars_name (hname : ':' ∉ name) : ofChars name = .plain name := by
  have hnone (mark : Char) : splitAtMark mark name = none :=
    splitAtMark_eq_none_iff.2 (not_infix_of_not_mem hname mark)
  simp [ofChars, hnone]

theorem ofChars_default (hname : ':' ∉ name) (text : List Char) :
    ofChars (name ++ ':' :: '-' :: text) = .withDefault name text := by
  have hsplit := splitAtMark_mark (by decide) (not_infix_of_not_mem hname '-') text
  simp [ofChars, hsplit]

/-- A default within the message comes first. -/
theorem ofChars_message (hname : ':' ∉ name) (text : List Char) :
    ofChars (name ++ ':' :: '?' :: text) =
      match splitAtMark '-' text with
      | some (before, after) => .withDefault (name ++ ':' :: '?' :: before) after
      | none => .withMessage name text := by
  have hmessage := splitAtMark_mark (by decide) (not_infix_of_not_mem hname '?') text
  have hdefault : splitAtMark '-' (name ++ ':' :: '?' :: text) =
      (splitAtMark '-' text).map fun (before, after) => (name ++ ':' :: '?' :: before, after) := by
    have hquestion : ¬[':', '-'] <+: '?' :: text := fun h =>
      absurd (List.cons_prefix_cons.1 h).1 (by decide)
    have hcolon : ¬[':', '-'] <+: ':' :: '?' :: text := fun h =>
      absurd (List.cons_prefix_cons.1 (List.cons_prefix_cons.1 h).2).1 (by decide)
    rw [splitAtMark_append hname, splitAtMark_cons hcolon, splitAtMark_cons hquestion,
      Option.map_map, Option.map_map]
    rfl
  unfold ofChars
  rw [hdefault]
  cases splitAtMark '-' text with
  | none => simp [hmessage]
  | some split => rfl

end Expression

/-! ## What a text with one expression becomes -/

theorem substituteChars_marked (env : Environment) (hbody : IsBody body) :
    substituteChars env (marked body) = (Expression.ofChars body).value env := by
  have hbodies : bodies 0 (marked body) = [body] := by
    have h := bodies_marked hbody []
    rwa [List.append_nil] at h
  have hreplace (v : List Char) : replaceAll (marked body) v 0 (marked body) = v := by
    have h := replaceAll_marked body v []
    rwa [List.append_nil, replaceAll_nil, List.append_nil] at h
  unfold substituteChars
  rw [hbodies, List.foldlM_cons]
  simp only [hreplace, List.foldlM_nil]
  cases (Expression.ofChars body).value env <;> rfl

/-- The value of a variable, or what is there for the case that it is not set. -/
def valueOr (env : Environment) (name : String) (otherwise : Except String String) :
    Except String String :=
  match env.get? name with
  | some v => .ok v
  | none => otherwise

/-- What is documented of a name with a message. -/
def required (env : Environment) (name text : String) : Except String String :=
  valueOr env name (.error s!"Required environment variable '{name}' is not set: {text}")

namespace Expression

theorem value_plain (env : Environment) (name : List Char) :
    ((plain name).value env).map String.ofList = valueOr env (String.ofList name)
      (.error s!"Required environment variable '{String.ofList name}' is not set") := by
  simp only [value, valueOr]
  cases env.get? (String.ofList name) with
  | none => rfl
  | some v => simp [Except.map]

theorem value_withDefault (env : Environment) (name default : List Char) :
    ((withDefault name default).value env).map String.ofList =
      valueOr env (String.ofList name) (.ok (String.ofList default)) := by
  simp only [value, valueOr]
  cases env.get? (String.ofList name) with
  | none => rfl
  | some v => simp [Except.map]

theorem value_withMessage (env : Environment) (name message : List Char) :
    ((withMessage name message).value env).map String.ofList =
      required env (String.ofList name) (String.ofList message) := by
  simp only [value, required, valueOr]
  cases env.get? (String.ofList name) with
  | none => rfl
  | some v => simp [Except.map]

end Expression

section Forms

variable {name text : String}

theorem substitute_marked (env : Environment) (h : text.toList = marked body)
    (hbody : IsBody body) :
    substitute env text = ((Expression.ofChars body).value env).map String.ofList := by
  rw [substitute, h, substituteChars_marked env hbody]

theorem isBody_append (hname : name ≠ "") (hbrace : '\x7d' ∉ name.toList) {rest : List Char}
    (hrest : '\x7d' ∉ rest) : IsBody (name.toList ++ rest) := by
  constructor
  · simp [hname]
  · simp [hbrace, hrest]

theorem substitute_name (hname : name ≠ "") (hcolon : ':' ∉ name.toList)
    (hbrace : '\x7d' ∉ name.toList) (env : Environment) :
    substitute env ("$\x7b" ++ name ++ "\x7d") =
      valueOr env name (.error s!"Required environment variable '{name}' is not set") := by
  have hchars : ("$\x7b" ++ name ++ "\x7d").toList = marked name.toList := by
    simp [String.toList_append, marked_eq]
  have hbody : IsBody name.toList := ⟨by simpa using hname, hbrace⟩
  rw [substitute_marked env hchars hbody, Expression.ofChars_name hcolon, Expression.value_plain,
    String.ofList_toList]

theorem substitute_default (hname : name ≠ "") (hcolon : ':' ∉ name.toList)
    (hbrace : '\x7d' ∉ name.toList) (htext : '\x7d' ∉ text.toList) (env : Environment) :
    substitute env ("$\x7b" ++ name ++ ":-" ++ text ++ "\x7d") = valueOr env name (.ok text) := by
  have hchars : ("$\x7b" ++ name ++ ":-" ++ text ++ "\x7d").toList =
      marked (name.toList ++ ':' :: '-' :: text.toList) := by
    simp [String.toList_append, marked_eq]
  have hrest : '\x7d' ∉ ':' :: '-' :: text.toList := by simp [htext]
  have hbody := isBody_append hname hbrace hrest
  rw [substitute_marked env hchars hbody, Expression.ofChars_default hcolon,
    Expression.value_withDefault, String.ofList_toList, String.ofList_toList]

theorem substitute_message (hname : name ≠ "") (hcolon : ':' ∉ name.toList)
    (hbrace : '\x7d' ∉ name.toList) (htext : '\x7d' ∉ text.toList) (env : Environment) :
    substitute env ("$\x7b" ++ name ++ ":?" ++ text ++ "\x7d") =
      match splitAtMark '-' text.toList with
      | some (before, after) =>
          valueOr env (name ++ ":?" ++ String.ofList before) (.ok (String.ofList after))
      | none => required env name text := by
  have hchars : ("$\x7b" ++ name ++ ":?" ++ text ++ "\x7d").toList =
      marked (name.toList ++ ':' :: '?' :: text.toList) := by
    simp [String.toList_append, marked_eq]
  have hrest : '\x7d' ∉ ':' :: '?' :: text.toList := by simp [htext]
  have hbody := isBody_append hname hbrace hrest
  rw [substitute_marked env hchars hbody, Expression.ofChars_message hcolon]
  cases splitAtMark '-' text.toList with
  | none =>
      show ((Expression.withMessage name.toList text.toList).value env).map String.ofList = _
      rw [Expression.value_withMessage, String.ofList_toList, String.ofList_toList]
  | some split =>
      have hlonger : String.ofList (name.toList ++ ':' :: '?' :: split.1) =
          name ++ ":?" ++ String.ofList split.1 := by
        apply String.toList_inj.1
        simp [String.toList_append]
      show ((Expression.withDefault (name.toList ++ ':' :: '?' :: split.1) split.2).value env).map
        String.ofList = _
      rw [Expression.value_withDefault, hlonger]

/-- A name and a name with a default mean what is documented, whatever the default.  A name with a
message means it in all environments exactly if no default begins within the message; else the
expression never fails for want of the variable, and gives what follows the first such beginning
unless a variable with the longer name is set. -/
theorem forms_mean_iff (hname : name ≠ "") (hcolon : ':' ∉ name.toList)
    (hbrace : '\x7d' ∉ name.toList) (htext : '\x7d' ∉ text.toList) :
    (∀ env, substitute env ("$\x7b" ++ name ++ "\x7d") =
        valueOr env name (.error s!"Required environment variable '{name}' is not set")) ∧
      (∀ env, substitute env ("$\x7b" ++ name ++ ":-" ++ text ++ "\x7d") =
        valueOr env name (.ok text)) ∧
      ((∀ env, substitute env ("$\x7b" ++ name ++ ":?" ++ text ++ "\x7d") =
        required env name text) ↔ ¬[':', '-'] <:+: text.toList) ∧
      ∀ before after, text = before ++ ":-" ++ after → ¬[':', '-'] <:+: before.toList →
        ∀ env, substitute env ("$\x7b" ++ name ++ ":?" ++ text ++ "\x7d") =
          valueOr env (name ++ ":?" ++ before) (.ok after) := by
  refine ⟨substitute_name hname hcolon hbrace, substitute_default hname hcolon hbrace htext,
    ⟨fun h hwithin => ?_, fun h env => ?_⟩, fun before after hsplit hfirst env => ?_⟩
  · -- where no variable is set, the message calls for a failure, but there is a default
    cases hsplit : splitAtMark '-' text.toList with
    | none => exact splitAtMark_eq_none_iff.1 hsplit hwithin
    | some split =>
        have hempty := (substitute_message hname hcolon hbrace htext []).symm.trans (h [])
        simp [hsplit, required, valueOr, Environment.get?] at hempty
  · have hnone : splitAtMark '-' text.toList = none := splitAtMark_eq_none_iff.2 h
    rw [substitute_message hname hcolon hbrace htext, hnone]
  · have hchars : text.toList = before.toList ++ ':' :: '-' :: after.toList := by
      rw [hsplit]
      simp [String.toList_append]
    have hsome : splitAtMark '-' text.toList = some (before.toList, after.toList) := by
      rw [hchars]
      exact splitAtMark_mark (by decide) hfirst after.toList
    rw [substitute_message hname hcolon hbrace htext, hsome]
    simp only [String.ofList_toList]

/-- A message with a colon, which is not followed by a hyphen. -/
theorem forms_mean_message :
    ¬[':', '-'] <:+: "set it: a - b".toList ∧
      substitute [] "$\x7bA:?set it: a - b\x7d" =
        .error "Required environment variable 'A' is not set: set it: a - b" := by
  have hplain : ¬[':', '-'] <:+: "set it: a - b".toList := by decide
  have hname : "A" ≠ "" := by decide
  have htext : '\x7d' ∉ "set it: a - b".toList := by decide
  have hforms := forms_mean_iff hname (by decide) (by decide) htext
  exact ⟨hplain, hforms.2.2.1.2 hplain []⟩

/-- A message with a default in it: nothing fails, and the value of the variable is not taken. -/
theorem not_forms_mean_message :
    substitute [] "$\x7bA:?use :- here\x7d" = .ok " here" ∧
      required [] "A" "use :- here" =
        .error "Required environment variable 'A' is not set: use :- here" ∧
      substitute [("A", "v")] "$\x7bA:?use :- here\x7d" = .ok " here" ∧
      required [("A", "v")] "A" "use :- here" = .ok "v" :=
  ⟨rfl, rfl, rfl, rfl⟩

end Forms

end TaskQueue.Config
