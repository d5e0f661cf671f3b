import Mathlib.Tactic
import TaskQueue.Proofs.Replacement

/-!
# Expressions replaced in turn

The expressions are those of the text as it is at first, but each of them is replaced wherever it
occurs when its turn has come.  A value, a value with its neighbours, or the body of another
expression can bring in more occurrences.  Each turn replaces the expressions it is meant for and
nothing else exactly if no turn meets an additional occurrence, or replaces an expression by itself;
the result is then the text with all expressions replaced at once.
-/

namespace TaskQueue.Config

variable {body text rest v : List Char} {parts : List Part} {value : List Char → List Char}
  {done order : List (List Char)}

/-! ## Some of the expressions replaced -/

/-- A text with a number of chosen occurrences of an expression, and what it is with these
replaced. -/
inductive Chosen (body v : List Char) : List Char → List Char → Nat → Prop
  | none (text : List Char) : Chosen body v text text 0
  | step (before : List Char) {text replaced : List Char} {n : Nat} :
      Chosen body v text replaced n →
        Chosen body v (before ++ (marked body ++ text)) (before ++ (v ++ replaced)) (n + 1)

namespace Chosen

variable {replaced : List Char} {n : Nat}

theorem prepend (h : Chosen body v text replaced n) (before : List Char) :
    Chosen body v (before ++ text) (before ++ replaced) n := by
  cases h with
  | none => exact .none _
  | step first h =>
      have hstep := Chosen.step (before ++ first) h
      rwa [List.append_assoc, List.append_assoc] at hstep

theorem le_occurrences (hbody : '\x7d' ∉ body) (h : Chosen body v text replaced n) :
    n ≤ occurrences (marked body) text := by
  induction h with
  | none => exact Nat.zero_le _
  | step before h ih =>
      rw [occurrences_append_marked hbody]
      omega

theorem length (h : Chosen body v text replaced n) :
    replaced.length + n * (marked body).length = text.length + n * v.length := by
  induction h with
  | none => simp
  | step before h ih =>
      simp only [List.length_append, Nat.succ_mul]
      omega

/-- All occurrences are replaced by the chosen ones if there are no others. -/
theorem replaceAll_eq_iff (hbody : '\x7d' ∉ body) (h : Chosen body v text replaced n) :
    replaceAll (marked body) v 0 text = replaced ↔
      v = marked body ∨ occurrences (marked body) text = n := by
  induction h with
  | none => exact replaceAll_eq_self_iff hbody
  | @step before text replaced n h ih =>
      rw [replaceAll_append_marked hbody, occurrences_append_marked hbody]
      have hle := h.le_occurrences hbody
      constructor
      · intro heq
        -- what is left out of the count makes a difference in length, unless all lengths are equal
        have hbefore := length_replaceAll hbody v before
        have hafter := length_replaceAll hbody v text
        have hchosen := h.length
        have htotal := congrArg List.length heq
        simp only [List.length_append] at htotal
        obtain ⟨k, hk⟩ := Nat.exists_eq_add_of_le hle
        rw [hk, Nat.add_mul, Nat.add_mul] at hafter
        have hothers : (occurrences (marked body) before + k) * (marked body).length =
            (occurrences (marked body) before + k) * v.length := by
          rw [Nat.add_mul, Nat.add_mul]
          omega
        rcases Nat.eq_zero_or_pos (occurrences (marked body) before + k) with hzero | hpos
        · right
          omega
        · have hsame : (marked body).length = v.length := Nat.eq_of_mul_eq_mul_left hpos hothers
          rw [hsame] at hbefore
          have hkept : replaceAll (marked body) v 0 before = before :=
            List.append_inj_left heq (by omega)
          rcases (replaceAll_eq_self_iff hbody).1 hkept with hv | hnone
          · exact Or.inl hv
          · rw [hkept, List.append_cancel_left_eq, List.append_cancel_left_eq] at heq
            rcases ih.1 heq with hv | hcount
            · exact Or.inl hv
            · right
              omega
      · intro hcount
        have hbefore : replaceAll (marked body) v 0 before = before :=
          (replaceAll_eq_self_iff hbody).2 (hcount.imp_right fun h => by omega)
        have hafter : replaceAll (marked body) v 0 text = replaced :=
          ih.2 (hcount.imp_right fun h => by omega)
        rw [hbefore, hafter]

end Chosen

/-! ## The texts between the steps -/

/-- A part once the expressions with the given bodies are replaced. -/
def Part.shown (value : List Char → List Char) (done : List (List Char)) : Part → List Char
  | .plain c => [c]
  | .expression body => if body ∈ done then value body else marked body

/-- A text in which the expressions with the given bodies are replaced, and nothing else. -/
def shown (value : List Char → List Char) (done : List (List Char)) (parts : List Part) :
    List Char :=
  parts.flatMap (Part.shown value done)

/-- A text with all its expressions replaced. -/
def filled (value : List Char → List Char) (parts : List Part) : List Char :=
  parts.flatMap fun
    | .plain c => [c]
    | .expression body => value body

/-- How many expressions with this body are still to be replaced. -/
def pending (done : List (List Char)) (body : List Char) (parts : List Part) : Nat :=
  if body ∈ done then 0 else (expressions parts).count body

theorem shown_nil_of_cut (h : Cut text parts) : shown value [] parts = text := by
  induction h with
  | nil => rfl
  | expression hbody hcut ih =>
      show marked _ ++ shown value [] _ = _
      rw [ih]
  | plain hplain hcut ih =>
      show _ :: shown value [] _ = _
      rw [ih]

theorem shown_of_subset (h : expressions parts ⊆ done) :
    shown value done parts = filled value parts := by
  induction parts with
  | nil => rfl
  | cons part parts ih =>
      cases part with
      | plain c =>
          show c :: shown value done parts = c :: filled value parts
          rw [ih h]
      | expression body =>
          obtain ⟨hmem, hsubset⟩ := List.cons_subset.1 h
          show (if body ∈ done then value body else marked body) ++ shown value done parts =
            value body ++ filled value parts
          rw [if_pos hmem, ih hsubset]

theorem pending_self (h : body ∉ done) (parts : List Part) :
    pending done body (.expression body :: parts) = pending done body parts + 1 := by
  simp [pending, h]

theorem pending_other {other : List Char} (h : other ∉ done → other ≠ body) (parts : List Part) :
    pending done body (.expression other :: parts) = pending done body parts := by
  unfold pending
  split
  · rfl
  · rename_i hbody
    have hne : other ≠ body := by
      by_cases hother : other ∈ done
      · exact fun heq => hbody (heq ▸ hother)
      · exact h hother
    rw [expressions_expression, List.count_cons_of_ne hne]

/-- From one text to the next, the expressions that are pending are replaced. -/
theorem chosen_shown (value : List Char → List Char) (done : List (List Char)) (body : List Char)
    (parts : List Part) :
    Chosen body (value body) (shown value done parts) (shown value (done ++ [body]) parts)
      (pending done body parts) := by
  induction parts with
  | nil =>
      have hzero : pending done body [] = 0 := by simp [pending, expressions]
      rw [hzero]
      exact .none []
  | cons part parts ih =>
      cases part with
      | plain c => exact ih.prepend [c]
      | expression other =>
          show Chosen body (value body)
            ((if other ∈ done then value other else marked other) ++ shown value done parts)
            ((if other ∈ done ++ [body] then value other else marked other) ++
              shown value (done ++ [body]) parts) _
          by_cases hdone : other ∈ done
          · rw [if_pos hdone, if_pos (List.mem_append_left _ hdone),
              pending_other fun hnot => absurd hdone hnot]
            exact ih.prepend _
          · rw [if_neg hdone]
            by_cases hself : other = body
            · subst hself
              rw [if_pos (by simp), pending_self hdone]
              exact .step [] ih
            · rw [if_neg (by simp [hdone, hself]), pending_other fun _ => hself]
              exact ih.prepend _

/-! ## The loop -/

/-- Replaces expressions one after the other, each wherever it occurs by then. -/
def replaceInTurn (value : List Char → List Char) (order : List (List Char)) (text : List Char) :
    List Char :=
  order.foldl (fun text body => replaceAll (marked body) (value body) 0 text) text

/-- Each step meets its expression only where the text has it. -/
def Undisturbed (value : List Char → List Char) (order : List (List Char)) (parts : List Part) :
    Prop :=
  ∀ done body, done ++ [body] <+: order →
    value body = marked body ∨
      occurrences (marked body) (shown value done parts) = pending done body parts

theorem replaceInTurn_concat (value : List Char → List Char) (done : List (List Char))
    (body text : List Char) :
    replaceInTurn value (done ++ [body]) text =
      replaceAll (marked body) (value body) 0 (replaceInTurn value done text) := by
  simp [replaceInTurn]

theorem in_turn_iff (hcut : Cut text parts) (horder : ∀ body ∈ order, '\x7d' ∉ body) :
    (∀ done, done <+: order → replaceInTurn value done text = shown value done parts) ↔
      Undisturbed value order parts := by
  constructor
  · intro h done body hnext
    have hdone : done <+: order := (List.prefix_append _ _).trans hnext
    have hbody : '\x7d' ∉ body := horder body (hnext.subset (by simp))
    rw [← (chosen_shown value done body parts).replaceAll_eq_iff hbody, ← h done hdone,
      ← h _ hnext, replaceInTurn_concat]
  · intro h done
    induction done using List.reverseRecOn with
    | nil => exact fun _ => (shown_nil_of_cut hcut).symm
    | append_singleton done body ih =>
        intro hnext
        have hdone : done <+: order := (List.prefix_append _ _).trans hnext
        have hbody : '\x7d' ∉ body := horder body (hnext.subset (by simp))
        rw [replaceInTurn_concat, ih hdone]
        exact ((chosen_shown value done body parts).replaceAll_eq_iff hbody).2 (h done body hnext)

/-! ## Texts in which nothing new comes up -/

/-- A text that does not open an expression, even if a brace follows. -/
def Quiet (text : List Char) : Prop :=
  ¬['$', '\x7b'] <:+: text ++ ['\x7b']

theorem occurrences_quiet (htext : Quiet text) (rest : List Char) :
    occurrences (marked body) (text ++ rest) = occurrences (marked body) rest := by
  induction text with
  | nil => rfl
  | cons c text ih =>
      have hquiet : Quiet text := fun h => htext (List.infix_cons h)
      have hnone : ¬marked body <+: c :: (text ++ rest) := by
        intro h
        obtain ⟨rfl, hopen⟩ := List.cons_prefix_cons.1 h
        cases text with
        | nil => exact htext List.infix_rfl
        | cons d text =>
            obtain ⟨rfl, -⟩ := List.cons_prefix_cons.1 hopen
            exact htext (List.prefix_append ['$', '\x7b'] _).isInfix
      rw [List.cons_append, occurrences_cons, if_neg hnone, Nat.add_zero, ih hquiet]

/-- No value opens an expression, no expression is within another one, and no dollar sign stands
right before an expression. -/
structure Clear (value : List Char → List Char) (parts : List Part) : Prop where
  values : ∀ body ∈ expressions parts, Quiet (value body)
  bodies : ∀ body ∈ expressions parts, ¬['$', '\x7b'] <:+: body
  plain : ∀ body, ¬[.plain '$', .expression body] <:+: parts

theorem Clear.tail {part : Part} (h : Clear value (part :: parts)) : Clear value parts := by
  have hsubset : expressions parts ⊆ expressions (part :: parts) := by
    cases part with
    | plain c => exact fun _ => id
    | expression body => exact List.subset_cons_self _ _
  exact ⟨fun body hmem => h.values body (hsubset hmem),
    fun body hmem => h.bodies body (hsubset hmem),
    fun body hwithin => h.plain body (List.infix_cons hwithin)⟩

theorem quiet_body (hbody : ¬['$', '\x7b'] <:+: body) : Quiet ('\x7b' :: (body ++ ['\x7d'])) := by
  have hquiet : ¬['$', '\x7b'] <:+: body ++ ['\x7d', '\x7b'] := by
    induction body with
    | nil => decide
    | cons c body ih =>
        intro h
        rcases List.infix_cons_iff.1 h with h | h
        · obtain ⟨rfl, hopen⟩ := List.cons_prefix_cons.1 h
          cases body with
          | nil => exact absurd hopen (by decide)
          | cons d body =>
              obtain ⟨rfl, -⟩ := List.cons_prefix_cons.1 hopen
              exact hbody (List.prefix_append ['$', '\x7b'] _).isInfix
        · exact ih (fun hwithin => hbody (List.infix_cons hwithin)) h
  intro h
  rcases List.infix_cons_iff.1 h with h | h
  · exact absurd (List.cons_prefix_cons.1 h).1 (by decide)
  · have hsplit : (body ++ ['\x7d']) ++ ['\x7b'] = body ++ ['\x7d', '\x7b'] := by simp
    exact hquiet (hsplit ▸ h)

theorem shown_of_brace_not_mem (hcut : Cut text parts) (hbrace : '\x7d' ∉ text) :
    shown value done parts = text := by
  induction hcut with
  | nil => rfl
  | expression hbody hcut ih => exact absurd (by simp [marked_eq]) hbrace
  | plain hplain hcut ih =>
      show _ :: shown value done _ = _
      rw [ih fun hmem => hbrace (List.mem_cons_of_mem _ hmem)]

theorem Cut.plain_of_brace (hcut : Cut text parts) (htext : text = '\x7d' :: rest) :
    ∃ parts', parts = .plain '\x7d' :: parts' := by
  cases hcut with
  | nil => cases htext
  | expression hbody hcut => exact absurd (List.cons.inj htext).1 (by decide)
  | plain hplain hcut =>
      rw [(List.cons.inj htext).1]
      exact ⟨_, rfl⟩

/-- A dollar sign outside the expressions opens none, as long as none stands right behind it. -/
theorem not_prefix_plain {c : Char} (hbody : IsBody body)
    (hplain : ∀ body rest, IsBody body → c :: text ≠ marked body ++ rest) (hcut : Cut text parts)
    (hclear : Clear value (.plain c :: parts)) :
    ¬marked body <+: c :: shown value done parts := by
  intro h
  obtain ⟨rfl, hopen⟩ := List.cons_prefix_cons.1 h
  cases hcut with
  | nil => exact absurd (List.prefix_nil.1 hopen) (List.cons_ne_nil _ _)
  | expression hother hcut => exact hclear.plain _ (List.prefix_append [_, _] _).isInfix
  | @plain c text parts _ hcut =>
      obtain ⟨rfl, hrest⟩ := List.cons_prefix_cons.1 hopen
      -- a closing brace further on would have ended an expression here in the text itself
      by_cases hbrace : '\x7d' ∈ text
      · obtain ⟨start, rest, htext, hstart⟩ := List.eq_append_cons_of_mem hbrace
        by_cases hempty : start = []
        · rw [hempty, List.nil_append] at htext
          obtain ⟨parts', rfl⟩ := hcut.plain_of_brace htext
          obtain ⟨hne, hinner⟩ := hbody
          obtain ⟨c, body, rfl⟩ := List.exists_cons_of_ne_nil hne
          exact hinner ((List.cons_prefix_cons.1 hrest).1 ▸ List.mem_cons_self)
        · exact hplain start rest ⟨hempty, hstart⟩ (by simp [htext, marked_eq])
      · have hmem : '\x7d' ∈ text := by
          rw [← shown_of_brace_not_mem hcut hbrace]
          exact hrest.subset (by simp)
        exact hbrace hmem

theorem occurrences_shown (hcut : Cut text parts) (hclear : Clear value parts)
    (hbody : IsBody body) :
    occurrences (marked body) (shown value done parts) = pending done body parts := by
  induction hcut with
  | nil => simp [shown, pending, expressions]
  | @plain c text parts hplain hcut ih =>
      have hnone : ¬marked body <+: c :: shown value done parts :=
        not_prefix_plain hbody hplain hcut hclear
      show occurrences (marked body) (c :: shown value done parts) = pending done body parts
      rw [occurrences_cons, if_neg hnone, Nat.add_zero, ih hclear.tail]
  | @expression other text parts hother hcut ih =>
      show occurrences (marked body)
        ((if other ∈ done then value other else marked other) ++ shown value done parts) = _
      by_cases hdone : other ∈ done
      · rw [if_pos hdone, occurrences_quiet (hclear.values other (by simp)), ih hclear.tail,
          pending_other fun hnot => absurd hdone hnot]
      · rw [if_neg hdone]
        by_cases hself : other = body
        · subst hself
          rw [occurrences_marked hbody.2, ih hclear.tail, pending_self hdone]
        · have hnone : ¬marked body <+:
              '$' :: ('\x7b' :: (other ++ ['\x7d']) ++ shown value done parts) := by
            rintro ⟨rest, hrest⟩
            exact hself (marked_append_inj hbody.2 hother.2 hrest).1.symm
          rw [pending_other fun _ => hself, ← ih hclear.tail]
          show occurrences (marked body)
            ('$' :: ('\x7b' :: (other ++ ['\x7d']) ++ shown value done parts)) = _
          rw [occurrences_cons, if_neg hnone, Nat.add_zero,
            occurrences_quiet (quiet_body (hclear.bodies other (by simp)))]

theorem undisturbed_of_clear (hcut : Cut text parts) (hclear : Clear value parts)
    (horder : ∀ body ∈ order, IsBody body) : Undisturbed value order parts :=
  fun _ body hnext => Or.inr (occurrences_shown hcut hclear (horder body (hnext.subset (by simp))))

/-! ## Substitution -/

/-- The values that the expressions have in an environment that lacks none. -/
def Values (env : Environment) (value : List Char → List Char) (bodies : List (List Char)) : Prop :=
  ∀ body ∈ bodies, (Expression.ofChars body).value env = .ok (value body)

/-- The message is that of the first expression which has no value. -/
inductive FirstLacking (env : Environment) (message : String) : List (List Char) → Prop
  | here {body : List Char} {bodies : List (List Char)} :
      (Expression.ofChars body).value env = .error message →
        FirstLacking env message (body :: bodies)
  | later {body v : List Char} {bodies : List (List Char)} :
      (Expression.ofChars body).value env = .ok v → FirstLacking env message bodies →
        FirstLacking env message (body :: bodies)

/-- One step of the substitution. -/
def substituteOne (env : Environment) (text body : List Char) : Except String (List Char) :=
  ((Expression.ofChars body).value env).map fun v => replaceAll (marked body) v 0 text

theorem substituteChars_eq_of_cut (env : Environment) (hcut : Cut text parts) :
    substituteChars env text = (expressions parts).foldlM (substituteOne env) text := by
  rw [← bodies_of_cut hcut]
  rfl

theorem foldlM_eq_ok (env : Environment) {bodies : List (List Char)} (h : Values env value bodies)
    (text : List Char) :
    bodies.foldlM (substituteOne env) text = .ok (replaceInTurn value bodies text) := by
  induction bodies generalizing text with
  | nil => rfl
  | cons body bodies ih =>
      obtain ⟨hbody, hrest⟩ := List.forall_mem_cons.1 h
      rw [List.foldlM_cons, substituteOne, hbody]
      exact ih hrest _

theorem foldlM_eq_error_iff (env : Environment) (bodies : List (List Char)) (text : List Char)
    (message : String) :
    bodies.foldlM (substituteOne env) text = .error message ↔ FirstLacking env message bodies := by
  induction bodies generalizing text with
  | nil => exact ⟨fun h => (nomatch h), fun h => (nomatch h)⟩
  | cons body bodies ih =>
      rw [List.foldlM_cons, substituteOne]
      cases hbody : (Expression.ofChars body).value env with
      | error first =>
          constructor
          · intro h
            cases h
            exact .here hbody
          · intro h
            cases h with
            | here h => exact hbody.symm.trans h
            | later h hrest => exact nomatch hbody.symm.trans h
      | ok v =>
          refine (ih _).trans ⟨.later hbody, fun h => ?_⟩
          cases h with
          | here h => exact nomatch hbody.symm.trans h
          | later h hrest => exact hrest

/-- What comes of the expressions of a text in an environment that lacks none of them. -/
structure Replaces (env : Environment) (text : List Char) (parts : List Part)
    (value : List Char → List Char) : Prop where
  /-- The expressions are replaced one after the other, from left to right. -/
  loop : substituteChars env text = .ok (replaceInTurn value (expressions parts) text)
  /-- In any order, all steps replace their own expressions and nothing else exactly if none meets
  its expression anywhere else in what is then the text. -/
  own_iff : ∀ order, order.Perm (expressions parts) →
    ((∀ done, done <+: order → replaceInTurn value done text = shown value done parts) ↔
      Undisturbed value order parts)
  /-- Then the result is that of replacing all of them at once. -/
  at_once : Undisturbed value (expressions parts) parts →
    substituteChars env text = .ok (filled value parts)
  /-- If nothing new can come up, this is so in any order. -/
  any_order : Clear value parts → ∀ order, order.Perm (expressions parts) →
    Undisturbed value order parts ∧ replaceInTurn value order text = filled value parts

theorem replaceInTurn_of_undisturbed (hcut : Cut text parts)
    (hperm : order.Perm (expressions parts)) (h : Undisturbed value order parts) :
    replaceInTurn value order text = filled value parts := by
  have hbrace : ∀ body ∈ order, '\x7d' ∉ body := fun body hmem =>
    (isBody_of_cut hcut body (hperm.subset hmem)).2
  rw [(in_turn_iff hcut hbrace).2 h order List.prefix_rfl]
  exact shown_of_subset hperm.symm.subset

/-- Substitution fails exactly if an expression has no value, the first one such.  Else it replaces
the expressions in turn, and each turn is that of its own expressions alone exactly if no value and
no neighbouring text has brought in another occurrence. -/
theorem replaces_at_once_iff (env : Environment) (text : List Char) :
    ∃ parts, (Cut text parts ∧ ∀ others, Cut text others → others = parts) ∧
      (∀ message, substituteChars env text = .error message ↔
        FirstLacking env message (expressions parts)) ∧
      ∀ value, Values env value (expressions parts) → Replaces env text parts value := by
  obtain ⟨parts, hcut⟩ := exists_cut text
  have hbodies := isBody_of_cut hcut
  refine ⟨parts, ⟨hcut, fun others h => h.unique hcut⟩, fun message => ?_, fun value hvalues => ?_⟩
  · rw [substituteChars_eq_of_cut env hcut]
    exact foldlM_eq_error_iff env _ text message
  · have hloop : substituteChars env text = .ok (replaceInTurn value (expressions parts) text) := by
      rw [substituteChars_eq_of_cut env hcut]
      exact foldlM_eq_ok env hvalues text
    refine ⟨hloop, fun order hperm => ?_, fun h => ?_, fun hclear order hperm => ?_⟩
    · exact in_turn_iff hcut fun body hmem => (hbodies body (hperm.subset hmem)).2
    · rw [hloop, replaceInTurn_of_undisturbed hcut (List.Perm.refl _) h]
    · have hquiet := undisturbed_of_clear hcut hclear fun body hmem =>
        hbodies body (hperm.subset hmem)
      exact ⟨hquiet, replaceInTurn_of_undisturbed hcut hperm hquiet⟩

/-- A set variable and a default, with text between them. -/
theorem replaces_at_once_default :
    let env : Environment := [("A", "p$q")]
    let value : List Char → List Char := fun body => if body = ['A'] then ['p', '$', 'q'] else ['z']
    let parts := [.expression ['A'], .plain '-', .expression ['B', ':', '-', 'z']]
    Values env value (expressions parts) ∧ Clear value parts ∧
      substituteChars env "$\x7bA\x7d-$\x7bB:-z\x7d".toList = .ok "p$q-z".toList := by
  intro env value parts
  have hcut : Cut (marked ['A'] ++ '-' :: (marked ['B', ':', '-', 'z'] ++ [])) parts := by
    refine .expression (by decide) (.plain (fun body rest _ h => ?_) (.expression (by decide) .nil))
    cases h
  have hvalues : Values env value (expressions parts) := by
    unfold Values
    decide
  have hclear : Clear value parts := by
    refine ⟨?_, by decide, fun body h => ?_⟩
    · unfold Quiet
      decide
    · simp [parts, List.infix_cons_iff, List.cons_prefix_cons] at h
  obtain ⟨others, ⟨-, hunique⟩, -, h⟩ :=
    replaces_at_once_iff env "$\x7bA\x7d-$\x7bB:-z\x7d".toList
  obtain rfl := hunique parts hcut
  have hreplaces := h value hvalues
  exact ⟨hvalues, hclear, hreplaces.at_once (hreplaces.any_order hclear _ (List.Perm.refl _)).1⟩

/-- A value brings in the expression that is replaced next, or the one that was replaced before. -/
theorem not_replaces_at_once_reopened :
    let env : Environment := [("A", "$\x7bB\x7d"), ("B", "x")]
    let value : List Char → List Char := fun body => if body = ['A'] then marked ['B'] else ['x']
    let parts := [.expression ['A'], .expression ['B']]
    Cut "$\x7bA\x7d$\x7bB\x7d".toList parts ∧ Values env value (expressions parts) ∧
      filled value parts = "$\x7bB\x7dx".toList ∧
      substituteChars env "$\x7bA\x7d$\x7bB\x7d".toList = .ok "xx".toList ∧
      substituteChars env "$\x7bB\x7d$\x7bA\x7d".toList = .ok "x$\x7bB\x7d".toList := by
  intro env value parts
  have hcut : Cut (marked ['A'] ++ (marked ['B'] ++ [])) parts :=
    .expression (by decide) (.expression (by decide) .nil)
  have hvalues : Values env value (expressions parts) := by
    unfold Values
    decide
  exact ⟨hcut, hvalues, rfl, rfl, rfl⟩

end TaskQueue.Config
