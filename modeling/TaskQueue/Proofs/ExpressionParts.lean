import Mathlib.Data.List.Infix
import Mathlib.Data.List.TakeWhile
import Mathlib.Tactic
import TaskQueue.Config.Environment

/-!
# Expressions in a text

An expression goes from a dollar sign with an opening brace to the first closing brace, with
something in between.  A text that is read from left to right falls into expressions and the
characters outside them in exactly one way, and the bodies that are looked up are those of these
expressions.  What looks like an expression within another one belongs to the body of the outer one.
-/

namespace TaskQueue.Config

/-! ## The parts of a text -/

/-- What may stand between the marks of an expression. -/
def IsBody (body : List Char) : Prop :=
  body ≠ [] ∧ '\x7d' ∉ body

instance (body : List Char) : Decidable (IsBody body) :=
  inferInstanceAs (Decidable (body ≠ [] ∧ '\x7d' ∉ body))

/-- A part of a text: a character outside the expressions, or an expression. -/
inductive Part where
  | plain (c : Char)
  | expression (body : List Char)
  deriving DecidableEq

/-- Whether these are the parts of a text: from left to right, an expression is taken wherever one
starts. -/
inductive Cut : List Char → List Part → Prop
  | nil : Cut [] []
  | expression {body text parts} : IsBody body → Cut text parts →
      Cut (marked body ++ text) (.expression body :: parts)
  | plain {c text parts} : (∀ body rest, IsBody body → c :: text ≠ marked body ++ rest) →
      Cut text parts → Cut (c :: text) (.plain c :: parts)

/-- The bodies of the expressions. -/
def expressions (parts : List Part) : List (List Char) :=
  parts.filterMap fun
    | .plain _ => none
    | .expression body => some body

variable {body other text rest : List Char} {parts : List Part}

@[simp] theorem expressions_plain (c : Char) (parts : List Part) :
    expressions (.plain c :: parts) = expressions parts :=
  rfl

@[simp] theorem expressions_expression (body : List Char) (parts : List Part) :
    expressions (.expression body :: parts) = body :: expressions parts :=
  rfl

theorem marked_eq (body : List Char) : marked body = '$' :: '\x7b' :: (body ++ ['\x7d']) :=
  rfl

theorem length_marked (body : List Char) : (marked body).length = body.length + 3 := by
  simp [marked_eq]

/-- The first closing brace ends an expression. -/
theorem takeWhile_body (hbody : '\x7d' ∉ body) (rest : List Char) :
    (body ++ '\x7d' :: rest).takeWhile (· ≠ '\x7d') = body := by
  induction body with
  | nil => simp
  | cons c body ih =>
      rw [List.mem_cons, not_or] at hbody
      simpa [Ne.symm hbody.1] using ih hbody.2

theorem marked_append_inj (hbody : '\x7d' ∉ body) (hother : '\x7d' ∉ other) {rest' : List Char}
    (h : marked body ++ rest = marked other ++ rest') : body = other ∧ rest = rest' := by
  simp only [marked_eq, List.cons_append, List.append_assoc, List.nil_append, List.cons.injEq,
    true_and] at h
  have hbodies : body = other := by
    have htake := congrArg (List.takeWhile (· ≠ '\x7d')) h
    rwa [takeWhile_body hbody, takeWhile_body hother] at htake
  subst hbodies
  exact ⟨rfl, by simpa using h⟩

/-! ## The bodies that are found -/

theorem bodyOf_body (hbody : IsBody body) (rest : List Char) :
    bodyOf? (body ++ '\x7d' :: rest) = some body := by
  unfold bodyOf?
  simp only [takeWhile_body hbody.2]
  simp [hbody.1]

theorem eq_of_bodyOf {cs : List Char} (h : bodyOf? cs = some body) :
    IsBody body ∧ ∃ rest, cs = body ++ '\x7d' :: rest := by
  unfold bodyOf? at h
  simp only at h
  split at h
  · cases h
  · rename_i hne
    cases h
    obtain ⟨hne, hlength⟩ := not_or.1 hne
    have hsplit := List.takeWhile_append_dropWhile (p := (· ≠ '\x7d')) (l := cs)
    refine ⟨⟨by simpa using hne, fun hmem => by simpa using List.mem_takeWhile_imp hmem⟩, ?_⟩
    cases hrest : cs.dropWhile (· ≠ '\x7d') with
    | nil =>
        rw [hrest, List.append_nil] at hsplit
        exact absurd (congrArg List.length hsplit).symm hlength
    | cons c rest =>
        have hc : c = '\x7d' := by
          have hhead := List.head?_dropWhile_not (· ≠ '\x7d') cs
          rw [hrest] at hhead
          simpa using hhead
        rw [hrest, hc] at hsplit
        exact ⟨rest, hsplit.symm⟩

theorem bodies_skip (n : Nat) (cs : List Char) : bodies n cs = bodies 0 (cs.drop n) := by
  induction cs generalizing n with
  | nil => simp [bodies]
  | cons c cs ih =>
      cases n with
      | zero => rfl
      | succ n => rw [bodies, ih, List.drop_succ_cons]

theorem bodies_marked (hbody : IsBody body) (text : List Char) :
    bodies 0 (marked body ++ text) = body :: bodies 0 text := by
  have hopen : marked body ++ text = '$' :: '\x7b' :: (body ++ '\x7d' :: text) := by
    simp [marked_eq]
  have hdrop : ('\x7b' :: (body ++ '\x7d' :: text)).drop (body.length + 2) = text := by
    simp [List.drop_append]
  rw [hopen, bodies]
  simp only [bodyOf_body hbody text]
  rw [bodies_skip, hdrop]

theorem bodies_plain {c : Char} (h : ∀ body rest, IsBody body → c :: text ≠ marked body ++ rest) :
    bodies 0 (c :: text) = bodies 0 text := by
  conv_lhs => unfold bodies
  dsimp only
  split
  · split
    · rename_i body hfound
      obtain ⟨hbody, rest, rfl⟩ := eq_of_bodyOf hfound
      exact absurd (by simp [marked_eq]) (h body rest hbody)
    · rfl
  · rfl

theorem bodies_of_cut (h : Cut text parts) : bodies 0 text = expressions parts := by
  induction h with
  | nil => rfl
  | expression hbody hcut ih => rw [bodies_marked hbody, ih, expressions_expression]
  | plain hplain hcut ih => rw [bodies_plain hplain, ih, expressions_plain]

theorem isBody_of_cut (h : Cut text parts) : ∀ body ∈ expressions parts, IsBody body := by
  induction h with
  | nil => simp [expressions]
  | expression hbody hcut ih => exact List.forall_mem_cons.2 ⟨hbody, ih⟩
  | plain hplain hcut ih => exact ih

/-! ## Every text has parts -/

theorem exists_cut (text : List Char) : ∃ parts, Cut text parts := by
  induction hlength : text.length using Nat.strong_induction_on generalizing text with
  | _ n ih =>
      cases text with
      | nil => exact ⟨[], .nil⟩
      | cons c text =>
          by_cases hstart : ∃ body rest, IsBody body ∧ c :: text = marked body ++ rest
          · obtain ⟨body, rest, hbody, htext⟩ := hstart
            have hshort : rest.length < n := by
              rw [← hlength, htext, List.length_append, length_marked]
              omega
            obtain ⟨parts, hcut⟩ := ih _ hshort rest rfl
            rw [htext]
            exact ⟨.expression body :: parts, .expression hbody hcut⟩
          · obtain ⟨parts, hcut⟩ := ih text.length (by rw [← hlength]; simp) text rfl
            exact ⟨_, .plain (fun body rest hbody heq => hstart ⟨body, rest, hbody, heq⟩) hcut⟩

theorem Cut.unique {others : List Part} (h : Cut text parts) (h' : Cut text others) :
    parts = others := by
  induction h generalizing others with
  | nil => cases h'; rfl
  | expression hbody hcut ih =>
      -- a plain character cannot stand where an expression starts, in either reading
      generalize htext : marked _ ++ _ = text at h'
      cases h' with
      | nil => simp [marked_eq] at htext
      | expression hother hcut' =>
          obtain ⟨rfl, rfl⟩ := marked_append_inj hbody.2 hother.2 htext
          rw [ih hcut']
      | plain hplain hcut' => exact absurd htext.symm (hplain _ _ hbody)
  | plain hplain hcut ih =>
      generalize htext : _ :: _ = text at h'
      cases h' with
      | nil => cases htext
      | expression hother hcut' => exact absurd htext (hplain _ _ hother)
      | plain hplain' hcut' =>
          cases htext
          rw [ih hcut']

end TaskQueue.Config
