import Mathlib.Tactic
import TaskQueue.Proofs.ExpressionParts

/-!
# An expression replaced wherever it occurs

The only closing brace of an expression is its last character, so no occurrence overlaps with
another one.  The occurrences in a text can then be counted, and replaced, before and after any of
them apart.  A replacement leaves a text as it is only if nothing in it is replaced, or if the
expression is replaced by itself.
-/

namespace TaskQueue.Config

variable {body text rest v : List Char} {parts : List Part}

/-! ## Occurrences of an expression -/

/-- How often a text occurs in another one. -/
def occurrences (pattern text : List Char) : Nat :=
  text.tails.countP fun rest => pattern.isPrefixOf rest

@[simp] theorem occurrences_nil (body : List Char) : occurrences (marked body) [] = 0 := by
  simp [occurrences, marked_eq]

theorem occurrences_cons (pattern : List Char) (c : Char) (text : List Char) :
    occurrences pattern (c :: text) =
      occurrences pattern text + if pattern <+: c :: text then 1 else 0 := by
  simp [occurrences, List.countP_cons]

theorem prefix_marked_iff {start : List Char} :
    start <+: marked body ↔ start = marked body ∨ start <+: '$' :: '\x7b' :: body :=
  List.prefix_concat_iff

/-- An occurrence ends with the first closing brace. -/
theorem prefix_of_brace_mem (hbody : '\x7d' ∉ body) (h : marked body <+: text ++ rest)
    (hbrace : '\x7d' ∈ text) : marked body <+: text := by
  rcases List.prefix_or_prefix_of_prefix h (List.prefix_append text rest) with h | h
  · exact h
  · rcases prefix_marked_iff.1 h with h | h
    · exact h ▸ List.prefix_rfl
    · have hmem := h.subset hbrace
      simp [hbody] at hmem

/-- An occurrence that starts before another one ends before it. -/
theorem prefix_append_marked_iff (hbody : '\x7d' ∉ body) (htext : text ≠ []) (rest : List Char) :
    marked body <+: text ++ (marked body ++ rest) ↔ marked body <+: text := by
  constructor
  · intro h
    rw [← List.append_assoc] at h
    have hwithin := prefix_of_brace_mem hbody h (by simp [marked_eq])
    have hbefore : text <+: text ++ marked body := List.prefix_append _ _
    rcases List.prefix_or_prefix_of_prefix hwithin hbefore with h | ⟨tail, htail⟩
    · exact h
    have htwice : text ++ tail <+: text ++ marked body := htail.symm ▸ hwithin
    have hinner : tail <+: marked body := (List.prefix_append_right_inj text).1 htwice
    rcases prefix_marked_iff.1 hinner with hall | hopen
    · -- only the occurrence that is already there starts behind the text
      rw [hall] at htail
      exact absurd (List.append_left_eq_self.1 htail) htext
    · rcases List.eq_nil_or_concat' tail with rfl | ⟨start, last, rfl⟩
      · rw [List.append_nil] at htail
        exact htail ▸ List.prefix_rfl
      · have hlast : last = '\x7d' := by
          have hends : (text ++ start) ++ [last] = ('$' :: '\x7b' :: body) ++ ['\x7d'] := by
            rw [List.append_assoc]
            exact htail
          exact List.singleton_inj.1 (List.append_inj_right' hends rfl)
        have hmem : '\x7d' ∈ '$' :: '\x7b' :: body := hopen.subset (by simp [hlast])
        simp [hbody] at hmem
  · exact fun h => h.trans (List.prefix_append _ _)

theorem occurrences_brace (hbody : '\x7d' ∉ body) {start : List Char}
    (hlength : start.length + 1 < (marked body).length) (text : List Char) :
    occurrences (marked body) (start ++ '\x7d' :: text) = occurrences (marked body) text := by
  induction start with
  | nil => simp [occurrences_cons, marked_eq]
  | cons c start ih =>
      have hnone : ¬marked body <+: c :: (start ++ '\x7d' :: text) := by
        intro h
        have hsplit : c :: (start ++ '\x7d' :: text) = (c :: start ++ ['\x7d']) ++ text := by simp
        rw [hsplit] at h
        have hle := (prefix_of_brace_mem hbody h (by simp)).length_le
        simp at hle hlength
        omega
      rw [List.cons_append, occurrences_cons, if_neg hnone, Nat.add_zero]
      exact ih (Nat.lt_of_succ_lt hlength)

theorem occurrences_marked (hbody : '\x7d' ∉ body) (text : List Char) :
    occurrences (marked body) (marked body ++ text) = occurrences (marked body) text + 1 := by
  have hopen : marked body ++ text = '$' :: (('\x7b' :: body) ++ '\x7d' :: text) := by
    simp [marked_eq]
  have hfound : marked body <+: '$' :: (('\x7b' :: body) ++ '\x7d' :: text) :=
    hopen ▸ List.prefix_append _ _
  rw [hopen, occurrences_cons, if_pos hfound, occurrences_brace hbody (by simp [marked_eq])]

theorem occurrences_append_marked (hbody : '\x7d' ∉ body) (text rest : List Char) :
    occurrences (marked body) (text ++ (marked body ++ rest)) =
      occurrences (marked body) text + 1 + occurrences (marked body) rest := by
  induction text with
  | nil => rw [List.nil_append, occurrences_marked hbody, occurrences_nil]; omega
  | cons c text ih =>
      have hiff := prefix_append_marked_iff hbody (List.cons_ne_nil c text) rest
      rw [List.cons_append] at hiff ⊢
      rw [occurrences_cons, occurrences_cons, ih, if_congr hiff rfl rfl]
      omega

/-! ## One expression replaced wherever it occurs -/

theorem replaceAll_skip (pattern v : List Char) (n : Nat) (text : List Char) :
    replaceAll pattern v n text = replaceAll pattern v 0 (text.drop n) := by
  induction text generalizing n with
  | nil => simp [replaceAll]
  | cons c text ih =>
      cases n with
      | zero => rfl
      | succ n => rw [replaceAll, ih, List.drop_succ_cons]

@[simp] theorem replaceAll_nil (pattern v : List Char) : replaceAll pattern v 0 [] = [] :=
  rfl

theorem replaceAll_marked (body v text : List Char) :
    replaceAll (marked body) v 0 (marked body ++ text) =
      v ++ replaceAll (marked body) v 0 text := by
  have hfound : (marked body).isPrefixOf ('$' :: ('\x7b' :: (body ++ ['\x7d']) ++ text)) = true :=
    List.isPrefixOf_iff_prefix.2 (List.prefix_append _ _)
  have hdrop : ('\x7b' :: (body ++ ['\x7d']) ++ text).drop ((marked body).length - 1) = text := by
    rw [length_marked]
    simp [List.drop_append]
  show replaceAll (marked body) v 0 ('$' :: ('\x7b' :: (body ++ ['\x7d']) ++ text)) = _
  rw [replaceAll]
  simp only [hfound, if_true]
  rw [replaceAll_skip, hdrop]

theorem replaceAll_other {pattern : List Char} {c : Char} (h : ¬pattern <+: c :: text) :
    replaceAll pattern v 0 (c :: text) = c :: replaceAll pattern v 0 text := by
  have hnone : pattern.isPrefixOf (c :: text) = false := by
    rw [← Bool.not_eq_true, List.isPrefixOf_iff_prefix]
    exact h
  rw [replaceAll]
  simp only [hnone, Bool.false_eq_true, if_false]

/-- A text is read from left to right, one occurrence at a time. -/
theorem occurrence_induction (body : List Char) {motive : List Char → Prop} (nil : motive [])
    (found : ∀ text, motive text → motive (marked body ++ text))
    (other : ∀ c text, ¬marked body <+: c :: text → motive text → motive (c :: text))
    (text : List Char) : motive text := by
  induction hlength : text.length using Nat.strong_induction_on generalizing text with
  | _ n ih =>
      cases text with
      | nil => exact nil
      | cons c text =>
          by_cases hfound : marked body <+: c :: text
          · obtain ⟨rest, hrest⟩ := hfound
            rw [← hrest]
            refine found rest (ih rest.length ?_ rest rfl)
            rw [← hlength, ← hrest, List.length_append, length_marked]
            omega
          · exact other c text hfound (ih text.length (by rw [← hlength]; simp) text rfl)

theorem replaceAll_append_marked (hbody : '\x7d' ∉ body) (v text rest : List Char) :
    replaceAll (marked body) v 0 (text ++ (marked body ++ rest)) =
      replaceAll (marked body) v 0 text ++ (v ++ replaceAll (marked body) v 0 rest) := by
  induction text using occurrence_induction body with
  | nil => rw [List.nil_append, replaceAll_marked, replaceAll_nil, List.nil_append]
  | found text ih =>
      rw [List.append_assoc, replaceAll_marked, ih, replaceAll_marked, List.append_assoc]
  | other c text h ih =>
      have hnone : ¬marked body <+: c :: (text ++ (marked body ++ rest)) := fun hfound =>
        h ((prefix_append_marked_iff hbody (List.cons_ne_nil c text) rest).1 hfound)
      rw [List.cons_append, replaceAll_other hnone, ih, replaceAll_other h, List.cons_append]

theorem length_replaceAll (hbody : '\x7d' ∉ body) (v text : List Char) :
    (replaceAll (marked body) v 0 text).length +
        occurrences (marked body) text * (marked body).length =
      text.length + occurrences (marked body) text * v.length := by
  induction text using occurrence_induction body with
  | nil => simp
  | found text ih =>
      rw [replaceAll_marked, occurrences_marked hbody, List.length_append, List.length_append,
        Nat.succ_mul, Nat.succ_mul]
      omega
  | other c text h ih =>
      rw [replaceAll_other h, occurrences_cons, if_neg h, List.length_cons, List.length_cons]
      simp only [Nat.add_zero]
      omega

theorem replaceAll_self (body text : List Char) :
    replaceAll (marked body) (marked body) 0 text = text := by
  induction text using occurrence_induction body with
  | nil => rfl
  | found text ih => rw [replaceAll_marked, ih]
  | other c text h ih => rw [replaceAll_other h, ih]

theorem replaceAll_of_occurrences (hbody : '\x7d' ∉ body)
    (h : occurrences (marked body) text = 0) : replaceAll (marked body) v 0 text = text := by
  induction text using occurrence_induction body with
  | nil => rfl
  | found text ih =>
      rw [occurrences_marked hbody] at h
      cases h
  | other c text hnone ih =>
      rw [occurrences_cons, if_neg hnone, Nat.add_zero] at h
      rw [replaceAll_other hnone, ih h]

/-- A replacement that changes nothing replaces nothing, or each occurrence by itself. -/
theorem replaceAll_eq_self_iff (hbody : '\x7d' ∉ body) :
    replaceAll (marked body) v 0 text = text ↔
      v = marked body ∨ occurrences (marked body) text = 0 := by
  constructor
  · intro h
    induction text using occurrence_induction body with
    | nil => exact Or.inr (occurrences_nil body)
    | found text ih =>
        have hlength := length_replaceAll hbody v (marked body ++ text)
        rw [h, Nat.add_left_cancel_iff, occurrences_marked hbody] at hlength
        rw [replaceAll_marked] at h
        have hsame : v.length = (marked body).length :=
          (Nat.eq_of_mul_eq_mul_left (Nat.succ_pos _) hlength).symm
        exact Or.inl (List.append_inj_left h hsame)
    | other c text hnone ih =>
        rw [replaceAll_other hnone, List.cons.injEq] at h
        rw [occurrences_cons, if_neg hnone, Nat.add_zero]
        exact ih h.2
  · rintro (rfl | h)
    · exact replaceAll_self body text
    · exact replaceAll_of_occurrences hbody h

end TaskQueue.Config
