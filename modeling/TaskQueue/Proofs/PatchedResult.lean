import Mathlib.Tactic
import TaskQueue.Task.Result

/-!
# What a patch makes of a result

The extra members of a result are edited key by key: an edit whose value is null takes the member
out, any other edit puts its own value there, and a key without an edit is left alone.  The other
parts are set or left alone.  So a patch that is made again changes nothing, and this is so for the
last patch of a run too, although it looks at the counter that it raises.
-/

namespace TaskQueue

namespace Json

namespace Fields

variable {fields : Fields} {key k : String} {value v : Json}

@[simp] theorem get?_nil (key : String) : get? [] key = none :=
  rfl

theorem get?_cons (k : String) (v : Json) (fields : Fields) (key : String) :
    get? ((k, v) :: fields) key = if k = key then some v else get? fields key := by
  by_cases h : k = key <;> simp [get?, h]

theorem get?_insert (key : String) (value : Json) (fields : Fields) (k : String) :
    (insert key value fields).get? k = if key = k then some value else fields.get? k := by
  induction fields with
  | nil => rw [insert, get?_cons]
  | cons p rest ih =>
      obtain ⟨l, w⟩ := p
      unfold insert
      by_cases hlt : key < l
      · rw [if_pos hlt, get?_cons]
      · rw [if_neg hlt]
        by_cases heq : key = l
        · subst heq
          rw [if_pos rfl, get?_cons, get?_cons]
          by_cases hk : key = k <;> simp [hk]
        · rw [if_neg heq, get?_cons, get?_cons, ih]
          by_cases hl : l = k
          · subst hl
            simp [heq]
          · simp [hl]

theorem get?_erase (key : String) (fields : Fields) (k : String) :
    (erase key fields).get? k = if key = k then none else fields.get? k := by
  induction fields with
  | nil => simp [erase]
  | cons p rest ih =>
      obtain ⟨l, w⟩ := p
      unfold erase at ih ⊢
      by_cases hl : l = key
      · subst hl
        rw [List.filter_cons_of_neg (by simp), ih, get?_cons]
        by_cases hk : l = k <;> simp [hk]
      · rw [List.filter_cons_of_pos (by simpa using hl), get?_cons, get?_cons, ih]
        by_cases hk : l = k
        · subst hk
          rw [if_pos rfl, if_neg (Ne.symm hl), if_pos rfl]
        · simp [hk]

theorem mem_of_get (h : fields.get? key = some value) : (key, value) ∈ fields := by
  unfold get? at h
  obtain ⟨⟨k, v⟩, hfind, rfl⟩ := Option.map_eq_some_iff.1 h
  have hkey : k = key := by simpa using List.find?_some hfind
  rw [← hkey]
  exact List.mem_of_find?_eq_some hfind

theorem get_of_mem (hordered : fields.Ordered) (hmem : (key, value) ∈ fields) :
    fields.get? key = some value := by
  induction fields with
  | nil => cases hmem
  | cons p rest ih =>
      obtain ⟨l, w⟩ := p
      obtain ⟨hfirst, hrest⟩ := List.pairwise_cons.1 hordered
      rw [get?_cons]
      rcases List.mem_cons.1 hmem with hmem | hmem
      · cases hmem
        rw [if_pos rfl]
      · have hlt : l < key := hfirst _ hmem
        rw [if_neg (String.ne_of_lt hlt)]
        exact ih hrest hmem

theorem eq_of_get {other : Fields} (hfields : fields.Ordered) (hother : other.Ordered)
    (hget : ∀ key, fields.get? key = other.get? key) : fields = other := by
  have hnodup : ∀ l : Fields, l.Ordered → l.Nodup := by
    intro l hl
    refine hl.imp ?_
    intro p q hpq heq
    rw [heq] at hpq
    exact String.lt_irrefl _ hpq
  have hmem : ∀ p, p ∈ fields ↔ p ∈ other := by
    intro p
    constructor
    · intro hp
      have hkey := get_of_mem hfields hp
      rw [hget] at hkey
      exact mem_of_get hkey
    · intro hp
      have hkey := get_of_mem hother hp
      rw [← hget] at hkey
      exact mem_of_get hkey
  have hperm := (List.perm_ext_iff_of_nodup (hnodup _ hfields) (hnodup _ hother)).2 hmem
  refine List.Perm.eq_of_pairwise ?_ hfields hother hperm
  intro p q _ _ hpq hqp
  exact absurd (String.lt_trans hpq hqp) (String.lt_irrefl _)

end Fields

namespace Object

theorem eq_of_get {o o' : Object} (h : ∀ key, o.get? key = o'.get? key) : o = o' := by
  obtain ⟨fields, hfields⟩ := o
  obtain ⟨fields', hfields'⟩ := o'
  have hsame : fields = fields' := Fields.eq_of_get hfields hfields' h
  subst hsame
  rfl

/-- What an edit of a member leaves under its key. -/
def kept (value : Json) : Option Json :=
  if value.isNull then none else some value

theorem get?_edit (o : Object) (key : String) (value : Json) (k : String) :
    (o.edit key value).get? k = if key = k then kept value else o.get? k := by
  unfold edit kept get?
  by_cases hnull : value.isNull = true
  · simp only [hnull, if_true]
    exact Fields.get?_erase key o.fields k
  · simp only [hnull]
    exact Fields.get?_insert key value o.fields k

/-- What a merge gives under a key: what the edits have for it, else what was there. -/
theorem get?_merge (o edits : Object) (key : String) :
    (o.merge edits).get? key = (edits.get? key).elim (o.get? key) kept := by
  have hfold : ∀ (fields : Fields) (o : Object), fields.Ordered →
      (fields.foldl (fun o p => o.edit p.1 p.2) o).get? key =
        (fields.get? key).elim (o.get? key) kept := by
    intro fields
    induction fields with
    | nil => exact fun o _ => rfl
    | cons p rest ih =>
        intro o hordered
        obtain ⟨k, v⟩ := p
        obtain ⟨hfirst, hrest⟩ := List.pairwise_cons.1 hordered
        rw [List.foldl_cons, ih _ hrest, get?_edit, Fields.get?_cons]
        by_cases hk : k = key
        · -- The keys after this one are greater, so the edit is the last one of its key.
          subst hk
          have hnone : Fields.get? rest k = none := by
            by_contra hsome
            obtain ⟨w, hw⟩ := Option.ne_none_iff_exists'.1 hsome
            exact String.lt_irrefl _ (hfirst (k, w) (Fields.mem_of_get hw))
          simp [hnone]
        · simp [hk]
  exact hfold edits.fields o edits.ordered

theorem merge_merge_self (o edits : Object) : (o.merge edits).merge edits = o.merge edits := by
  refine eq_of_get fun key => ?_
  rw [get?_merge, get?_merge]
  cases edits.get? key <;> rfl

end Object

end Json

theorem MessageEdit.apply_apply (e : MessageEdit) (old : Option String) :
    e.apply (e.apply old) = e.apply old := by
  cases e <;> rfl

namespace TaskResult

/-- The last patch of a run changes a result as any patch does, but for the counter: this becomes
the greatest of what the patch says, what was counted before and the number of lines. -/
theorem applyFinal_eq (r : TaskResult) (p : ResultPatch) :
    r.applyFinal p =
      { r.apply p with
        seq := max (p.seq.getD 0) (max r.seq (r.applyFinal p).logs.length) } := by
  have hseq : max (max (p.seq.getD r.seq) r.seq) (p.logs.getD r.logs).length =
      max (p.seq.getD 0) (max r.seq (p.logs.getD r.logs).length) := by
    cases p.seq <;> simp [max_assoc]
  unfold applyFinal apply
  simp only [hseq]

theorem apply_apply (r : TaskResult) (p : ResultPatch) : (r.apply p).apply p = r.apply p := by
  have hset : ∀ {α : Type} (new : Option α) (old : α), new.getD (new.getD old) = new.getD old := by
    intro α new old
    cases new <;> rfl
  have hor : p.providerRef.or (p.providerRef.or r.providerRef) =
      p.providerRef.or r.providerRef := by
    cases p.providerRef <;> rfl
  unfold apply
  simp only [hset, hor, MessageEdit.apply_apply, Json.Object.merge_merge_self]

theorem apply_applyFinal (r : TaskResult) (p : ResultPatch) :
    (r.applyFinal p).apply p =
      { r.apply p with seq := p.seq.getD (r.applyFinal p).seq } := by
  have hagain := apply_apply r p
  unfold apply at hagain ⊢
  unfold applyFinal
  simp only [TaskResult.mk.injEq, true_and] at hagain ⊢
  obtain ⟨hlogs, -, houtput, hprovider, hmessage, hextra⟩ := hagain
  exact ⟨hlogs, houtput, hprovider, hmessage, hextra⟩

theorem applyFinal_applyFinal (r : TaskResult) (p : ResultPatch) :
    (r.applyFinal p).applyFinal p = r.applyFinal p := by
  -- The counter is at least what the patch says and what it counts.
  have hseq : max (max (p.seq.getD (r.applyFinal p).seq) (r.applyFinal p).seq)
      (r.apply p).logs.length = (r.applyFinal p).seq := by
    have hlines : (r.apply p).logs.length ≤ (r.applyFinal p).seq := le_max_right _ _
    have hset : p.seq.getD (r.applyFinal p).seq ≤ (r.applyFinal p).seq := by
      cases hp : p.seq with
      | none => exact le_refl _
      | some n =>
          have hn : (r.apply p).seq = n := by
            unfold apply
            rw [hp]
            rfl
          rw [Option.getD_some, ← hn]
          exact le_trans (le_max_left _ _) (le_max_left _ _)
    rw [max_eq_right hset, max_eq_left hlines]
  calc (r.applyFinal p).applyFinal p
      = { (r.applyFinal p).apply p with
          seq := max (max ((r.applyFinal p).apply p).seq (r.applyFinal p).seq)
            ((r.applyFinal p).apply p).logs.length } := rfl
    _ = { r.apply p with
          seq := max (max (p.seq.getD (r.applyFinal p).seq) (r.applyFinal p).seq)
            (r.apply p).logs.length } := by rw [apply_applyFinal]
    _ = { r.apply p with seq := (r.applyFinal p).seq } := by rw [hseq]
    _ = r.applyFinal p := rfl

end TaskResult

end TaskQueue
