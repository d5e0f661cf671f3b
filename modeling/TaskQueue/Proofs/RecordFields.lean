import Mathlib.Tactic
import TaskQueue.Json.Decoder

/-!
# Fields of records that are read from values

A record is read from an object by name and from an array by position.  A value has each of its
fields in one place, so what a decoder reads there is what the value states.
-/

namespace TaskQueue

namespace Json

/-- A field of a record: by its name in an object, by its position in an array. -/
def field? (v : Json) (position : Nat) (name : String) : Option Json :=
  match v with
  | .object fields => Fields.get? fields name
  | .array items => items[position]?
  | _ => none

namespace Decoder

theorem head_membersNamed (name : String) (fields : Fields) :
    (membersNamed name (Document.ofFields fields)).head? =
      (fields.get? name).map Document.ofValue := by
  induction fields with
  | nil => rfl
  | cons p rest ih =>
      obtain ⟨key, value⟩ := p
      unfold membersNamed Fields.get? at ih ⊢
      by_cases hkey : key = name
      · simp [Document.ofFields, hkey]
      · simpa [Document.ofFields, hkey] using ih

theorem membersNamed_eq_nil {name : String} {fields : Fields} (h : ∀ p ∈ fields, p.1 ≠ name) :
    membersNamed name (Document.ofFields fields) = [] := by
  induction fields with
  | nil => rfl
  | cons p rest ih =>
      obtain ⟨hp, hrest⟩ := List.forall_mem_cons.1 h
      have hnone := ih hrest
      unfold membersNamed at hnone ⊢
      simpa [Document.ofFields, hp] using hnone

/-- In an object with sorted keys no key comes twice. -/
theorem length_membersNamed_le {fields : Fields} (hordered : fields.Ordered) (name : String) :
    (membersNamed name (Document.ofFields fields)).length ≤ 1 := by
  induction fields with
  | nil => simp [membersNamed, Document.ofFields]
  | cons p rest ih =>
      obtain ⟨key, value⟩ := p
      obtain ⟨hfirst, hrest⟩ := List.pairwise_cons.1 hordered
      have hmore := ih hrest
      by_cases hkey : key = name
      · have hothers : ∀ q ∈ rest, q.1 ≠ name := by
          intro q hq heq
          have hlt := hfirst q hq
          rw [heq, hkey] at hlt
          exact String.lt_irrefl name hlt
        have hnone := membersNamed_eq_nil hothers
        unfold membersNamed at hnone ⊢
        simp [Document.ofFields, hkey, hnone]
      · unfold membersNamed at hmore ⊢
        simpa [Document.ofFields, hkey] using hmore

theorem all_keys_ofFields (fields : Fields) :
    (Document.ofFields fields).all (·.1.isSome) = true := by
  induction fields with
  | nil => rfl
  | cons p rest ih => simpa [Document.ofFields] using ih

/-- The frame of a record is read from every object with sorted keys. -/
theorem record_object {fields : Fields} (hordered : fields.Ordered) (names : List String)
    (limit : Nat) :
    record names (limit + 1) (Document.ofValue (.object fields)) =
      some (limit, .named (Document.ofFields fields)) := by
  have honce : names.all (fun n => (membersNamed n (Document.ofFields fields)).length ≤ 1) = true :=
    List.all_eq_true.2 fun n _ => decide_eq_true (length_membersNamed_le hordered n)
  rw [Document.ofValue, record, if_pos ⟨all_keys_ofFields fields, honce⟩]

theorem getElem_ofItems (items : List Json) (position : Nat) :
    (Document.ofItems items)[position]? = items[position]?.map Document.ofValue := by
  induction items generalizing position with
  | nil => rfl
  | cons v rest ih =>
      cases position with
      | zero => rfl
      | succ position => exact ih position

/-- The frame of a record that is read from a value has the fields of that value. -/
theorem get_of_record {names : List String} {limit rest : Nat} {v : Json} {r : Record}
    (h : record names limit (Document.ofValue v) = some (rest, r)) (position : Nat)
    (name : String) : r.get? position name = (v.field? position name).map Document.ofValue := by
  cases v with
  | object fields =>
      cases limit with
      | zero => cases h
      | succ limit =>
          simp only [Document.ofValue, record, Option.ite_none_right_eq_some] at h
          obtain ⟨-, h⟩ := h
          cases h
          exact head_membersNamed name fields
  | array items =>
      cases limit with
      | zero => cases h
      | succ limit =>
          simp only [Document.ofValue, record, Option.ite_none_right_eq_some] at h
          obtain ⟨-, h⟩ := h
          cases h
          exact getElem_ofItems items position
  | _ => cases limit <;> cases h

theorem field_of_required {r : Record} {limit position : Nat} {name : String} {v : Json}
    {decode : Decoder α} {a : α}
    (hget : r.get? position name = (v.field? position name).map Document.ofValue)
    (h : r.required limit position name decode = some a) :
    ∃ w, v.field? position name = some w ∧ decode limit (Document.ofValue w) = some a := by
  unfold Record.required at h
  rw [hget] at h
  obtain ⟨d, hd, hdecode⟩ := Option.bind_eq_some_iff.1 h
  obtain ⟨w, hw, rfl⟩ := Option.map_eq_some_iff.1 hd
  exact ⟨w, hw, hdecode⟩

theorem field_of_defaulted {r : Record} {limit position : Nat} {name : String} {v : Json}
    {decode : Decoder α} {a default : α}
    (hget : r.get? position name = (v.field? position name).map Document.ofValue)
    (h : r.defaulted limit position name decode default = some a) :
    (∃ w, v.field? position name = some w ∧ decode limit (Document.ofValue w) = some a) ∨
      v.field? position name = none ∧ a = default := by
  unfold Record.defaulted at h
  rw [hget] at h
  cases hfield : v.field? position name with
  | none =>
      rw [hfield] at h
      exact Or.inr ⟨rfl, (Option.some.inj h).symm⟩
  | some w =>
      rw [hfield] at h
      exact Or.inl ⟨w, rfl, h⟩

theorem eq_nat_of_natBelow {bound limit n : Nat} {v : Json}
    (h : natBelow bound limit (Document.ofValue v) = some n) : v = .nat n := by
  cases v with
  | number m =>
      change Number.natBelow? bound m = some n at h
      cases m with
      | natural k =>
          simp only [Number.natBelow?, Option.ite_none_right_eq_some] at h
          rw [Option.some.inj h.2]
          rfl
      | negative k | real bits => cases h
  | _ => cases h

theorem eq_bool_of_bool {limit : Nat} {v : Json} {b : Bool}
    (h : bool limit (Document.ofValue v) = some b) : v = .bool b := by
  cases v with
  | bool b' =>
      cases h
      rfl
  | _ => cases h

end Decoder

end Json

end TaskQueue
