import TaskQueue.Json.Value

/-!
# Objects with sorted keys

An `Object` is a list of members whose keys increase strictly, so that two objects with the same
members are equal.
-/

namespace TaskQueue.Json

namespace Fields

theorem mem_insert {key : String} {value : Json} {fields : Fields} {p : String × Json}
    (h : p ∈ insert key value fields) : p = (key, value) ∨ p ∈ fields := by
  induction fields with
  | nil => simpa [insert] using h
  | cons q rest ih =>
    obtain ⟨k, v⟩ := q
    simp only [insert] at h
    split at h
    · simpa using h
    · split at h
      · rcases List.mem_cons.1 h with h | h <;> simp [h]
      · rcases List.mem_cons.1 h with h | h
        · simp [h]
        · rcases ih h with h | h <;> simp [h]

theorem Ordered.insert {fields : Fields} (h : fields.Ordered) (key : String) (value : Json) :
    (Fields.insert key value fields).Ordered := by
  induction fields with
  | nil => simp [Fields.insert, Ordered]
  | cons q rest ih =>
    obtain ⟨k, v⟩ := q
    obtain ⟨hhead, hrest⟩ := List.pairwise_cons.1 h
    simp only [Fields.insert]
    split
    · rename_i hlt
      refine List.pairwise_cons.2 ⟨fun p hp => ?_, h⟩
      rcases List.mem_cons.1 hp with hp | hp
      · subst hp; exact hlt
      · exact String.lt_trans hlt (hhead p hp)
    · rename_i hlt
      split
      · rename_i heq
        subst heq
        exact List.pairwise_cons.2 ⟨hhead, hrest⟩
      · rename_i hne
        refine List.pairwise_cons.2 ⟨fun p hp => ?_, ih hrest⟩
        rcases mem_insert hp with hp | hp
        · subst hp
          have : k < key := by grind
          exact this
        · exact hhead p hp

theorem Ordered.erase {fields : Fields} (h : fields.Ordered) (key : String) :
    (Fields.erase key fields).Ordered :=
  List.Pairwise.filter _ h

theorem ordered_sorted (fields : Fields) : (sorted fields).Ordered := by
  have key : ∀ (fields acc : Fields), acc.Ordered →
      (fields.foldl (fun acc p => insert p.1 p.2 acc) acc).Ordered := by
    intro fields
    induction fields with
    | nil => exact fun _ h => h
    | cons p rest ih => exact fun acc h => ih _ (h.insert p.1 p.2)
  exact key fields [] List.Pairwise.nil

end Fields

structure Object where
  fields : Fields
  ordered : fields.Ordered
  deriving DecidableEq, Repr

namespace Object

/-- The object without members. -/
def empty : Object :=
  ⟨[], List.Pairwise.nil⟩

instance : Inhabited Object :=
  ⟨empty⟩

/-- The object with the given members; of members with one key the last one stays. -/
def ofFields (fields : Fields) : Object :=
  ⟨fields.sorted, Fields.ordered_sorted fields⟩

def get? (o : Object) (key : String) : Option Json :=
  o.fields.get? key

def insert (o : Object) (key : String) (value : Json) : Object :=
  ⟨o.fields.insert key value, o.ordered.insert key value⟩

def erase (o : Object) (key : String) : Object :=
  ⟨o.fields.erase key, o.ordered.erase key⟩

def isEmpty (o : Object) : Bool :=
  o.fields.isEmpty

/-- Puts a member in, or takes it out if its value is null. -/
def edit (o : Object) (key : String) (value : Json) : Object :=
  if value.isNull then o.erase key else o.insert key value

def merge (o edits : Object) : Object :=
  edits.fields.foldl (fun o p => o.edit p.1 p.2) o

def toJson (o : Object) : Json :=
  .object o.fields

end Object

end TaskQueue.Json
