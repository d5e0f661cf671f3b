import TaskQueue.Json.Number

/-!
# JSON values

The values of JSON.  An object is the list of its members in the order in which they are written;
`Fields` holds the operations on such lists, and `Fields.insert` keeps them sorted by key.
-/

namespace TaskQueue

inductive Json where
  | null
  | bool (b : Bool)
  | number (n : Json.Number)
  | text (s : String)
  | array (items : List Json)
  | object (fields : List (String × Json))
  deriving Repr, Inhabited

namespace Json

mutual

def same : Json → Json → Bool
  | .null, .null => true
  | .bool a, .bool b => a = b
  | .number a, .number b => a = b
  | .text a, .text b => a = b
  | .array a, .array b => sameItems a b
  | .object a, .object b => sameFields a b
  | _, _ => false

def sameItems : List Json → List Json → Bool
  | [], [] => true
  | a :: as, b :: bs => same a b && sameItems as bs
  | _, _ => false

def sameFields : List (String × Json) → List (String × Json) → Bool
  | [], [] => true
  | (k, a) :: as, (l, b) :: bs => k = l && same a b && sameFields as bs
  | _, _ => false

end

mutual

theorem same_iff : ∀ a b : Json, same a b = true ↔ a = b
  | .null, b => by cases b <;> simp [same]
  | .bool _, b => by cases b <;> simp [same]
  | .number _, b => by cases b <;> simp [same]
  | .text _, b => by cases b <;> simp [same]
  | .array a, b => by cases b <;> simp [same, sameItems_iff a]
  | .object a, b => by cases b <;> simp [same, sameFields_iff a]

theorem sameItems_iff : ∀ a b : List Json, sameItems a b = true ↔ a = b
  | [], b => by cases b <;> simp [sameItems]
  | a :: as, b => by cases b <;> simp [sameItems, same_iff a, sameItems_iff as]

theorem sameFields_iff : ∀ a b : List (String × Json), sameFields a b = true ↔ a = b
  | [], b => by cases b <;> simp [sameFields]
  | (k, a) :: as, b => by
    cases b with
    | nil => simp [sameFields]
    | cons p bs =>
      obtain ⟨l, c⟩ := p
      simp [sameFields, same_iff a, sameFields_iff as, and_assoc]

end

instance : DecidableEq Json := fun a b =>
  decidable_of_iff (same a b = true) (same_iff a b)

mutual

def height : Json → Nat
  | .array items => heightOfItems items + 1
  | .object fields => heightOfFields fields + 1
  | _ => 0

/-- The greatest height of a list of values. -/
def heightOfItems : List Json → Nat
  | [] => 0
  | v :: rest => max v.height (heightOfItems rest)

/-- The greatest height of a list of members. -/
def heightOfFields : List (String × Json) → Nat
  | [] => 0
  | (_, v) :: rest => max v.height (heightOfFields rest)

end

abbrev Fields := List (String × Json)

namespace Fields

def get? (fields : Fields) (key : String) : Option Json :=
  (fields.find? fun p => p.1 = key).map Prod.snd

/-- Puts a member into its place among sorted members, replacing one with the same key. -/
def insert (key : String) (value : Json) : Fields → Fields
  | [] => [(key, value)]
  | (k, v) :: rest =>
    if key < k then (key, value) :: (k, v) :: rest
    else if key = k then (key, value) :: rest
    else (k, v) :: insert key value rest

def erase (key : String) (fields : Fields) : Fields :=
  fields.filter fun p => p.1 ≠ key

/-- The members sorted by key; of members with one key the last one stays. -/
def sorted (fields : Fields) : Fields :=
  fields.foldl (fun acc p => insert p.1 p.2 acc) []

def Ordered (fields : Fields) : Prop :=
  fields.Pairwise fun p q => p.1 < q.1

instance (fields : Fields) : Decidable fields.Ordered :=
  inferInstanceAs (Decidable (List.Pairwise _ _))

end Fields

mutual

def normal : Json → Json
  | .array items => .array (normalItems items)
  | .object fields => .object (Fields.sorted (normalFields fields))
  | v => v

def normalItems : List Json → List Json
  | [] => []
  | v :: rest => v.normal :: normalItems rest

def normalFields : List (String × Json) → List (String × Json)
  | [] => []
  | (k, v) :: rest => (k, v.normal) :: normalFields rest

end

/-- The member of an object with the given key; other values have no members. -/
def get? : Json → String → Option Json
  | .object fields, key => Fields.get? fields key
  | _, _ => none

def isNull : Json → Bool
  | .null => true
  | _ => false

def nat (n : Nat) : Json :=
  .number (.natural n)

def int : Int → Json
  | .ofNat n => .number (.natural n)
  | .negSucc n => .number (.negative (n + 1))

def texts (lines : List String) : Json :=
  .array (lines.map .text)

def ofText? : Option String → Json
  | none => .null
  | some s => .text s

end Json

end TaskQueue
