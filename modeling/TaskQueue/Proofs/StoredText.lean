import Mathlib.Tactic
import TaskQueue.Proofs.JsonRoundTrip
import TaskQueue.Proofs.NumberText
import TaskQueue.Proofs.PatchedResult

/-!
# Values that are stored as texts

A value whose numbers are valid and that does not nest too deep is read from its own text as some
value.  That need not be the same value, because a fraction may come back as its neighbour, but the
members of an object keep their keys, and a readable member comes back as it was.  All values that
are read from texts are of this kind.
-/

namespace TaskQueue.Json

mutual

/-- Whether every number in a value is valid. -/
def Valid : Json → Prop
  | .number n => n.IsValid
  | .array items => ValidItems items
  | .object fields => ValidFields fields
  | _ => True

def ValidItems : List Json → Prop
  | [] => True
  | v :: rest => v.Valid ∧ ValidItems rest

def ValidFields : List (String × Json) → Prop
  | [] => True
  | (_, v) :: rest => v.Valid ∧ ValidFields rest

end

theorem validFields_iff (fields : Fields) : ValidFields fields ↔ ∀ p ∈ fields, p.2.Valid := by
  induction fields with
  | nil => simp [ValidFields]
  | cons p rest ih => simp [ValidFields, ih]

/-! ## Reading a stored text -/

mutual

theorem exists_echo : ∀ v : Json, v.Valid →
    ∃ d, v.echo? = some d ∧ ∀ limit, v.height ≤ limit → ∃ w, Document.value? limit d = some w
  | .null, _ => ⟨.null, by rw [echo?], fun limit _ => ⟨.null, by rw [Document.value?]⟩⟩
  | .bool b, _ => ⟨.bool b, by rw [echo?], fun limit _ => ⟨.bool b, by rw [Document.value?]⟩⟩
  | .text s, _ =>
      ⟨.text (some s), by rw [echo?], fun limit _ => ⟨.text s, by rw [Document.value?]; rfl⟩⟩
  | .number n, hv => by
      obtain ⟨m, hm⟩ := Number.exists_ofChars hv
      obtain ⟨numeral, hread, hnumber⟩ := Option.bind_eq_some_iff.1 hm
      refine ⟨.number (some m), ?_, fun limit _ => ⟨.number m, by rw [Document.value?]; rfl⟩⟩
      rw [echo?, Scanner.echoed, hread, Option.map_some, Option.map_some, hnumber]
  | .array items, hv => by
      rw [Valid] at hv
      obtain ⟨ds, hecho, hvalues⟩ := exists_echoOfItems items hv
      refine ⟨.array ds, by rw [echo?, hecho, Option.map_some], fun limit hlimit => ?_⟩
      rw [height] at hlimit
      cases limit with
      | zero => omega
      | succ limit =>
          obtain ⟨ws, hws⟩ := hvalues limit (by omega)
          exact ⟨.array ws, by rw [Document.value?, hws, Option.map_some]⟩
  | .object fields, hv => by
      rw [Valid] at hv
      obtain ⟨ds, hecho, hmembers⟩ := exists_echoOfFields fields hv
      refine ⟨.object ds, by rw [echo?, hecho, Option.map_some], fun limit hlimit => ?_⟩
      rw [height] at hlimit
      cases limit with
      | zero => omega
      | succ limit =>
          obtain ⟨ws, hws⟩ := hmembers limit (by omega)
          exact ⟨.object (Fields.sorted ws), by rw [Document.value?, hws, Option.map_some]⟩

theorem exists_echoOfItems : ∀ items : List Json, ValidItems items →
    ∃ ds, echoOfItems? items = some ds ∧
      ∀ limit, heightOfItems items ≤ limit → ∃ ws, Document.values? limit ds = some ws
  | [], _ => ⟨[], by rw [echoOfItems?], fun limit _ => ⟨[], by rw [Document.values?]⟩⟩
  | v :: rest, hitems => by
      rw [ValidItems] at hitems
      obtain ⟨d, hd, hvalue⟩ := exists_echo v hitems.1
      obtain ⟨ds, hds, hvalues⟩ := exists_echoOfItems rest hitems.2
      refine ⟨d :: ds, by simp [echoOfItems?, hd, hds], fun limit hlimit => ?_⟩
      rw [heightOfItems] at hlimit
      obtain ⟨w, hw⟩ := hvalue limit (by omega)
      obtain ⟨ws, hws⟩ := hvalues limit (by omega)
      exact ⟨w :: ws, by simp [Document.values?, hw, hws]⟩

theorem exists_echoOfFields : ∀ fields : List (String × Json), ValidFields fields →
    ∃ ds, echoOfFields? fields = some ds ∧
      ∀ limit, heightOfFields fields ≤ limit → ∃ ws, Document.members? limit ds = some ws
  | [], _ => ⟨[], by rw [echoOfFields?], fun limit _ => ⟨[], by rw [Document.members?]⟩⟩
  | (k, v) :: rest, hfields => by
      rw [ValidFields] at hfields
      obtain ⟨d, hd, hvalue⟩ := exists_echo v hfields.1
      obtain ⟨ds, hds, hmembers⟩ := exists_echoOfFields rest hfields.2
      refine ⟨(some k, d) :: ds, by simp [echoOfFields?, hd, hds], fun limit hlimit => ?_⟩
      rw [heightOfFields] at hlimit
      obtain ⟨w, hw⟩ := hvalue limit (by omega)
      obtain ⟨ws, hws⟩ := hmembers limit (by omega)
      exact ⟨(k, w) :: ws, by simp [Document.members?, hw, hws]⟩

end

/-- The text of a valid value that does not nest too deep is read as some value. -/
theorem exists_parse_compact {v : Json} (hv : v.Valid) (hheight : v.height ≤ maxNesting) :
    ∃ stored, parse? v.compact = some stored := by
  obtain ⟨d, hecho, hvalue⟩ := exists_echo v hv
  obtain ⟨stored, hstored⟩ := hvalue maxNesting hheight
  refine ⟨stored, ?_⟩
  unfold parse?
  rw [Document.parse_compact_eq_echo, hecho, Option.bind_some, hstored]

/-! ## Members of a stored object -/

theorem get_of_echo {fields : Fields} {ds : List (Option String × Document)} {fs : Fields}
    {limit : Nat} (hecho : echoOfFields? fields = some ds)
    (hmembers : Document.members? limit ds = some fs) {key : String} {v : Json}
    (hget : fields.get? key = some v) (hv : v.Readable limit) : fs.get? key = some v := by
  induction fields generalizing ds fs with
  | nil => cases hget
  | cons p rest ih =>
      obtain ⟨k, u⟩ := p
      obtain ⟨d, hd, hmore⟩ := Option.bind_eq_some_iff.1 hecho
      obtain ⟨more, hrest, rfl⟩ := Option.map_eq_some_iff.1 hmore
      obtain ⟨w, hw, hvs⟩ := Option.bind_eq_some_iff.1 hmembers
      obtain ⟨ws, hws, hsame⟩ := Option.bind_eq_some_iff.1 hvs
      cases hsame
      rw [Fields.get?_cons] at hget ⊢
      split at hget
      · rename_i hk
        cases hget
        rw [Document.echo_of_legible v hv.legible, Option.some.injEq] at hd
        rw [← hd, Document.value_ofValue v limit hv.canonical hv.height] at hw
        rw [if_pos hk, hw]
      · rename_i hk
        rw [if_neg hk]
        exact ih hrest hws hget

/-- The object that is read from the text of an object with sorted members has those keys, and the
readable members as they were. -/
theorem object_of_parse {fields : Fields} {stored : Json} (hordered : fields.Ordered)
    (hparse : parse? (object fields).compact = some stored) :
    ∃ fs : Fields, stored = .object fs ∧ fs.Ordered ∧ fs.map Prod.fst = fields.map Prod.fst ∧
      ∀ key v, fields.get? key = some v → v.Readable (maxNesting - 1) → fs.get? key = some v := by
  obtain ⟨d, hd, hvalue⟩ := Option.bind_eq_some_iff.1 hparse
  rw [Document.parse_compact_eq_echo] at hd
  obtain ⟨ds, hecho, rfl⟩ := Option.map_eq_some_iff.1 hd
  obtain ⟨fs, hmembers, rfl⟩ := Option.map_eq_some_iff.1 hvalue
  have hkeys : fs.map Prod.fst = fields.map Prod.fst := keys_of_echo hecho hmembers
  have hfs : Fields.Ordered fs := by
    have hpairwise := List.pairwise_map.2 hordered
    rw [← hkeys] at hpairwise
    exact List.pairwise_map.1 hpairwise
  rw [Fields.sorted_eq_self hfs]
  exact ⟨fs, rfl, hfs, hkeys, fun key v hget hv => get_of_echo hecho hmembers hget hv⟩

end TaskQueue.Json
