import Mathlib.Tactic
import TaskQueue.Proofs.InstantText
import TaskQueue.Proofs.OpenHours
import TaskQueue.Proofs.ParsedValue
import TaskQueue.Proofs.ResultRoundTrip

/-!
# Schedules inside payloads

A schedule that is put into a payload is found there again if its hours are hours of the day, also
after the payload has been stored as a text and read back, whatever else the payload holds.
-/

namespace TaskQueue

open Json (Decoder Document Fields Object maxNesting)

/-! ## Members of sorted objects -/

namespace Json.Fields

theorem get?_append (fields others : Fields) (key : String) :
    get? (fields ++ others) key = (get? fields key).or (get? others key) := by
  induction fields with
  | nil => rw [List.nil_append, get?_nil, Option.none_or]
  | cons p rest ih =>
      obtain ⟨k, v⟩ := p
      rw [List.cons_append, get?_cons, get?_cons, ih]
      split <;> simp

theorem get?_eq_none {fields : Fields} {key : String} (h : key ∉ fields.map Prod.fst) :
    fields.get? key = none := by
  induction fields with
  | nil => rfl
  | cons p rest ih =>
      obtain ⟨k, v⟩ := p
      rw [List.map_cons, List.mem_cons, not_or] at h
      rw [get?_cons, if_neg (Ne.symm h.1), ih h.2]

/-- Sorting members with different keys changes no member. -/
theorem get?_sorted {fields : Fields} (hkeys : (fields.map Prod.fst).Nodup) (key : String) :
    fields.sorted.get? key = fields.get? key := by
  have hfold : ∀ (fields acc : Fields), (fields.map Prod.fst).Nodup →
      get? (fields.foldl (fun acc p => insert p.1 p.2 acc) acc) key =
        (fields.get? key).or (acc.get? key) := by
    intro fields
    induction fields with
    | nil => intro acc _; rw [List.foldl_nil, get?_nil, Option.none_or]
    | cons p rest ih =>
        intro acc hnodup
        obtain ⟨k, v⟩ := p
        obtain ⟨hk, hrest⟩ := List.nodup_cons.1 hnodup
        rw [List.foldl_cons, ih _ hrest, get?_insert, get?_cons]
        split
        · rename_i heq
          rw [get?_eq_none (heq ▸ hk), Option.none_or, Option.some_or]
        · rfl
  have h := hfold fields [] hkeys
  rwa [get?_nil, Option.or_none] at h

end Json.Fields

/-! ## The members of a schedule -/

namespace Schedule

open Time (Instant)

theorem get?_given (name : String) (v : Option Json) (key : String) :
    Fields.get? (given name v) key = if name = key then v else none := by
  cases v with
  | none => simp [given]
  | some v => simp [given, Fields.get?_cons]

/-- The members of a schedule in the order in which they are written. -/
def members (s : Schedule) : Fields :=
  given "source" (s.source.map fun source => .text source.name) ++
    [("startHour", .nat s.startHour), ("endHour", .nat s.endHour),
     ("override", .bool s.overridden)] ++
    given "overrideAt" (s.overriddenAt.map fun t => .text t.text) ++
    given "dedupRuleId" (s.dedupRule.map .text)

theorem normal_encode (s : Schedule) : s.encode.normal = .object s.members.sorted := by
  obtain ⟨source, startHour, endHour, overridden, time, rule⟩ := s
  cases source <;> cases time <;> cases rule <;> rfl

theorem nodup_members (s : Schedule) : (s.members.map Prod.fst).Nodup := by
  obtain ⟨source, startHour, endHour, overridden, time, rule⟩ := s
  cases source <;> cases time <;> cases rule <;> simp [members, given]

theorem get?_members (s : Schedule) :
    Fields.get? s.members.sorted "source" = s.source.map (fun source => .text source.name) ∧
      Fields.get? s.members.sorted "startHour" = some (.nat s.startHour) ∧
      Fields.get? s.members.sorted "endHour" = some (.nat s.endHour) ∧
      Fields.get? s.members.sorted "override" = some (.bool s.overridden) ∧
      Fields.get? s.members.sorted "overrideAt" = s.overriddenAt.map (fun t => .text t.text) ∧
      Fields.get? s.members.sorted "dedupRuleId" = s.dedupRule.map .text := by
  simp only [Fields.get?_sorted s.nodup_members]
  unfold members
  simp [Fields.get?_append, get?_given, Fields.get?_cons]

/-- Whether a schedule has hours of 32 bits and a time that can be written with four digits of a
year. -/
structure Writable (s : Schedule) : Prop where
  startHour : s.startHour < 2 ^ 32
  endHour : s.endHour < 2 ^ 32
  overriddenAt : ∀ t, s.overriddenAt = some t → t.Dated

theorem ofName_name (source : ScheduleSource) : ScheduleSource.ofName source.name = source := by
  cases source <;> decide

/-- An optional field that is left out or written as a text is read as it was. -/
theorem defaulted_text {α : Type} {r : Decoder.Record} {limit position : Nat} {name : String}
    {decode : Decoder α} {a : Option α} (write : α → String)
    (hget : r.get? position name = (a.map fun b => Json.text (write b)).map Document.ofValue)
    (hread : ∀ b, a = some b → decode limit (.text (some (write b))) = some b) :
    r.defaulted limit position name (.optional decode) none = some a := by
  unfold Decoder.Record.defaulted
  rw [hget]
  cases a with
  | none => rfl
  | some b =>
      have hb := hread b rfl
      simp only [Option.map_some, Document.ofValue, Decoder.optional, hb]

/-- The members of a schedule are read as that schedule. -/
theorem decoder_normal {s : Schedule} (hs : s.Writable) :
    Decoder.ofValue? decoder s.encode.normal = some s := by
  obtain ⟨hsource, hstart, hend, hoverridden, htime, hrule⟩ := s.get?_members
  have hframe := fun limit => Decoder.record_object (Fields.ordered_sorted s.members)
    ["source", "startHour", "endHour", "override", "overrideAt", "dedupRuleId"] limit
  have hget : ∀ position name,
      (Decoder.Record.named (Document.ofFields s.members.sorted)).get? position name =
        (Fields.get? s.members.sorted name).map Document.ofValue :=
    fun _ name => Decoder.head_membersNamed name s.members.sorted
  rw [normal_encode]
  unfold Decoder.ofValue? decoder
  rw [Json.height, hframe]
  generalize Decoder.Record.named (Document.ofFields s.members.sorted) = r at hget ⊢
  generalize Json.heightOfFields s.members.sorted = limit
  have hsource' : r.defaulted limit 0 "source" (.optional ScheduleSource.decoder) none =
      some s.source := by
    apply defaulted_text ScheduleSource.name
    · rw [hget, hsource]
    · intro b _
      simp [ScheduleSource.decoder, Decoder.caseName, ofName_name]
  have hstart' : r.required limit 1 "startHour" (.natBelow (2 ^ (32 : Nat))) =
      some s.startHour := by
    rw [Decoder.Record.required, hget, hstart, Option.map_some, Option.bind_some]
    exact Decoder.natBelow_nat hs.startHour limit
  have hend' : r.required limit 2 "endHour" (.natBelow (2 ^ (32 : Nat))) = some s.endHour := by
    rw [Decoder.Record.required, hget, hend, Option.map_some, Option.bind_some]
    exact Decoder.natBelow_nat hs.endHour limit
  have hoverridden' : r.defaulted limit 3 "override" .bool false = some s.overridden := by
    rw [Decoder.Record.defaulted, hget, hoverridden]
    rfl
  have htime' : r.defaulted limit 4 "overrideAt" (.optional instantDecoder) none =
      some s.overriddenAt := by
    apply defaulted_text Instant.text
    · rw [hget, htime]
    · intro t ht
      simp [instantDecoder, Decoder.parsed, Decoder.text,
        Instant.lenient_text (hs.overriddenAt t ht)]
  have hrule' : r.defaulted limit 5 "dedupRuleId" (.optional .text) none = some s.dedupRule := by
    apply defaulted_text id
    · rw [hget, hrule]
      rfl
    · exact fun _ _ => rfl
  simp [hsource', hstart', hend', hoverridden', htime', hrule']

/-! ## A schedule among other members -/

/-- Whether a value is neither a container nor a number that could come back as another one. -/
structure IsPlain (v : Json) : Prop where
  legible : v.Legible
  valid : v.Valid
  canonical : v.Canonical
  height : v.height = 0

theorem isPlain_nat {n : Nat} (hn : n < 2 ^ 32) : IsPlain (.nat n) where
  legible := Json.Number.survives_natural (by omega)
  valid := show n < 2 ^ 64 by omega
  canonical := trivial
  height := rfl

theorem isPlain_text (text : String) : IsPlain (.text text) :=
  ⟨trivial, trivial, trivial, rfl⟩

theorem isPlain_given {name : String} {v : Option Json} (hv : ∀ w, v = some w → IsPlain w) :
    ∀ p ∈ given name v, IsPlain p.2 := by
  cases v with
  | none => simp [given]
  | some w => exact List.forall_mem_singleton.2 (hv w rfl)

theorem isPlain_members {s : Schedule} (hs : s.Writable) : ∀ p ∈ s.members.sorted, IsPlain p.2 := by
  have hbool : IsPlain (.bool s.overridden) := ⟨trivial, trivial, trivial, rfl⟩
  have hgiven : ∀ {α : Type} (name : String) (a : Option α) (write : α → String),
      ∀ p ∈ given name (a.map fun b => .text (write b)), IsPlain p.2 := by
    intro α name a write
    apply isPlain_given
    intro w hw
    obtain ⟨b, -, rfl⟩ := Option.map_eq_some_iff.1 hw
    exact isPlain_text _
  intro p hp
  have hmember := Fields.mem_of_mem_sorted hp
  unfold members at hmember
  simp only [List.mem_append, List.mem_cons, List.not_mem_nil, or_false] at hmember
  rcases hmember with ((hmember | rfl | rfl | rfl) | hmember) | hmember
  · exact hgiven _ _ _ p hmember
  · exact isPlain_nat hs.startHour
  · exact isPlain_nat hs.endHour
  · exact hbool
  · exact hgiven _ _ _ p hmember
  · exact hgiven _ _ id p hmember

theorem readable_normal {s : Schedule} (hs : s.Writable) : s.encode.normal.Readable 1 := by
  have hplain := isPlain_members hs
  rw [normal_encode]
  constructor
  · rw [Json.Legible, Json.legibleFields_iff]
    exact fun p hp => (hplain p hp).legible
  · rw [Json.Canonical, Json.canonicalFields_iff]
    exact ⟨Fields.ordered_sorted _, fun p hp => (hplain p hp).canonical⟩
  · rw [Json.height]
    have hfields := (Json.heightOfFields_le_iff s.members.sorted 0).2 fun p hp =>
      (hplain p hp).height.le
    omega

theorem valid_normal {s : Schedule} (hs : s.Writable) : s.encode.normal.Valid := by
  rw [normal_encode, Json.Valid, Json.validFields_iff]
  exact fun p hp => (isPlain_members hs p hp).valid

theorem ofPayload_of_member {s : Schedule} (hs : s.Writable) {payload : Json}
    (hget : payload.get? key = some s.encode.normal) :
    ofPayload? payload = if s.startHour < 24 ∧ s.endHour < 24 then some s else none := by
  rw [ofPayload_of_get hget, decoder_normal hs, Option.filter_some]
  exact if_congr decide_eq_true_iff rfl rfl

/-- An object with a member put in is stored as a text from which it can be read. -/
theorem exists_stored {s : Schedule} (hs : s.Writable) {fields : Fields} (hordered : fields.Ordered)
    (hvalid : (Json.object fields).Valid) (hheight : (Json.object fields).height ≤ maxNesting) :
    ∃ stored, Json.parse? (Json.object (Fields.insert key s.encode.normal fields)).compact = some stored ∧
      stored.get? key = some s.encode.normal := by
  have hreadable := readable_normal hs
  have hvalid' : (Json.object (Fields.insert key s.encode.normal fields)).Valid := by
    rw [Json.Valid, Json.validFields_iff] at hvalid ⊢
    intro p hp
    rcases Fields.mem_insert hp with rfl | hp
    · exact valid_normal hs
    · exact hvalid p hp
  have hheight' : (Json.object (Fields.insert key s.encode.normal fields)).height ≤ maxNesting := by
    have hfields := (Json.heightOfFields_le_iff fields 126).1 (Nat.le_of_succ_le_succ hheight)
    apply Nat.succ_le_succ
    rw [Json.heightOfFields_le_iff]
    intro p hp
    rcases Fields.mem_insert hp with rfl | hp
    · exact hreadable.height.trans (by decide)
    · exact hfields p hp
  obtain ⟨stored, hstored⟩ := Json.exists_parse_compact hvalid' hheight'
  obtain ⟨fs, rfl, -, -, hmembers⟩ := Json.object_of_parse (hordered.insert _ _) hstored
  refine ⟨_, hstored, hmembers key _ ?_ ⟨hreadable.legible, hreadable.canonical, ?_⟩⟩
  · rw [Fields.get?_insert, if_pos rfl]
  · exact hreadable.height.trans (by decide)

/-- A schedule that is put into an object is found in it exactly if both hours are hours of the day,
and also in what is read from the text of the object. -/
theorem embedded_comes_back {s : Schedule} (hs : s.Writable) {others : Object}
    (hvalid : others.toJson.Valid) (hheight : others.toJson.height ≤ 127) :
    let payload := (others.insert "schedule" s.encode.normal).toJson
    let found := if s.startHour < 24 ∧ s.endHour < 24 then some s else none
    ofPayload? payload = found ∧
      ∃ stored, Json.parse? payload.compact = some stored ∧ ofPayload? stored = found := by
  intro payload found
  have hget : payload.get? key = some s.encode.normal := by
    change Fields.get? (Fields.insert key s.encode.normal others.fields) key = _
    rw [Fields.get?_insert, if_pos rfl]
  obtain ⟨stored, hparse, hstored⟩ := exists_stored hs others.ordered hvalid hheight
  exact ⟨ofPayload_of_member hs hget, stored, hparse, ofPayload_of_member hs hstored⟩

/-- An object with a schedule that cannot be read and a number that does not survive its text. -/
def worn : Object :=
  ⟨[("limit", .number (.real 0x7feffffffffffffe)), ("schedule", .text "nightly")], by decide⟩

/-- A schedule that was overridden in a leap second replaces the other one and comes back. -/
theorem embedded_comes_back_worn :
    let s : Schedule := ⟨some .chat, 22, 6, true, some ⟨59, 1500000000⟩, some "nightly"⟩
    let payload := (worn.insert "schedule" s.encode.normal).toJson
    ofPayload? worn.toJson = none ∧ ofPayload? payload = some s ∧
      ∃ stored, Json.parse? payload.compact = some stored ∧ ofPayload? stored = some s := by
  intro s payload
  have hs : s.Writable := by
    refine ⟨by decide, by decide, ?_⟩
    rintro t ⟨⟩
    decide
  have hvalid : worn.toJson.Valid :=
    ⟨(by decide : (0x7feffffffffffffe : UInt64).toNat / 2 ^ 52 % 2 ^ 11 < 2047), trivial, trivial⟩
  exact ⟨by decide, embedded_comes_back hs hvalid (by decide)⟩

end Schedule

end TaskQueue
