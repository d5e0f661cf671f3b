import Mathlib.Tactic
import TaskQueue.Proofs.StoredText

/-!
# Values that are read from texts

The scanner hands on no number but those of numerals, the reader of documents puts nothing into a
document but what the tokens hold, and the value of a document has its numbers.  So every value that
is read from a text is valid, and it nests no deeper than a text may.
-/

namespace TaskQueue.Json

/-! ## Tokens -/

def Token.Valid : Token → Prop
  | .number n => ∀ m, n = some m → m.IsValid
  | _ => True

namespace Scanner

def Valid : Scanner → Prop
  | .word _ token => token.Valid
  | _ => True

/-- What a step of the scanner leads to. -/
def ValidStep (found : Option (Scanner × List Token)) : Prop :=
  ∀ next tokens, found = some (next, tokens) → next.Valid ∧ ∀ t ∈ tokens, t.Valid

theorem validStep_none : ValidStep none := by
  intro next tokens h
  cases h

theorem validStep_some {next : Scanner} {tokens : List Token} (hnext : next.Valid)
    (htokens : ∀ t ∈ tokens, t.Valid) : ValidStep (some (next, tokens)) := by
  intro next' tokens' h
  cases h
  exact ⟨hnext, htokens⟩

theorem ValidStep.ite {p : Prop} [Decidable p] {a b : Option (Scanner × List Token)}
    (ha : ValidStep a) (hb : ValidStep b) : ValidStep (if p then a else b) := by
  split
  · exact ha
  · exact hb

theorem ValidStep.map {f : α → Scanner × List Token} {found : Option α}
    (h : ∀ a, (f a).1.Valid ∧ ∀ t ∈ (f a).2, t.Valid) : ValidStep (found.map f) := by
  cases found with
  | none => exact validStep_none
  | some a => exact validStep_some (h a).1 (h a).2

theorem valid_start (c : Char) : ValidStep (start c) := by
  unfold start
  repeat' apply ValidStep.ite
  all_goals
    first
    | exact validStep_none
    | exact validStep_some trivial (by simp [Token.Valid])

theorem valid_numeralToken {read : List Char} {t : Token} (h : numeralToken? read = some t) :
    t.Valid := by
  obtain ⟨n, -, rfl⟩ := Option.map_eq_some_iff.1 h
  exact fun m hm => Numeral.isValid_number hm

/-- A token that is complete before the next one starts. -/
theorem valid_before {t : Token} (ht : t.Valid) {c : Char} :
    ValidStep (do
      let (next, tokens) ← start c
      some (next, t :: tokens)) := by
  intro next tokens h
  obtain ⟨⟨next', tokens'⟩, hstart, hsame⟩ := Option.bind_eq_some_iff.1 h
  cases hsame
  obtain ⟨hnext, htokens⟩ := valid_start c _ _ hstart
  exact ⟨hnext, List.forall_mem_cons.2 ⟨ht, htokens⟩⟩

theorem valid_step {s : Scanner} (hs : s.Valid) (c : Char) : ValidStep (s.step c) := by
  cases s with
  | between => exact valid_start c
  | word missing token =>
      cases missing with
      | nil => exact valid_before hs
      | cons m more =>
          apply ValidStep.ite
          · cases more with
            | nil => exact validStep_some trivial (List.forall_mem_singleton.2 hs)
            | cons _ _ => exact validStep_some hs (by simp)
          · exact validStep_none
  | numeral read =>
      apply ValidStep.ite
      · exact validStep_some trivial (by simp)
      · intro next tokens h
        obtain ⟨t, ht, hnext⟩ := Option.bind_eq_some_iff.1 h
        exact valid_before (valid_numeralToken ht) _ _ hnext
  | text read =>
      apply ValidStep.ite
      · exact validStep_some trivial (by simp [Token.Valid])
      apply ValidStep.ite
      · exact validStep_some trivial (by simp)
      apply ValidStep.ite
      · exact validStep_none
      · exact validStep_some trivial (by simp)
  | escaped read =>
      apply ValidStep.ite
      · exact validStep_some trivial (by simp)
      · exact ValidStep.map fun d => ⟨trivial, by simp⟩
  | unit read digits value =>
      apply ValidStep.map
      intro d
      simp only
      split <;> exact ⟨trivial, by simp⟩

theorem valid_run {s : Scanner} (hs : s.Valid) {cs : List Char} {tokens : List Token}
    (h : s.run cs = some tokens) : ∀ t ∈ tokens, t.Valid := by
  induction cs generalizing s tokens with
  | nil =>
      cases s with
      | between =>
          cases h
          simp
      | numeral read =>
          obtain ⟨t, ht, rfl⟩ := Option.map_eq_some_iff.1 h
          exact List.forall_mem_singleton.2 (valid_numeralToken ht)
      | _ => cases h
  | cons c cs ih =>
      obtain ⟨⟨next, found⟩, hstep, hmore⟩ := Option.bind_eq_some_iff.1 h
      obtain ⟨more, hrest, rfl⟩ := Option.map_eq_some_iff.1 hmore
      obtain ⟨hnext, hfound⟩ := valid_step hs c _ _ hstep
      exact List.forall_mem_append.2 ⟨hfound, ih hnext hrest⟩

end Scanner

/-! ## Documents -/

namespace Document

/-- Whether every number in a document that has a value is valid. -/
inductive Valid : Document → Prop where
  | null : Valid .null
  | bool (b : Bool) : Valid (.bool b)
  | number {n : Option Number} (h : ∀ m, n = some m → m.IsValid) : Valid (.number n)
  | text (s : Option String) : Valid (.text s)
  | array {items : List Document} (h : ∀ d ∈ items, Valid d) : Valid (.array items)
  | object {fields : List (Option String × Document)} (h : ∀ p ∈ fields, Valid p.2) :
      Valid (.object fields)

def Frame.Valid : Frame → Prop
  | .array items => ∀ d ∈ items, d.Valid
  | .object fields _ => ∀ p ∈ fields, p.2.Valid

def Expecting.Valid : Expecting → Prop
  | .firstKey fields | .key fields | .colon fields _ => ∀ p ∈ fields, p.2.Valid
  | .nothing whole => whole.Valid
  | _ => True

namespace Reader

structure Valid (r : Reader) : Prop where
  stack : ∀ f ∈ r.stack, f.Valid
  expecting : r.expecting.Valid

theorem valid_accept {stack : List Frame} (hstack : ∀ f ∈ stack, f.Valid) {d : Document}
    (hd : d.Valid) : (accept stack d).Valid := by
  cases stack with
  | nil => exact ⟨by simp [accept], hd⟩
  | cons frame rest =>
      obtain ⟨hframe, hrest⟩ := List.forall_mem_cons.1 hstack
      cases frame with
      | array items =>
          exact ⟨List.forall_mem_cons.2 ⟨List.forall_mem_cons.2 ⟨hd, hframe⟩, hrest⟩, trivial⟩
      | object fields key =>
          exact ⟨List.forall_mem_cons.2 ⟨List.forall_mem_cons.2 ⟨hd, hframe⟩, hrest⟩, trivial⟩

theorem valid_openValue {stack : List Frame} (hstack : ∀ f ∈ stack, f.Valid) {t : Token}
    (ht : t.Valid) {r : Reader} (h : openValue stack t = some r) : r.Valid := by
  cases t with
  | null =>
      cases h
      exact valid_accept hstack .null
  | bool b =>
      cases h
      exact valid_accept hstack (.bool b)
  | number n =>
      cases h
      exact valid_accept hstack (.number ht)
  | text s =>
      cases h
      exact valid_accept hstack (.text s)
  | openArray =>
      cases h
      exact ⟨List.forall_mem_cons.2 ⟨by simp [Frame.Valid], hstack⟩, trivial⟩
  | openObject =>
      cases h
      exact ⟨hstack, by simp [Expecting.Valid]⟩
  | _ => cases h

theorem valid_array {items : List Document} (h : ∀ d ∈ items, d.Valid) :
    (Document.array items.reverse).Valid :=
  .array fun d hd => h d (List.mem_reverse.1 hd)

theorem valid_object {fields : List (Option String × Document)} (h : ∀ p ∈ fields, p.2.Valid) :
    (Document.object fields.reverse).Valid :=
  .object fun p hp => h p (List.mem_reverse.1 hp)

theorem valid_step {r next : Reader} (hr : r.Valid) {t : Token} (ht : t.Valid)
    (h : r.step t = some next) : next.Valid := by
  obtain ⟨stack, expecting⟩ := r
  obtain ⟨hstack, hexpecting⟩ := hr
  simp only at hstack hexpecting
  cases expecting with
  | value => exact valid_openValue hstack ht h
  | firstItem =>
      unfold step at h
      simp only at h
      split at h
      · cases h
        obtain ⟨hframe, hrest⟩ := List.forall_mem_cons.1 hstack
        exact valid_accept hrest (valid_array hframe)
      · exact valid_openValue hstack ht h
  | firstKey fields =>
      cases t with
      | closeObject =>
          cases h
          exact valid_accept hstack (valid_object hexpecting)
      | text key =>
          cases h
          exact ⟨hstack, hexpecting⟩
      | _ => cases h
  | key fields =>
      cases t with
      | text key =>
          cases h
          exact ⟨hstack, hexpecting⟩
      | _ => cases h
  | colon fields key =>
      cases t with
      | colon =>
          cases h
          exact ⟨List.forall_mem_cons.2 ⟨hexpecting, hstack⟩, trivial⟩
      | _ => cases h
  | separator =>
      unfold step at h
      simp only at h
      split at h
      · cases h
        exact ⟨hstack, trivial⟩
      · cases h
        obtain ⟨hframe, hrest⟩ := List.forall_mem_cons.1 hstack
        exact valid_accept hrest (valid_array hframe)
      · cases h
        obtain ⟨hframe, hrest⟩ := List.forall_mem_cons.1 hstack
        exact ⟨hrest, hframe⟩
      · cases h
        obtain ⟨hframe, hrest⟩ := List.forall_mem_cons.1 hstack
        exact valid_accept hrest (valid_object hframe)
      · cases h
  | nothing whole => cases h

theorem valid_run {r last : Reader} (hr : r.Valid) {tokens : List Token}
    (htokens : ∀ t ∈ tokens, t.Valid) (h : r.run tokens = some last) : last.Valid := by
  induction tokens generalizing r with
  | nil =>
      cases h
      exact hr
  | cons t rest ih =>
      obtain ⟨ht, hrest⟩ := List.forall_mem_cons.1 htokens
      obtain ⟨next, hstep, hmore⟩ := Option.bind_eq_some_iff.1 h
      exact ih (valid_step hr ht hstep) hrest hmore

end Reader

theorem valid_of_parse {s : String} {d : Document} (h : parse? s = some d) : d.Valid := by
  obtain ⟨tokens, hscan, hread⟩ := Option.bind_eq_some_iff.1 h
  obtain ⟨last, hrun, hwhole⟩ := Option.bind_eq_some_iff.1 hread
  have htokens : ∀ t ∈ tokens, t.Valid := Scanner.valid_run (s := .between) trivial hscan
  have hfirst : (Reader.mk [] .value).Valid := ⟨by simp, trivial⟩
  have hlast := Reader.valid_run hfirst htokens hrun
  obtain ⟨stack, expecting⟩ := last
  cases expecting with
  | nothing whole =>
      cases hwhole
      exact hlast.expecting
  | _ => cases hwhole

end Document

/-! ## Values -/

theorem Fields.mem_of_mem_sorted {fields : Fields} {p : String × Json} (h : p ∈ fields.sorted) :
    p ∈ fields := by
  have hfold : ∀ (fields acc : Fields),
      p ∈ fields.foldl (fun acc p => insert p.1 p.2 acc) acc → p ∈ acc ∨ p ∈ fields := by
    intro fields
    induction fields with
    | nil => exact fun _ hp => Or.inl hp
    | cons q rest ih =>
        intro acc hp
        rcases ih _ hp with hp | hp
        · rcases mem_insert hp with hp | hp
          · exact Or.inr (hp ▸ List.mem_cons_self)
          · exact Or.inl hp
        · exact Or.inr (List.mem_cons_of_mem q hp)
  rcases hfold fields [] h with hp | hp
  · cases hp
  · exact hp

mutual

/-- The value of a valid document is valid and nests no deeper than allowed. -/
theorem valid_of_value : ∀ (d : Document) (limit : Nat) (v : Json), d.Valid →
    d.value? limit = some v → v.Valid ∧ v.height ≤ limit
  | .null, limit, v, _, h => by
      cases h
      exact ⟨trivial, Nat.zero_le _⟩
  | .bool b, limit, v, _, h => by
      cases h
      exact ⟨trivial, Nat.zero_le _⟩
  | .text s, limit, v, _, h => by
      obtain ⟨text, -, rfl⟩ := Option.map_eq_some_iff.1 h
      exact ⟨trivial, Nat.zero_le _⟩
  | .number n, limit, v, hd, h => by
      cases hd with
      | number hvalid =>
          obtain ⟨m, hm, rfl⟩ := Option.map_eq_some_iff.1 h
          exact ⟨hvalid m hm, Nat.zero_le _⟩
  | .array items, limit, v, hd, h => by
      cases hd with
      | array hitems =>
          cases limit with
          | zero => cases h
          | succ limit =>
              obtain ⟨vs, hvs, rfl⟩ := Option.map_eq_some_iff.1 h
              obtain ⟨hvalid, hheight⟩ := valid_of_values items limit vs hitems hvs
              exact ⟨hvalid, Nat.succ_le_succ hheight⟩
  | .object fields, limit, v, hd, h => by
      cases hd with
      | object hfields =>
          cases limit with
          | zero => cases h
          | succ limit =>
              obtain ⟨fs, hfs, rfl⟩ := Option.map_eq_some_iff.1 h
              have hmembers := valid_of_members fields limit fs hfields hfs
              constructor
              · rw [Valid, validFields_iff]
                exact fun p hp => (hmembers p (Fields.mem_of_mem_sorted hp)).1
              · rw [height]
                have hheight := (heightOfFields_le_iff (Fields.sorted fs) limit).2 fun p hp =>
                  (hmembers p (Fields.mem_of_mem_sorted hp)).2
                omega

theorem valid_of_values : ∀ (items : List Document) (limit : Nat) (vs : List Json),
    (∀ d ∈ items, d.Valid) → Document.values? limit items = some vs →
    ValidItems vs ∧ heightOfItems vs ≤ limit
  | [], limit, vs, _, h => by
      cases h
      exact ⟨trivial, Nat.zero_le _⟩
  | d :: rest, limit, vs, hitems, h => by
      obtain ⟨hd, hrest⟩ := List.forall_mem_cons.1 hitems
      obtain ⟨v, hv, hmore⟩ := Option.bind_eq_some_iff.1 h
      obtain ⟨ws, hws, hsame⟩ := Option.bind_eq_some_iff.1 hmore
      cases hsame
      obtain ⟨hvalid, hheight⟩ := valid_of_value d limit v hd hv
      obtain ⟨hvalids, hheights⟩ := valid_of_values rest limit ws hrest hws
      exact ⟨⟨hvalid, hvalids⟩, Nat.max_le.2 ⟨hheight, hheights⟩⟩

theorem valid_of_members : ∀ (fields : List (Option String × Document)) (limit : Nat)
    (fs : Fields), (∀ p ∈ fields, p.2.Valid) → Document.members? limit fields = some fs →
    ∀ p ∈ fs, p.2.Valid ∧ p.2.height ≤ limit
  | [], limit, fs, _, h => by
      cases h
      simp
  | (key, d) :: rest, limit, fs, hfields, h => by
      obtain ⟨hd, hrest⟩ := List.forall_mem_cons.1 hfields
      obtain ⟨k, -, hmore⟩ := Option.bind_eq_some_iff.1 h
      obtain ⟨v, hv, hmore⟩ := Option.bind_eq_some_iff.1 hmore
      obtain ⟨ws, hws, hsame⟩ := Option.bind_eq_some_iff.1 hmore
      cases hsame
      exact List.forall_mem_cons.2
        ⟨valid_of_value d limit v hd hv, valid_of_members rest limit ws hrest hws⟩

end

theorem valid_of_parse {s : String} {v : Json} (h : parse? s = some v) :
    v.Valid ∧ v.height ≤ maxNesting := by
  obtain ⟨d, hd, hvalue⟩ := Option.bind_eq_some_iff.1 h
  exact valid_of_value d maxNesting v (Document.valid_of_parse hd) hvalue

end TaskQueue.Json
