import Mathlib.Tactic
import TaskQueue.Proofs.ResultRoundTrip

/-!
# Reading written patches back

The text of a patch is read as that patch, null members of its extra object included, with one
exception: a patch that clears the message is written like one that keeps it.  So a run that is
reset by way of a text keeps the message of the run before.
-/

namespace TaskQueue

open Json (Decoder Document maxNesting)
open Log (counterBound)

namespace MessageEdit

/-- What is left of an edit in its text. -/
def readBack : MessageEdit → MessageEdit
  | .keep | .clear => .keep
  | .set message => .set message

theorem readBack_eq_self_iff {e : MessageEdit} : e.readBack = e ↔ e ≠ .clear := by
  cases e <;> simp [readBack]

theorem apply_readBack_iff (e : MessageEdit) (old : Option String) :
    e.readBack.apply old = e.apply old ↔ (e = .clear → old = none) := by
  cases e <;> simp [readBack, apply]

theorem ofOption_ne_clear (message : Option String) : ofOption message ≠ .clear := by
  cases message <;> simp [ofOption]

theorem legible_encode (e : MessageEdit) : e.encode.Legible := by
  cases e <;> simp [encode, Json.Legible]

/-- The text of an edit has a message exactly if one is set. -/
theorem decoder_ofValue (e : MessageEdit) (limit : Nat) :
    (Decoder.optional Decoder.text limit (Document.ofValue e.encode)).map ofOption =
      some e.readBack := by
  cases e <;> rfl

end MessageEdit

namespace ResultPatch

/-- What is left of a patch in its text. -/
def readBack (p : ResultPatch) : ResultPatch :=
  { p with message := p.message.readBack }

/-- Whether the counter of the patch is in range and its extra members can be read back. -/
structure Writable (p : ResultPatch) : Prop where
  seq : ∀ n, p.seq = some n → n < counterBound
  extra : p.extra.AllReadable TaskResult.maxExtraHeight

theorem readBack_eq_self_iff {p : ResultPatch} : p.readBack = p ↔ p.message ≠ .clear := by
  rw [← MessageEdit.readBack_eq_self_iff]
  constructor
  · exact fun h => congrArg ResultPatch.message h
  · intro h
    unfold readBack
    rw [h]

/-- The parts of a patch other than its message are applied as before. -/
theorem apply_readBack_iff (p : ResultPatch) (r : TaskResult) :
    r.apply p.readBack = r.apply p ↔ (p.message = .clear → r.message = none) := by
  rw [← MessageEdit.apply_readBack_iff]
  constructor
  · exact fun h => congrArg TaskResult.message h
  · intro h
    unfold TaskResult.apply readBack
    rw [h]

/-! ## From a patch to its text and back -/

theorem legible_logs (logs : Option (List String)) :
    ((logs.map Json.texts).getD .null).Legible := by
  cases logs with
  | none => trivial
  | some lines => exact Json.legibleItems_texts lines

theorem legible_encode {p : ResultPatch} (hp : p.Writable) : p.encode.Legible := by
  have hseq : ((p.seq.map Json.nat).getD .null).Legible := by
    cases hcount : p.seq with
    | none => trivial
    | some n => exact Json.Number.survives_natural (hp.seq n hcount)
  have hextra := (Json.Object.readable_toJson hp.extra).legible
  simp [encode, Json.Legible, Json.LegibleFields, legible_logs, hseq, Json.legible_ofText,
    MessageEdit.legible_encode, hextra]

theorem decoder_ofValue {p : ResultPatch} {limit : Nat}
    (hseq : ∀ n, p.seq = some n → n < counterBound)
    (hextra : p.extra.toJson.Readable (limit + 1)) :
    decoder (limit + 2) (Document.ofValue p.encode) = some p.readBack := by
  have hlogs : Decoder.optional (Decoder.list Decoder.text) (limit + 1)
      (Document.ofValue ((p.logs.map Json.texts).getD .null)) = some p.logs := by
    cases p.logs with
    | none => rfl
    | some lines =>
        show (Decoder.list Decoder.text (limit + 1) (Document.ofValue (Json.texts lines))).map some = _
        rw [Json.Decoder.list_texts]
        rfl
  have hcount : Decoder.optional (Decoder.natBelow counterBound) (limit + 1)
      (Document.ofValue ((p.seq.map Json.nat).getD .null)) = some p.seq := by
    cases h : p.seq with
    | none => rfl
    | some n =>
        show (Decoder.natBelow counterBound (limit + 1) (Document.ofValue (Json.nat n))).map some = _
        rw [Json.Decoder.natBelow_nat (hseq n h)]
        rfl
  have houtput := Json.Decoder.optional_ofText (limit + 1) p.output
  have hprovider := Json.Decoder.optional_ofText (limit + 1) p.providerRef
  obtain ⟨message, hmessage, hedit⟩ :=
    Option.map_eq_some_iff.1 (MessageEdit.decoder_ofValue p.message (limit + 1))
  have hextra := Json.Decoder.object_toJson hextra
  generalize hmembers : Document.ofValue p.encode = members
  simp only [encode, Document.ofValue, Document.ofFields] at hmembers
  subst hmembers
  simp [decoder, Decoder.record, Decoder.membersNamed, Decoder.Record.defaulted,
    Decoder.Record.get?, hlogs, hcount, houtput, hprovider, hmessage, hedit, hextra, readBack]

theorem decoder_encode {p : ResultPatch} (hp : p.Writable) :
    decoder.ofText? p.encode.compact = some p.readBack := by
  rw [Json.ofText_compact decoder (legible_encode hp)]
  exact decoder_ofValue hp.seq (Json.Object.readable_toJson hp.extra)

theorem lt_of_optional_natBelow {bound limit n : Nat} {d : Document}
    (h : Decoder.optional (Decoder.natBelow bound) limit d = some (some n)) : n < bound := by
  cases d with
  | number m =>
      obtain ⟨k, hk, hn⟩ := Option.map_eq_some_iff.1 h
      obtain ⟨_, -, hbelow⟩ := Option.bind_eq_some_iff.1 hk
      cases hn
      exact Json.Number.lt_of_natBelow hbelow
  | null | bool b | text s | array items | object fields => cases h

/-- Whatever a patch holds, what is read from its text clears no message, has a counter in range,
and has the extra members as they are read. -/
theorem parts_of_read {p q : ResultPatch} (h : decoder.ofText? p.encode.compact = some q) :
    q.message ≠ .clear ∧ (∀ n, q.seq = some n → n < counterBound) ∧
      ∃ d, p.extra.toJson.echo? = some d ∧
        Decoder.object (TaskResult.maxExtraHeight + 1) d = some q.extra := by
  unfold Decoder.ofText? at h
  rw [Document.parse_compact_eq_echo] at h
  have hlogs := Document.echo_of_legible _ (legible_logs p.logs)
  have houtput := Document.echo_of_legible _ (Json.legible_ofText p.output)
  have hprovider := Document.echo_of_legible _ (Json.legible_ofText p.providerRef)
  have hmessage := Document.echo_of_legible _ p.message.legible_encode
  simp only [encode, Json.echo?, Json.echoOfFields?, hlogs, houtput, hprovider, hmessage] at h
  cases hseq : ((p.seq.map Json.nat).getD .null).echo? with
  | none => simp [hseq] at h
  | some counter =>
      cases hextra : p.extra.toJson.echo? with
      | none => simp [hextra] at h
      | some extra =>
          simp [hseq, hextra, decoder, Decoder.record, Decoder.membersNamed, maxNesting,
            Decoder.Record.defaulted, Decoder.Record.get?, Option.bind_eq_some_iff] at h
          obtain ⟨-, -, seq, hcount, -, -, -, -, message, -, o, ho, rfl⟩ := h
          refine ⟨MessageEdit.ofOption_ne_clear message, ?_, extra, rfl, ho⟩
          rintro n rfl
          exact lt_of_optional_natBelow hcount

/-- If the counter and the extra members come back, nothing stood in the way of writing them. -/
theorem writable_of_read {p q : ResultPatch} (h : decoder.ofText? p.encode.compact = some q)
    (hseq : q.seq = p.seq) (hextra : q.extra = p.extra) : p.Writable := by
  obtain ⟨-, hcount, d, hecho, hread⟩ := parts_of_read h
  rw [hextra] at hread
  rw [hseq] at hcount
  exact ⟨hcount, Json.Object.allReadable_of_toJson (Json.Object.readable_of_read hecho hread)⟩

/-- A patch comes back from its text exactly if its counter and its extra members can be written and
it does not clear the message.  A patch that clears it comes back as one that keeps it, and so does
something else to exactly those results that have a message. -/
theorem text_comes_back_iff (p : ResultPatch) :
    (decoder.ofText? p.encode.compact = some p ↔ p.Writable ∧ p.message ≠ .clear) ∧
      (decoder.ofText? p.encode.compact = some p.readBack ↔ p.Writable) ∧
      ∀ r : TaskResult, r.apply p.readBack = r.apply p ↔ (p.message = .clear → r.message = none) := by
  refine ⟨⟨fun h => ?_, fun ⟨hp, hmessage⟩ => ?_⟩, ⟨fun h => ?_, decoder_encode⟩,
    apply_readBack_iff p⟩
  · exact ⟨writable_of_read h rfl rfl, (parts_of_read h).1⟩
  · rw [decoder_encode hp, readBack_eq_self_iff.2 hmessage]
  · exact writable_of_read h rfl rfl

/-- The patch that resets a run does not come back from its text, which is that of the patch that
leaves the message alone: what comes back leaves the message of the run before in place. -/
theorem not_comes_back_runReset :
    runReset.encode.compact = { runReset with message := .keep }.encode.compact ∧
      decoder.ofText? runReset.encode.compact = some { runReset with message := .keep } ∧
      decoder.ofText? runReset.encode.compact ≠ some runReset ∧
      ({ TaskResult.empty with message := some "boom" }.apply
        { runReset with message := .keep }).message = some "boom" ∧
      ({ TaskResult.empty with message := some "boom" }.apply runReset).message = none := by
  have hwritable : runReset.Writable := by
    refine ⟨?_, Json.Object.allReadable_empty _⟩
    rintro n ⟨⟩
    decide
  have hread := decoder_encode hwritable
  refine ⟨rfl, hread, ?_, rfl, rfl⟩
  rw [hread]
  decide

end ResultPatch

end TaskQueue
