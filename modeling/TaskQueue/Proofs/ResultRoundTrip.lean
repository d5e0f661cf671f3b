import Mathlib.Tactic
import TaskQueue.Proofs.JsonRoundTrip
import TaskQueue.Task.Encoding

/-!
# Reading written results back

A result is storable if its counter is in range and its extra members can be read back.  The text
of a storable result is read as that result; the text of any other one may be refused, but it never
shows another log.  Changes keep a result storable when what they put in is storable.
-/

namespace TaskQueue

open Json (Decoder Document maxNesting)
open Log (counterBound)

namespace Json

theorem legibleItems_texts (lines : List String) : LegibleItems (lines.map .text) := by
  induction lines with
  | nil => simp [LegibleItems]
  | cons line rest ih => simp [LegibleItems, Legible, ih]

theorem legible_ofText (s : Option String) : (ofText? s).Legible := by
  cases s <;> simp [ofText?, Legible]

theorem Number.lt_of_natBelow {n : Number} {bound k : Nat} (h : n.natBelow? bound = some k) :
    k < bound := by
  cases n with
  | natural n =>
      obtain ⟨hn, hk⟩ := Option.ite_none_right_eq_some.1 h
      exact Option.some.inj hk ▸ hn
  | negative n | real bits => cases h

namespace Decoder

theorem list_texts (limit : Nat) (lines : List String) :
    Decoder.list Decoder.text (limit + 1) (Document.ofValue (texts lines)) = some lines := by
  have hitems : (Document.ofItems (lines.map .text)).mapM (Decoder.text limit) = some lines := by
    induction lines with
    | nil => rfl
    | cons line rest ih =>
        simp [Document.ofItems, Document.ofValue, Decoder.text, List.mapM_cons, ih]
  rw [texts, Document.ofValue]
  exact hitems

theorem optional_ofText (limit : Nat) (s : Option String) :
    Decoder.optional Decoder.text limit (Document.ofValue (Json.ofText? s)) = some s := by
  cases s <;> simp [Json.ofText?, Document.ofValue, Decoder.optional, Decoder.text]

theorem natBelow_nat {bound n : Nat} (hn : n < bound) (limit : Nat) :
    Decoder.natBelow bound limit (Document.ofValue (nat n)) = some n := by
  simp [nat, Document.ofValue, Decoder.natBelow, Number.natBelow?, hn]

theorem object_toJson {o : Object} {limit : Nat} (ho : o.toJson.Readable limit) :
    Decoder.object limit (Document.ofValue o.toJson) = some o := by
  have hvalue := Document.value_ofValue o.toJson limit ho.canonical ho.height
  unfold Object.toJson at hvalue ⊢
  rw [Document.ofValue] at hvalue ⊢
  simp [Decoder.object, hvalue, Object.ofFields_fields]

end Decoder

end Json

namespace TaskResult

/-- The number of containers that a member of the extra object may have: the text of a result has
two of its own around it. -/
def maxExtraHeight : Nat := maxNesting - 2

structure Storable (r : TaskResult) : Prop where
  seq : r.seq < counterBound
  extra : r.extra.AllReadable maxExtraHeight

theorem legible_encode {r : TaskResult} (hr : r.Storable) : r.encode.Legible := by
  have hseq : (Json.nat r.seq).Legible := Json.Number.survives_natural hr.seq
  have hextra := (Json.Object.readable_toJson hr.extra).legible
  simp [encode, Json.Legible, Json.LegibleFields, Json.texts, Json.legibleItems_texts,
    Json.legible_ofText, hseq, hextra]

theorem decoder_ofValue {r : TaskResult} {limit : Nat} (hseq : r.seq < counterBound)
    (hextra : r.extra.toJson.Readable (limit + 1)) :
    decoder (limit + 2) (Document.ofValue r.encode) = some r := by
  have hlogs := Json.Decoder.list_texts limit r.logs
  have hseq := Json.Decoder.natBelow_nat hseq (limit + 1)
  have hprovider := Json.Decoder.optional_ofText (limit + 1) r.providerRef
  have hmessage := Json.Decoder.optional_ofText (limit + 1) r.message
  have hextra := Json.Decoder.object_toJson hextra
  generalize hmembers : Document.ofValue r.encode = members
  simp only [encode, Document.ofValue, Document.ofFields] at hmembers
  subst hmembers
  simp [decoder, Decoder.record, Decoder.membersNamed, Decoder.Record.defaulted,
    Decoder.Record.get?, hlogs, hseq, hprovider, hmessage, hextra, Decoder.text]

theorem decoder_encode {r : TaskResult} (hr : r.Storable) :
    decoder.ofText? r.encode.compact = some r := by
  rw [Json.ofText_compact decoder (legible_encode hr)]
  exact decoder_ofValue hr.seq (Json.Object.readable_toJson hr.extra)

/-! ## What a text is read as -/

/-- Whatever a result holds, what is read from its text has its log, a counter in range, and the
extra members as they are read. -/
theorem parts_of_read {r s : TaskResult} (h : decoder.ofText? r.encode.compact = some s) :
    s.logs = r.logs ∧ s.seq = r.seq ∧ s.seq < counterBound ∧
      ∃ d, r.extra.toJson.echo? = some d ∧ Decoder.object (maxExtraHeight + 1) d = some s.extra := by
  unfold Decoder.ofText? at h
  rw [Document.parse_compact_eq_echo] at h
  have hlogs := Document.echo_of_legible (Json.texts r.logs)
    (by simp [Json.texts, Json.Legible, Json.legibleItems_texts])
  have hprovider := Document.echo_of_legible _ (Json.legible_ofText r.providerRef)
  have hmessage := Document.echo_of_legible _ (Json.legible_ofText r.message)
  simp only [encode, Json.echo?, Json.echoOfFields?, hlogs, hprovider, hmessage, Json.nat] at h
  cases hseq : Json.Scanner.echoed (.natural r.seq) with
  | none => simp [hseq] at h
  | some m =>
      cases hextra : r.extra.toJson.echo? with
      | none => simp [hextra] at h
      | some extra =>
          simp [hseq, hextra, decoder, Decoder.record, Decoder.membersNamed, maxNesting,
            Decoder.Record.defaulted, Decoder.Record.get?, Option.bind_eq_some_iff] at h
          obtain ⟨lines, hlines, seq, hcount, -, -, -, -, -, -, o, ho, rfl⟩ := h
          have hsame : lines = r.logs := by
            rw [Json.Decoder.list_texts 125] at hlines
            exact (Option.some.inj hlines).symm
          obtain ⟨k, -, hbelow⟩ := Option.bind_eq_some_iff.1 hcount
          exact ⟨hsame, Json.Scanner.natBelow_echoed hseq hcount, Json.Number.lt_of_natBelow hbelow,
            extra, rfl, ho⟩

/-- Whatever a result holds, a result that is read from its text has the same log. -/
theorem snapshot_of_read {r s : TaskResult} (h : decoder.ofText? r.encode.compact = some s) :
    s.snapshot = r.snapshot := by
  obtain ⟨hlogs, hseq, -⟩ := parts_of_read h
  exact congrArg₂ Log.Snapshot.mk hlogs hseq

/-- A result comes back from its text exactly if it is storable. -/
theorem decoder_encode_iff {r : TaskResult} :
    decoder.ofText? r.encode.compact = some r ↔ r.Storable := by
  constructor
  · intro h
    obtain ⟨-, -, hseq, d, hecho, hread⟩ := parts_of_read h
    exact ⟨hseq, Json.Object.allReadable_of_toJson (Json.Object.readable_of_read hecho hread)⟩
  · exact decoder_encode

/-! ## Changes that keep a result storable -/

theorem storable_empty : empty.Storable :=
  ⟨by decide, Json.Object.allReadable_empty _⟩

theorem Storable.apply {r : TaskResult} {p : ResultPatch} (hr : r.Storable)
    (hp : p.extra.AllReadable maxExtraHeight) (hseq : (r.apply p).seq < counterBound) :
    (r.apply p).Storable :=
  ⟨hseq, hr.extra.merge hp⟩

theorem Storable.applyFinal {r : TaskResult} {p : ResultPatch} (hr : r.Storable)
    (hp : p.extra.AllReadable maxExtraHeight) (hseq : (r.applyFinal p).seq < counterBound) :
    (r.applyFinal p).Storable :=
  ⟨hseq, hr.extra.merge hp⟩

theorem Storable.withLog {r : TaskResult} (hr : r.Storable) {s : Log.Snapshot}
    (hs : s.seq < counterBound) : (r.withLog s).Storable :=
  ⟨hs, hr.extra⟩

/-- A log that can be counted stays storable when lines are added to it. -/
theorem Storable.push {r : TaskResult} (hr : r.Storable) {lines : List String} {window : Nat}
    {s : Log.Snapshot} (hpush : r.snapshot.push? lines window = some s) :
    (r.withLog s).Storable := by
  unfold Log.Snapshot.push? at hpush
  split at hpush
  · rename_i hcount
    cases hpush
    refine hr.withLog ?_
    rcases hcount with hlines | hcount
    · simpa [hlines, snapshot] using hr.seq
    · exact hcount
  · cases hpush

theorem Storable.runReset {r : TaskResult} (hr : r.Storable) :
    (r.apply .runReset).Storable :=
  hr.apply (Json.Object.allReadable_empty _) (show 0 < counterBound by decide)

end TaskResult

end TaskQueue
