import Mathlib.Tactic
import TaskQueue.Json.Decoder
import TaskQueue.Proofs.JsonTokens

/-!
# Reading printed JSON back

The text of a value is read as the echo of the value, which is the document with the same members
in the same order; only a number may come back as another one.  The proof goes over the tokens of
the echo: the scanner finds them in the text, and the reader of documents builds the echo out of
them again.

A value is legible if its numbers survive their texts, and canonical if its objects have their
members in order.  The echo of a legible value is the document of that value, and the document of a
canonical value that does not nest too deep has that value.
-/

namespace TaskQueue.Json

/-! ## Tokens and echoes -/

namespace Document

mutual

/-- The tokens of which a text of the document consists. -/
def tokens : Document → List Token
  | .null => [.null]
  | .bool b => [.bool b]
  | .number n => [.number n]
  | .text s => [.text s]
  | .array items => .openArray :: tokensOfItems items ++ [.closeArray]
  | .object fields => .openObject :: tokensOfFields fields ++ [.closeObject]

def tokensOfItems : List Document → List Token
  | [] => []
  | d :: rest =>
    match rest with
    | [] => d.tokens
    | _ :: _ => d.tokens ++ .comma :: tokensOfItems rest

def tokensOfFields : List (Option String × Document) → List Token
  | [] => []
  | (k, d) :: rest =>
    match rest with
    | [] => .text k :: .colon :: d.tokens
    | _ :: _ => .text k :: .colon :: d.tokens ++ .comma :: tokensOfFields rest

end

end Document

mutual

/-- The document as which the text of a value is read, if its numbers have numerals as texts. -/
def echo? : Json → Option Document
  | .null => some .null
  | .bool b => some (.bool b)
  | .number n => (Scanner.echoed n).map .number
  | .text s => some (.text (some s))
  | .array items => (echoOfItems? items).map .array
  | .object fields => (echoOfFields? fields).map .object

def echoOfItems? : List Json → Option (List Document)
  | [] => some []
  | v :: rest => v.echo?.bind fun d => (echoOfItems? rest).map (d :: ·)

def echoOfFields? : List (String × Json) → Option (List (Option String × Document))
  | [] => some []
  | (k, v) :: rest => v.echo?.bind fun d => (echoOfFields? rest).map ((some k, d) :: ·)

end

/-! ## Values that can be read back -/

mutual

/-- Whether every number in a value survives its text. -/
def Legible : Json → Prop
  | .number n => n.Survives
  | .array items => LegibleItems items
  | .object fields => LegibleFields fields
  | _ => True

def LegibleItems : List Json → Prop
  | [] => True
  | v :: rest => v.Legible ∧ LegibleItems rest

def LegibleFields : List (String × Json) → Prop
  | [] => True
  | (_, v) :: rest => v.Legible ∧ LegibleFields rest

end

mutual

/-- Whether the members of every object in a value are in order. -/
def Canonical : Json → Prop
  | .array items => CanonicalItems items
  | .object fields => Fields.Ordered fields ∧ CanonicalFields fields
  | _ => True

def CanonicalItems : List Json → Prop
  | [] => True
  | v :: rest => v.Canonical ∧ CanonicalItems rest

def CanonicalFields : List (String × Json) → Prop
  | [] => True
  | (_, v) :: rest => v.Canonical ∧ CanonicalFields rest

end

/-! ## Scanning -/

open Scanner

theorem stopsNumeral_cons {c : Char} {cs : List Char} (hc : isNumeral c = false) :
    StopsNumeral (c :: cs) := by
  intro d hd
  cases hd
  exact hc

mutual

theorem scans_chars : ∀ (v : Json) (rest : List Char), StopsNumeral rest →
    Scans v.chars (v.echo?.map Document.tokens) rest
  | .null, rest, _ => scans_null rest
  | .bool b, rest, _ => scans_bool b rest
  | .number n, rest, hstops => by
      have h := scans_number n hstops
      rw [chars, echo?, Option.map_map]
      exact h
  | .text s, rest, _ => scans_quoted s rest
  | .array items, rest, _ => by
      have hitems : Scans (charsOfItems items) _ ([']'] ++ rest) :=
        scans_charsOfItems items _ (stopsNumeral_cons rfl)
      have hopen : Scans ['['] (some [.openArray]) (charsOfItems items ++ [']'] ++ rest) :=
        scans_sign rfl
      have hall := hopen.append (hitems.append (scans_sign rfl))
      rw [chars, echo?]
      cases h : echoOfItems? items <;> simpa [h, Document.tokens] using hall
  | .object fields, rest, _ => by
      have hfields : Scans (charsOfFields fields) _ (['\x7d'] ++ rest) :=
        scans_charsOfFields fields _ (stopsNumeral_cons rfl)
      have hopen : Scans ['\x7b'] (some [.openObject]) (charsOfFields fields ++ ['\x7d'] ++ rest) :=
        scans_sign rfl
      have hall := hopen.append (hfields.append (scans_sign rfl))
      rw [chars, echo?]
      cases h : echoOfFields? fields <;> simpa [h, Document.tokens] using hall

theorem scans_charsOfItems : ∀ (items : List Json) (rest : List Char), StopsNumeral rest →
    Scans (charsOfItems items) ((echoOfItems? items).map Document.tokensOfItems) rest
  | [], rest, _ => by simp [charsOfItems, echoOfItems?, Document.tokensOfItems, Scans]
  | [v], rest, hstops => by
      have hv := scans_chars v rest hstops
      rw [charsOfItems]
      cases h : v.echo? <;> simpa [h, echoOfItems?, Document.tokensOfItems] using hv
  | v :: w :: more, rest, hstops => by
      have hmore := scans_charsOfItems (w :: more) rest hstops
      have hcomma : Scans [','] (some [.comma]) (charsOfItems (w :: more) ++ rest) :=
        scans_sign rfl
      have hv : Scans v.chars _ ([','] ++ charsOfItems (w :: more) ++ rest) :=
        scans_chars v _ (stopsNumeral_cons rfl)
      have hall := hv.append (hcomma.append hmore)
      rw [charsOfItems]
      cases h : v.echo? <;> cases hw : w.echo? <;> cases hrest : echoOfItems? more <;>
        simpa [h, hw, hrest, echoOfItems?, Document.tokensOfItems] using hall

theorem scans_charsOfFields : ∀ (fields : List (String × Json)) (rest : List Char),
    StopsNumeral rest →
    Scans (charsOfFields fields) ((echoOfFields? fields).map Document.tokensOfFields) rest
  | [], rest, _ => by simp [charsOfFields, echoOfFields?, Document.tokensOfFields, Scans]
  | [(k, v)], rest, hstops => by
      have hv := scans_chars v rest hstops
      have hcolon : Scans [':'] (some [.colon]) (v.chars ++ rest) := scans_sign rfl
      have hall := (scans_quoted k _).append (hcolon.append hv)
      rw [charsOfFields]
      cases h : v.echo? <;> simpa [h, echoOfFields?, Document.tokensOfFields] using hall
  | (k, v) :: (l, w) :: more, rest, hstops => by
      have hmore := scans_charsOfFields ((l, w) :: more) rest hstops
      have hcomma : Scans [','] (some [.comma]) (charsOfFields ((l, w) :: more) ++ rest) :=
        scans_sign rfl
      have hv : Scans v.chars _ ([','] ++ charsOfFields ((l, w) :: more) ++ rest) :=
        scans_chars v _ (stopsNumeral_cons rfl)
      have hcolon : Scans [':'] (some [.colon])
          (v.chars ++ ([','] ++ charsOfFields ((l, w) :: more)) ++ rest) := scans_sign rfl
      have hall := (scans_quoted k _).append (hcolon.append (hv.append (hcomma.append hmore)))
      rw [charsOfFields]
      cases h : v.echo? <;> cases hw : w.echo? <;> cases hrest : echoOfFields? more <;>
        simpa [h, hw, hrest, echoOfFields?, Document.tokensOfFields] using hall

end

theorem scan_compact (v : Json) :
    Token.scan? v.compact.toList = v.echo?.map Document.tokens := by
  have h := scans_chars v [] (by simp [StopsNumeral])
  unfold Scans at h
  simpa [Token.scan?, compact, run, finish] using h

/-! ## Objects in order -/

namespace Fields

/-- A member whose key is beyond all others is put at the end. -/
theorem insert_eq_append {fields : Fields} {key : String} (value : Json)
    (h : ∀ p ∈ fields, p.1 < key) : insert key value fields = fields ++ [(key, value)] := by
  induction fields with
  | nil => rfl
  | cons p rest ih =>
      obtain ⟨k, v⟩ := p
      have hk : k < key := h (k, v) (by simp)
      have hrest : ∀ q ∈ rest, q.1 < key := by
        intro q hq
        exact h q (List.mem_cons_of_mem (k, v) hq)
      have hne : key ≠ k := by
        intro heq
        rw [heq] at hk
        exact String.lt_irrefl k hk
      rw [insert, if_neg (String.lt_asymm hk), if_neg hne, ih hrest]
      rfl

theorem sorted_eq_self {fields : Fields} (h : fields.Ordered) : sorted fields = fields := by
  have hfold : ∀ (fields acc : Fields), (acc ++ fields).Ordered →
      fields.foldl (fun acc p => insert p.1 p.2 acc) acc = acc ++ fields := by
    intro fields
    induction fields with
    | nil => intro acc _; simp
    | cons p rest ih =>
        intro acc hacc
        have hlast : ∀ q ∈ acc, q.1 < p.1 := by
          intro q hq
          exact (List.pairwise_append.1 hacc).2.2 q hq p (by simp)
        rw [List.foldl_cons, insert_eq_append p.2 hlast, ih]
        · simp
        · simpa [Fields.Ordered] using hacc
  exact hfold fields [] h

end Fields

theorem Object.ofFields_fields (o : Object) : Object.ofFields o.fields = o := by
  obtain ⟨fields, hordered⟩ := o
  unfold Object.ofFields
  congr 1
  exact Fields.sorted_eq_self hordered

/-! ## Reading documents -/

namespace Document

open Reader

/-- No document starts with the end of an array, so the first item is read like any other. -/
theorem run_firstItem (stack : List Frame) (acc : List Document) (d : Document)
    (ts : List Token) :
    (Reader.mk (.array acc :: stack) .firstItem).run (d.tokens ++ ts) =
      (Reader.mk (.array acc :: stack) .value).run (d.tokens ++ ts) := by
  cases d <;> simp [tokens, Reader.run, Reader.step]

theorem run_firstKey (stack : List Frame) (acc : List (Option String × Document))
    (p : Option String × Document) (fields : List (Option String × Document))
    (ts : List Token) :
    (Reader.mk stack (.firstKey acc)).run (tokensOfFields (p :: fields) ++ ts) =
      (Reader.mk stack (.key acc)).run (tokensOfFields (p :: fields) ++ ts) := by
  cases fields <;> simp [tokensOfFields, Reader.run, Reader.step]

mutual

/-- The reader builds a document out of its tokens and hands it on. -/
theorem run_tokens : ∀ (d : Document) (stack : List Frame) (ts : List Token),
    (Reader.mk stack .value).run (d.tokens ++ ts) = (accept stack d).run ts
  | .null, stack, ts => by simp [tokens, Reader.run, Reader.step, openValue]
  | .bool b, stack, ts => by simp [tokens, Reader.run, Reader.step, openValue]
  | .number n, stack, ts => by simp [tokens, Reader.run, Reader.step, openValue]
  | .text s, stack, ts => by simp [tokens, Reader.run, Reader.step, openValue]
  | .array [], stack, ts => by simp [tokens, tokensOfItems, Reader.run, Reader.step, openValue]
  | .array (d :: rest), stack, ts => by
      have hopen : (Reader.mk stack .value).run ((array (d :: rest)).tokens ++ ts) =
          (Reader.mk (.array [] :: stack) .firstItem).run
            (tokensOfItems (d :: rest) ++ .closeArray :: ts) := by
        simp [tokens, Reader.run, Reader.step, openValue]
      have hfirst : (Reader.mk (.array [] :: stack) .firstItem).run
            (tokensOfItems (d :: rest) ++ .closeArray :: ts) =
          (Reader.mk (.array [] :: stack) .value).run
            (tokensOfItems (d :: rest) ++ .closeArray :: ts) := by
        cases rest with
        | nil => exact run_firstItem stack [] d _
        | cons e more =>
            have h := run_firstItem stack [] d
              (.comma :: tokensOfItems (e :: more) ++ .closeArray :: ts)
            simpa [tokensOfItems] using h
      rw [hopen, hfirst, run_tokensOfItems (d :: rest) stack [] ts (by simp)]
      rfl
  | .object [], stack, ts => by
      simp [tokens, tokensOfFields, Reader.run, Reader.step, openValue]
  | .object (p :: rest), stack, ts => by
      have hopen : (Reader.mk stack .value).run ((object (p :: rest)).tokens ++ ts) =
          (Reader.mk stack (.firstKey [])).run
            (tokensOfFields (p :: rest) ++ .closeObject :: ts) := by
        simp [tokens, Reader.run, Reader.step, openValue]
      rw [hopen, run_firstKey, run_tokensOfFields (p :: rest) stack [] ts (by simp)]
      rfl

theorem run_tokensOfItems : ∀ (items : List Document) (stack : List Frame)
    (acc : List Document) (ts : List Token), items ≠ [] →
    (Reader.mk (.array acc :: stack) .value).run (tokensOfItems items ++ .closeArray :: ts) =
      (accept stack (.array (acc.reverse ++ items))).run ts
  | [], _, _, _, hne => absurd rfl hne
  | [d], stack, acc, ts, _ => by
      rw [tokensOfItems, run_tokens d]
      simp [accept, Reader.run, Reader.step]
  | d :: e :: more, stack, acc, ts, _ => by
      have hmore := run_tokensOfItems (e :: more) stack (d :: acc) ts (by simp)
      have hcomma : (accept (.array acc :: stack) d).run
            (.comma :: (tokensOfItems (e :: more) ++ .closeArray :: ts)) =
          (Reader.mk (.array (d :: acc) :: stack) .value).run
            (tokensOfItems (e :: more) ++ .closeArray :: ts) := by
        simp [accept, Reader.run, Reader.step]
      rw [tokensOfItems, List.append_assoc, run_tokens d, List.cons_append, hcomma, hmore]
      simp

theorem run_tokensOfFields : ∀ (fields : List (Option String × Document)) (stack : List Frame)
    (acc : List (Option String × Document)) (ts : List Token), fields ≠ [] →
    (Reader.mk stack (.key acc)).run (tokensOfFields fields ++ .closeObject :: ts) =
      (accept stack (.object (acc.reverse ++ fields))).run ts
  | [], _, _, _, hne => absurd rfl hne
  | [(k, d)], stack, acc, ts, _ => by
      have hkey : (Reader.mk stack (.key acc)).run
            (.text k :: .colon :: (d.tokens ++ .closeObject :: ts)) =
          (Reader.mk (.object acc k :: stack) .value).run (d.tokens ++ .closeObject :: ts) := by
        simp [Reader.run, Reader.step]
      rw [tokensOfFields, List.cons_append, List.cons_append, hkey, run_tokens d]
      simp [accept, Reader.run, Reader.step]
  | (k, d) :: q :: more, stack, acc, ts, _ => by
      have hmore := run_tokensOfFields (q :: more) stack ((k, d) :: acc) ts (by simp)
      have hkey : (Reader.mk stack (.key acc)).run
            (tokensOfFields ((k, d) :: q :: more) ++ .closeObject :: ts) =
          (Reader.mk (.object acc k :: stack) .value).run
            (d.tokens ++ .comma :: (tokensOfFields (q :: more) ++ .closeObject :: ts)) := by
        simp [tokensOfFields, Reader.run, Reader.step]
      have hcomma : (accept (.object acc k :: stack) d).run
            (.comma :: (tokensOfFields (q :: more) ++ .closeObject :: ts)) =
          (Reader.mk stack (.key ((k, d) :: acc))).run
            (tokensOfFields (q :: more) ++ .closeObject :: ts) := by
        simp [accept, Reader.run, Reader.step]
      rw [hkey, run_tokens d, hcomma, hmore]
      simp

end

/-- The text of any value is read as its echo. -/
theorem parse_compact_eq_echo (v : Json) : parse? v.compact = v.echo? := by
  unfold parse? ofTokens?
  rw [scan_compact]
  cases v.echo? with
  | none => rfl
  | some d =>
      have h := run_tokens d [] []
      rw [List.append_nil] at h
      rw [Option.map_some, Option.bind_some, h]
      rfl

mutual

theorem echo_of_legible : ∀ v : Json, v.Legible → v.echo? = some (ofValue v)
  | .null, _ => by rw [echo?, ofValue]
  | .bool b, _ => by rw [echo?, ofValue]
  | .number n, hv => by
      obtain ⟨m, hread, hnumber⟩ := Option.bind_eq_some_iff.1 (show n.Survives from hv)
      rw [echo?, ofValue, Scanner.echoed, hread, Option.map_some, hnumber]
      rfl
  | .text s, _ => by rw [echo?, ofValue]
  | .array items, hv => by
      rw [Legible] at hv
      rw [echo?, ofValue, echoOfItems_of_legible items hv, Option.map_some]
  | .object fields, hv => by
      rw [Legible] at hv
      rw [echo?, ofValue, echoOfFields_of_legible fields hv, Option.map_some]

theorem echoOfItems_of_legible : ∀ items : List Json, LegibleItems items →
    echoOfItems? items = some (ofItems items)
  | [], _ => by rw [echoOfItems?, ofItems]
  | v :: rest, h => by
      rw [LegibleItems] at h
      simp [echoOfItems?, ofItems, echo_of_legible v h.1, echoOfItems_of_legible rest h.2]

theorem echoOfFields_of_legible : ∀ fields : List (String × Json), LegibleFields fields →
    echoOfFields? fields = some (ofFields fields)
  | [], _ => by rw [echoOfFields?, ofFields]
  | (k, v) :: rest, h => by
      rw [LegibleFields] at h
      simp [echoOfFields?, ofFields, echo_of_legible v h.1, echoOfFields_of_legible rest h.2]

end

theorem parse_compact {v : Json} (hv : v.Legible) : parse? v.compact = some (ofValue v) := by
  rw [parse_compact_eq_echo, echo_of_legible v hv]

mutual

/-- The document of a canonical value has that value, unless it nests too deep. -/
theorem value_ofValue : ∀ (v : Json) (limit : Nat), v.Canonical → v.height ≤ limit →
    value? limit (ofValue v) = some v
  | .null, limit, _, _ => by rw [ofValue, value?]
  | .bool b, limit, _, _ => by rw [ofValue, value?]
  | .number n, limit, _, _ => by rw [ofValue, value?]; rfl
  | .text s, limit, _, _ => by rw [ofValue, value?]; rfl
  | .array items, limit, hv, hlimit => by
      rw [Canonical] at hv
      rw [height] at hlimit
      cases limit with
      | zero => omega
      | succ limit =>
          rw [ofValue, value?, values_ofItems items limit hv (by omega)]
          rfl
  | .object fields, limit, hv, hlimit => by
      rw [Canonical] at hv
      rw [height] at hlimit
      cases limit with
      | zero => omega
      | succ limit =>
          rw [ofValue, value?, members_ofFields fields limit hv.2 (by omega), Option.map_some,
            Fields.sorted_eq_self hv.1]

theorem values_ofItems : ∀ (items : List Json) (limit : Nat), CanonicalItems items →
    heightOfItems items ≤ limit → values? limit (ofItems items) = some items
  | [], limit, _, _ => by rw [ofItems, values?]
  | v :: rest, limit, hitems, hlimit => by
      rw [CanonicalItems] at hitems
      rw [heightOfItems] at hlimit
      have hv := value_ofValue v limit hitems.1 (by omega)
      have hrest := values_ofItems rest limit hitems.2 (by omega)
      simp [ofItems, values?, hv, hrest]

theorem members_ofFields : ∀ (fields : List (String × Json)) (limit : Nat), CanonicalFields fields →
    heightOfFields fields ≤ limit → members? limit (ofFields fields) = some fields
  | [], limit, _, _ => by rw [ofFields, members?]
  | (k, v) :: rest, limit, hfields, hlimit => by
      rw [CanonicalFields] at hfields
      rw [heightOfFields] at hlimit
      have hv := value_ofValue v limit hfields.1 (by omega)
      have hrest := members_ofFields rest limit hfields.2 (by omega)
      simp [ofFields, members?, hv, hrest]

end

end Document

/-- Whether the text of a value can be read back with so many containers around its members. -/
structure Readable (limit : Nat) (v : Json) : Prop where
  legible : v.Legible
  canonical : v.Canonical
  height : v.height ≤ limit

theorem parse_compact {v : Json} (hv : v.Readable maxNesting) : parse? v.compact = some v := by
  unfold parse?
  rw [Document.parse_compact hv.legible, Option.bind_some]
  exact Document.value_ofValue v maxNesting hv.canonical hv.height

/-- The members of an object that is read from its echo have the keys of the object. -/
theorem keys_of_echo {fields : Fields} {ds : List (Option String × Document)} {fs : Fields}
    {limit : Nat} (hecho : echoOfFields? fields = some ds)
    (hmembers : Document.members? limit ds = some fs) : fs.map Prod.fst = fields.map Prod.fst := by
  induction fields generalizing ds fs with
  | nil =>
      cases hecho
      cases hmembers
      rfl
  | cons p rest ih =>
      obtain ⟨d, -, hmore⟩ := Option.bind_eq_some_iff.1 hecho
      obtain ⟨more, hrest, rfl⟩ := Option.map_eq_some_iff.1 hmore
      obtain ⟨w, -, hvs⟩ := Option.bind_eq_some_iff.1 hmembers
      obtain ⟨ws, hws, hsame⟩ := Option.bind_eq_some_iff.1 hvs
      cases hsame
      rw [List.map_cons, List.map_cons, ih hrest hws]

mutual

/-- A value that is read from its own echo is readable. -/
theorem readable_of_echo : ∀ (v : Json) (limit : Nat) (d : Document), v.echo? = some d →
    Document.value? limit d = some v → v.Legible ∧ v.Canonical ∧ v.height ≤ limit
  | .null, limit, _, _, _ => ⟨trivial, trivial, Nat.zero_le limit⟩
  | .bool _, limit, _, _, _ => ⟨trivial, trivial, Nat.zero_le limit⟩
  | .text _, limit, _, _, _ => ⟨trivial, trivial, Nat.zero_le limit⟩
  | .number n, limit, d, hecho, hvalue => by
      obtain ⟨m, hread, rfl⟩ := Option.map_eq_some_iff.1 hecho
      obtain ⟨numeral, hnumeral, rfl⟩ := Option.map_eq_some_iff.1 hread
      obtain ⟨k, hnumber, hk⟩ := Option.map_eq_some_iff.1 hvalue
      cases hk
      exact ⟨Option.bind_eq_some_iff.2 ⟨numeral, hnumeral, hnumber⟩, trivial, Nat.zero_le limit⟩
  | .array items, limit, d, hecho, hvalue => by
      obtain ⟨ds, hitems, rfl⟩ := Option.map_eq_some_iff.1 hecho
      cases limit with
      | zero => cases hvalue
      | succ limit =>
          obtain ⟨vs, hvalues, hsame⟩ := Option.map_eq_some_iff.1 hvalue
          cases hsame
          obtain ⟨hlegible, hcanonical, hheight⟩ :=
            readableItems_of_echo items limit ds hitems hvalues
          exact ⟨hlegible, hcanonical, Nat.succ_le_succ hheight⟩
  | .object fields, limit, d, hecho, hvalue => by
      obtain ⟨ds, hfields, rfl⟩ := Option.map_eq_some_iff.1 hecho
      cases limit with
      | zero => cases hvalue
      | succ limit =>
          obtain ⟨fs, hmembers, hsame⟩ := Option.map_eq_some_iff.1 hvalue
          -- The members come back sorted, and a list of members is sorted if its keys are.
          have hsorted : Fields.sorted fs = fields := Json.object.inj hsame
          have hordered : Fields.Ordered fields := hsorted ▸ Fields.ordered_sorted fs
          have hkeys : fs.map Prod.fst = fields.map Prod.fst := keys_of_echo hfields hmembers
          have hfs : Fields.Ordered fs := by
            have hpairwise := List.pairwise_map.2 hordered
            rw [← hkeys] at hpairwise
            exact List.pairwise_map.1 hpairwise
          rw [Fields.sorted_eq_self hfs] at hsorted
          obtain ⟨hlegible, hcanonical, hheight⟩ :=
            readableFields_of_echo fields limit ds hfields (hsorted ▸ hmembers)
          exact ⟨hlegible, ⟨hordered, hcanonical⟩, Nat.succ_le_succ hheight⟩

theorem readableItems_of_echo : ∀ (items : List Json) (limit : Nat) (ds : List Document),
    echoOfItems? items = some ds → Document.values? limit ds = some items →
    LegibleItems items ∧ CanonicalItems items ∧ heightOfItems items ≤ limit
  | [], limit, _, _, _ => ⟨trivial, trivial, Nat.zero_le limit⟩
  | v :: rest, limit, ds, hecho, hvalues => by
      obtain ⟨d, hd, hmore⟩ := Option.bind_eq_some_iff.1 hecho
      obtain ⟨more, hrest, rfl⟩ := Option.map_eq_some_iff.1 hmore
      obtain ⟨w, hw, hvs⟩ := Option.bind_eq_some_iff.1 hvalues
      obtain ⟨ws, hws, hsame⟩ := Option.bind_eq_some_iff.1 hvs
      cases hsame
      obtain ⟨hlegible, hcanonical, hheight⟩ := readable_of_echo v limit d hd hw
      obtain ⟨hlegibles, hcanonicals, hheights⟩ := readableItems_of_echo rest limit more hrest hws
      exact ⟨⟨hlegible, hlegibles⟩, ⟨hcanonical, hcanonicals⟩, Nat.max_le.2 ⟨hheight, hheights⟩⟩

theorem readableFields_of_echo : ∀ (fields : List (String × Json)) (limit : Nat)
    (ds : List (Option String × Document)), echoOfFields? fields = some ds →
    Document.members? limit ds = some fields →
    LegibleFields fields ∧ CanonicalFields fields ∧ heightOfFields fields ≤ limit
  | [], limit, _, _, _ => ⟨trivial, trivial, Nat.zero_le limit⟩
  | (k, v) :: rest, limit, ds, hecho, hmembers => by
      obtain ⟨d, hd, hmore⟩ := Option.bind_eq_some_iff.1 hecho
      obtain ⟨more, hrest, rfl⟩ := Option.map_eq_some_iff.1 hmore
      obtain ⟨w, hw, hvs⟩ := Option.bind_eq_some_iff.1 hmembers
      obtain ⟨ws, hws, hsame⟩ := Option.bind_eq_some_iff.1 hvs
      cases hsame
      obtain ⟨hlegible, hcanonical, hheight⟩ := readable_of_echo v limit d hd hw
      obtain ⟨hlegibles, hcanonicals, hheights⟩ := readableFields_of_echo rest limit more hrest hws
      exact ⟨⟨hlegible, hlegibles⟩, ⟨hcanonical, hcanonicals⟩, Nat.max_le.2 ⟨hheight, hheights⟩⟩

end

/-- A value is read from its own text exactly if it is readable. -/
theorem parse_compact_iff {v : Json} : parse? v.compact = some v ↔ v.Readable maxNesting := by
  constructor
  · intro h
    obtain ⟨d, hd, hvalue⟩ := Option.bind_eq_some_iff.1 h
    rw [Document.parse_compact_eq_echo] at hd
    obtain ⟨hlegible, hcanonical, hheight⟩ := readable_of_echo v maxNesting d hd hvalue
    exact ⟨hlegible, hcanonical, hheight⟩
  · exact parse_compact

/-- A decoder reads the text of a legible value as it reads the document of that value. -/
theorem ofText_compact (decode : Decoder α) {v : Json} (hv : v.Legible) :
    decode.ofText? v.compact = decode maxNesting (Document.ofValue v) := by
  unfold Decoder.ofText?
  rw [Document.parse_compact hv, Option.bind_some]

/-! ## Objects with readable members -/

theorem legibleFields_iff (fields : Fields) :
    LegibleFields fields ↔ ∀ p ∈ fields, p.2.Legible := by
  induction fields with
  | nil => simp [LegibleFields]
  | cons p rest ih => simp [LegibleFields, ih]

theorem canonicalFields_iff (fields : Fields) :
    CanonicalFields fields ↔ ∀ p ∈ fields, p.2.Canonical := by
  induction fields with
  | nil => simp [CanonicalFields]
  | cons p rest ih => simp [CanonicalFields, ih]

theorem heightOfFields_le_iff (fields : Fields) (limit : Nat) :
    heightOfFields fields ≤ limit ↔ ∀ p ∈ fields, p.2.height ≤ limit := by
  induction fields with
  | nil => simp [heightOfFields]
  | cons p rest ih => simp [heightOfFields, ih]

def Object.AllReadable (limit : Nat) (o : Object) : Prop :=
  ∀ p ∈ o.fields, p.2.Readable limit

namespace Object

theorem readable_toJson {o : Object} {limit : Nat} (ho : o.AllReadable limit) :
    o.toJson.Readable (limit + 1) := by
  constructor
  · rw [toJson, Legible, legibleFields_iff]
    exact fun p hp => (ho p hp).legible
  · rw [toJson, Canonical, canonicalFields_iff]
    exact ⟨o.ordered, fun p hp => (ho p hp).canonical⟩
  · rw [toJson, height]
    have hfields := (heightOfFields_le_iff o.fields limit).2 fun p hp => (ho p hp).height
    omega

theorem allReadable_of_toJson {o : Object} {limit : Nat} (ho : o.toJson.Readable (limit + 1)) :
    o.AllReadable limit := by
  have hlegible := (legibleFields_iff o.fields).1 ho.legible
  have hcanonical := (canonicalFields_iff o.fields).1 ho.canonical.2
  have hheight := (heightOfFields_le_iff o.fields limit).1 (Nat.le_of_succ_le_succ ho.height)
  exact fun p hp => ⟨hlegible p hp, hcanonical p hp, hheight p hp⟩

/-- An object that is read from its own echo is readable. -/
theorem readable_of_read {o : Object} {limit : Nat} {d : Document}
    (hecho : o.toJson.echo? = some d) (hread : Decoder.object limit d = some o) :
    o.toJson.Readable limit := by
  obtain ⟨ds, -, rfl⟩ := Option.map_eq_some_iff.1 hecho
  cases hvalue : Document.value? limit (.object ds) with
  | none => simp [Decoder.object, hvalue] at hread
  | some v =>
      cases limit with
      | zero => cases hvalue
      | succ limit =>
          obtain ⟨fs, -, rfl⟩ := Option.map_eq_some_iff.1 hvalue
          simp only [Decoder.object, hvalue, Option.some.injEq] at hread
          have hfields : Fields.sorted fs = o.fields := by
            rw [← hread]
            exact (Fields.sorted_eq_self (Fields.ordered_sorted fs)).symm
          rw [hfields] at hvalue
          obtain ⟨hlegible, hcanonical, hheight⟩ :=
            readable_of_echo o.toJson (limit + 1) _ hecho hvalue
          exact ⟨hlegible, hcanonical, hheight⟩

theorem allReadable_empty (limit : Nat) : empty.AllReadable limit := by
  intro p hp
  cases hp

theorem AllReadable.edit {o : Object} {limit : Nat} (ho : o.AllReadable limit) (key : String)
    {value : Json} (hvalue : value.Readable limit) : (o.edit key value).AllReadable limit := by
  intro p hp
  unfold Object.edit at hp
  split at hp
  · exact ho p (List.mem_filter.1 hp).1
  · rcases Fields.mem_insert hp with hp | hp
    · rw [hp]
      exact hvalue
    · exact ho p hp

theorem AllReadable.merge {o edits : Object} {limit : Nat} (ho : o.AllReadable limit)
    (hedits : edits.AllReadable limit) : (o.merge edits).AllReadable limit := by
  have hfold : ∀ (fields : Fields) (o : Object), o.AllReadable limit →
      (∀ p ∈ fields, p.2.Readable limit) →
      (fields.foldl (fun o p => o.edit p.1 p.2) o).AllReadable limit := by
    intro fields
    induction fields with
    | nil => exact fun _ ho _ => ho
    | cons p rest ih =>
        intro o ho hfields
        have hp : p.2.Readable limit := hfields p (by simp)
        exact ih _ (ho.edit p.1 hp) fun q hq => hfields q (List.mem_cons_of_mem p hq)
  exact hfold edits.fields o ho hedits

end Object

end TaskQueue.Json
