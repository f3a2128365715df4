import Parley.Proofs.Frame.RoundTrip
import Parley.Proofs.Message.Envelope
import Parley.Proofs.Message.Written

/-!
# Messages are read back

A message that is written, with or without a header block, is read back as it was, but for data of an error that is null and comes
back as no data (`Message.tidy`). Its numbers have to be of the sizes that ids and codes and JSON have, and its values may nest as
deep as the reader goes (`Message.Proper`). Both hold of every message that was read, which is tidy as well.
-/

namespace Parley

/-- The number of an id has 64 bits. -/
def MessageId.Sized : MessageId → Prop
  | .num n => -Nat.pow 2 63 ≤ n ∧ n < Nat.pow 2 63
  | .str _ => True

namespace MessageId

/-- An id of its size is written as a value that names it. -/
theorem Sized.names {id : MessageId} (h : id.Sized) : Names id.toJson id := by
  cases id with
  | num n => exact .number h
  | str s => exact .text s

/-- So it is accepted. -/
theorem Sized.isAccepted {id : MessageId} (h : id.Sized) : id.IsAccepted := ofJson?_eq_some_iff.mpr h.names

/-- An id that is written, or null where there is none, names the id. -/
theorem names_written {id : Option MessageId} (h : ∀ i ∈ id, i.Sized) (i : MessageId) :
    id = some i ↔ Names (Json.ofOption (id.map toJson)) i := by
  cases id with
  | none =>
    constructor
    · intro hi
      cases hi
    · intro hn
      cases hn
  | some known =>
    have hk : ofJson? known.toJson = some known := (h known rfl).isAccepted
    rw [Option.map_some, Json.ofOption, Option.getD_some, ← ofJson?_eq_some_iff, hk]

@[simp] theorem normal_written (id : Option MessageId) :
    (Json.ofOption (id.map toJson)).normal = Json.ofOption (id.map toJson) := by
  cases id with
  | none => rfl
  | some id => exact normal_toJson id

/-- An id that is named has its size. -/
theorem Names.sized {v : Json} {id : MessageId} (h : Names v id) : id.Sized := by
  cases h with
  | text s => trivial
  | number h => exact h

end MessageId

namespace Message

/-- The values that a message carries. -/
def values : Message → List Json
  | .notification _ params => [params]
  | .request _ _ params => [params]
  | .result _ value => [value]
  | .error _ e => e.data.toList

/-- There is no float in the values of the message. -/
def floatFree (m : Message) : Bool := m.values.all Json.floatFree

/-- The ids and codes of a message are of their sizes, and its values can be read where they stand in it. -/
def Proper : Message → Prop
  | .notification _ params => params.Proper 126
  | .request id _ params => id.Sized ∧ params.Proper 126
  | .result id value => id.Sized ∧ value.Proper 126
  | .error id e => (∀ i ∈ id, i.Sized) ∧ ResponseError.IsCode e.code ∧ ∀ v ∈ e.data, v.Proper 125

/-- The message without data of an error that is null. -/
def tidy : Message → Message
  | .error id e => .error id { e with data := ResponseError.given e.data }
  | m => m

/-! ## Written messages are read -/

/-- A proper message without floats fits its written form. -/
theorem Proper.fits {m : Message} (h : m.Proper) (hf : m.floatFree = true) : m.fields.all (fun f => f.2.fits 126) = true := by
  cases m with
  | notification method params =>
    have hp : params.fits 126 = true := Json.Proper.fits h (by simpa [floatFree, values] using hf)
    simp [fields, Json.fits, paramsField_fits hp]
  | request id method params =>
    have hp : params.fits 126 = true := h.2.fits (by simpa [floatFree, values] using hf)
    simp [fields, Json.fits, h.1.isAccepted.fits, paramsField_fits hp]
  | result id value =>
    have hv : value.fits 126 = true := h.2.fits (by simpa [floatFree, values] using hf)
    simp [fields, Json.fits, h.1.isAccepted.fits, hv]
  | error id e =>
    obtain ⟨hid, hc, hd⟩ := h
    have hi : (Json.ofOption (id.map MessageId.toJson)).fits 126 = true := by
      cases id with
      | none => rfl
      | some i => exact (hid i rfl).isAccepted.fits 126
    have he : e.fields.all (fun f => f.2.fits 125) = true := by
      cases hdata : e.data with
      | none => simp [ResponseError.fields, hdata, hc.fits, Json.fits]
      | some v =>
        have hv : v.fits 125 = true := (hd v hdata).fits (by simpa [floatFree, values, hdata] using hf)
        simp [ResponseError.fields, hdata, hc.fits, Json.fits, hv]
    simp only [fields, List.all_cons, List.all_nil, Json.fits, hi, he, Bool.and_true]

/-- A written message is an object of the right version. -/
theorem carries_encode {m : Message} (h : m.fields.all (fun f => f.2.fits 126) = true) :
    Carries m.encode (Json.normalFields [] m.fields) := by
  refine ⟨parse_encode h, ?_⟩
  cases m <;>
    simp [fields, Json.normalFields, lookupField_normalFields, Json.lookupField_insertField, Json.normal, protocolVersion]

/-- The fields of a written message are those of the message. -/
theorem envelope_encode {m : Message} (h : m.Proper) :
    Envelope Catalogue.untyped {} (Json.normalFields [] m.fields) m.tidy := by
  cases m with
  | notification method params =>
    have hp : paramsOf (Json.normalFields [] (notification method params).fields) = params := by
      simp [fields, Json.normalFields, paramsOf_normalFields, Json.lookupField_insertField, Json.normal_of_proper h]
    refine .notification ?_ ?_ hp.symm fun s hs => by cases hs
    · simp [fields, Json.normalFields, lookupField_normalFields, Json.lookupField_insertField]
    · simp [fields, Json.normalFields, lookupField_normalFields, Json.lookupField_insertField, Json.normal]
  | request id method params =>
    have hp : paramsOf (Json.normalFields [] (request id method params).fields) = params := by
      simp [fields, Json.normalFields, paramsOf_normalFields, Json.lookupField_insertField, Json.normal_of_proper h.2]
    refine .request ?_ h.1.names ?_ hp.symm fun s hs => by cases hs
    · simp [fields, Json.normalFields, lookupField_normalFields, Json.lookupField_insertField]
    · simp [fields, Json.normalFields, lookupField_normalFields, Json.lookupField_insertField, Json.normal]
  | result id value =>
    refine .result ?_ h.1.names ?_ ?_ ?_ fun s hs => by cases hs
    · simp [fields, Json.normalFields, Json.lookupField_insertField]
    · simp [fields, Json.normalFields, Json.lookupField_insertField]
    · simp [fields, Json.normalFields, Json.lookupField_insertField]
    · simp [fields, Json.normalFields, Json.lookupField_insertField, Json.normal_of_proper h.2, Json.ofOption]
  | error id e =>
    refine .error ?_ (MessageId.names_written h.1) ?_ ?_ (ResponseError.describes_written h.2.1 h.2.2)
    · simp [fields, Json.normalFields, Json.lookupField_insertField, MessageId.normal_written]
    · simp [fields, Json.normalFields, Json.lookupField_insertField]
    · simp [fields, Json.normalFields, Json.lookupField_insertField, Json.normal]

/-- A proper message without floats is read back without its header block. -/
theorem decode_encode {m : Message} (h : m.Proper) (hf : m.floatFree = true) :
    decode Catalogue.untyped {} m.encode = (.ok m.tidy, {}) := by
  have hd : (decode Catalogue.untyped {} m.encode).1 = .ok m.tidy :=
    decode_eq_ok_iff.mpr ⟨_, carries_encode (h.fits hf), envelope_encode h⟩
  have he : (decode Catalogue.untyped {} m.encode).2 = {} := by
    rw [expected_decode]
    cases replier? m.encode with
    | none => rfl
    | some id => exact Table.erase_of_find?_eq_none (Table.find?_empty id)
  exact Prod.ext hd he

/-! ## What was read is written and read again -/

/-- What a field holds is as proper as the fields. -/
theorem proper_ofOption {name : String} {fields : List (String × Json)} {depth : Nat} (h : ∀ f ∈ fields, f.2.Proper depth) :
    (Json.ofOption (Json.lookupField name fields)).Proper depth := by
  cases hv : Json.lookupField name fields with
  | none => cases depth <;> trivial
  | some v => exact h _ (Json.mem_of_lookupField hv)

/-- The message that fields are is proper if the fields are. -/
theorem Envelope.proper {c : ParamsLookup} {expected : Expected} {fields : List (String × Json)} {m : Message}
    (h : Envelope c expected fields m) (hf : ∀ f ∈ fields, f.2.Proper 126) : m.Proper := by
  cases h with
  | notification _ _ hp => exact hp ▸ proper_ofOption hf
  | request _ hid _ hp => exact ⟨hid.sized, hp ▸ proper_ofOption hf⟩
  | result _ hid _ _ hp => exact ⟨hid.sized, hp ▸ proper_ofOption hf⟩
  | error _ hid _ he hd =>
    have hraw := hf _ (Json.mem_of_lookupField he)
    exact ⟨fun i hi => ((hid i).mp hi).sized, hd.isCode, hd.proper hraw⟩

/-- The message that fields are is tidy. -/
theorem Envelope.tidy {c : ParamsLookup} {expected : Expected} {fields : List (String × Json)} {m : Message}
    (h : Envelope c expected fields m) : m.tidy = m := by
  cases h with
  | error _ _ _ _ hd => rw [Message.tidy, hd.given_data]
  | notification | request | result => rfl

/-- A message that was read is read back as it was. -/
theorem decode_encode_of_decode {c : ParamsLookup} {expected : Expected} {payload : Bytes} {m : Message}
    (h : (decode c expected payload).1 = .ok m) (hf : m.floatFree = true) :
    decode Catalogue.untyped {} m.encode = (.ok m, {}) := by
  obtain ⟨fields, hc, he⟩ := decode_eq_ok_iff.mp h
  have hp : (Json.obj fields).Proper 127 := Json.parse_proper hc.1
  have hd := decode_encode (he.proper hp.2) hf
  rwa [he.tidy] at hd

/-- Writing and reading, in three parts.
1. A proper message without floats is read back tidy from its written form, by a decoder that knows no shapes.
2. So it is from the form with a header block, in whatever pieces that comes, by a framer that has room for the body.
3. A message without floats that was read, whatever shapes were known, is read back as it was. -/
theorem written_messages_read_back :
    (∀ m : Message, m.Proper → m.floatFree = true → decode Catalogue.untyped {} (m.write false) = (.ok m.tidy, {})) ∧
    (∀ (m : Message) (limit : Nat) (r : Frame.Reader), m.Proper → m.floatFree = true →
      m.encode.length ≤ Frame.room limit → r.Delivers (m.write true) →
      ∃ payload f r', ({ limit } : Frame.Framer).poll r = (.payload payload, f, r') ∧
        decode Catalogue.untyped {} payload = (.ok m.tidy, {})) ∧
    (∀ c expected payload m, (decode c expected payload).1 = .ok m → m.floatFree = true →
      decode Catalogue.untyped {} (m.write false) = (.ok m, {})) := by
  refine ⟨fun m hp hf => decode_encode hp hf, fun m limit r hp hf hb hr => ?_, fun c expected payload m h hf =>
    decode_encode_of_decode h hf⟩
  have hw : m.write true = Frame.frame m.encode ++ [] := (List.append_nil _).symm
  obtain ⟨x, f, rest, r', hn, hpoll, -⟩ := Frame.Framer.poll_delivers { limit } hr
  rw [hw, Frame.Framer.next_frame hb] at hn
  obtain ⟨rfl, rfl, rfl⟩ : .payload m.encode = x ∧ { limit } = f ∧ [] = rest := by simpa using hn
  exact ⟨_, _, _, hpoll, decode_encode hp hf⟩

/-- An error that answers no request and whose data is null. -/
def mutedError : Message := .error none ⟨-32700, "unreadable", some .null⟩

/-- `mutedError` is read back without its data, in frames that come whole and are read through a buffer of five bytes, and what is
read of it is read back as it is. -/
theorem written_messages_read_back_mutedError :
    mutedError.Proper ∧ mutedError.floatFree = true ∧ mutedError.encode.length ≤ Frame.room 86 ∧
    decode Catalogue.untyped {} (mutedError.write false) = (.ok (.error none ⟨-32700, "unreadable", none⟩), {}) ∧
    (∃ payload f r', ({ limit := 86 } : Frame.Framer).poll (.ofChunks 5 [mutedError.write true]) = (.payload payload, f, r') ∧
      decode Catalogue.untyped {} payload = (.ok (.error none ⟨-32700, "unreadable", none⟩), {})) ∧
    decode Catalogue.untyped {} (write false (.error none ⟨-32700, "unreadable", none⟩)) =
      (.ok (.error none ⟨-32700, "unreadable", none⟩), {}) := by
  have hp : mutedError.Proper := by
    refine ⟨fun i hi => ?_, ?_, fun v hv => ?_⟩
    · cases hi
    · exact ⟨by decide, by decide⟩
    · cases hv
      trivial
  have hb : mutedError.encode.length ≤ Frame.room 86 := by decide +kernel
  have hr : (Frame.Reader.ofChunks 5 [mutedError.write true]).Delivers (mutedError.write true) := by
    simpa using Frame.Reader.delivers_ofChunks (by decide : 0 < 5) [mutedError.write true]
  obtain ⟨hwritten, hframed, hread⟩ := written_messages_read_back
  have hd := hwritten mutedError hp rfl
  exact ⟨hp, rfl, hb, hd, hframed mutedError 86 _ hp rfl hb hr, hread _ _ _ _ (congrArg Prod.fst hd) rfl⟩

end Message

end Parley
