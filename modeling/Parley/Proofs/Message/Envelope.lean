import Parley.Proofs.Message.ErrorObject
import Parley.Proofs.Message.Parties

/-!
# The grammar of messages

Which JSON objects are messages, and of which kind: `Envelope` has a case for each kind. The decoder takes exactly these objects
(`decode_eq_ok_iff`). Where it refuses a payload it names the request that has to be told, and whether it takes or refuses an
answer it forgets what was remembered for it; both go by the id and by whether there is a method (`Asks`, `Answers`).
-/

namespace Parley

namespace MessageId

/-- The id that a JSON value is: a text, or a whole number of 64 bits. -/
inductive Names : Json → MessageId → Prop
  | text (s : String) : Names (.str s) (.str s)
  | number {n : Int} (h : -Nat.pow 2 63 ≤ n ∧ n < Nat.pow 2 63) : Names (.int n) (.num n)

/-- A value is read as an id just if it names it. -/
theorem ofJson?_eq_some_iff {v : Json} {id : MessageId} : ofJson? v = some id ↔ Names v id := by
  constructor
  · intro h
    unfold ofJson? at h
    split at h
    · cases h
      exact .text _
    · split at h
      · rename_i hn
        cases h
        exact .number hn
      · cases h
    · cases h
  · rintro (s | h)
    · rfl
    · exact if_pos h

end MessageId

namespace Message

/-- The payload is an object of the right version, with these fields. -/
def Carries (payload : Bytes) (fields : List (String × Json)) : Prop :=
  Json.parse payload = .ok (.obj fields) ∧ Json.lookupField "jsonrpc" fields = some (.str "2.0")

/-- The value is valid for the shape, if there is one. -/
def Valid (shape : Option Shape) (v : Json) : Prop := ∀ s ∈ shape, s.admits v = true

/-- The fields ask for an answer under the id. -/
def Asks (fields : List (String × Json)) (id : MessageId) : Prop :=
  ∃ rawId, Json.lookupField "id" fields = some rawId ∧ MessageId.Names rawId id ∧ Json.lookupField "method" fields ≠ none

/-- The fields are shaped like an answer to the request of the id. -/
def Answers (fields : List (String × Json)) (id : MessageId) : Prop :=
  ∃ rawId, Json.lookupField "id" fields = some rawId ∧ MessageId.Names rawId id ∧ Json.lookupField "method" fields = none

/-- The message that fields are, where the shapes of methods and of expected results are known. -/
inductive Envelope (c : ParamsLookup) (expected : Expected) (fields : List (String × Json)) : Message → Prop
  | notification {method params} (hid : Json.lookupField "id" fields = none)
      (hm : Json.lookupField "method" fields = some (.str method))
      (hp : params = Json.ofOption (Json.lookupField "params" fields))
      (hv : Valid (c.notification? method) params) : Envelope c expected fields (.notification method params)
  | request {rawId id method params} (hr : Json.lookupField "id" fields = some rawId) (hid : MessageId.Names rawId id)
      (hm : Json.lookupField "method" fields = some (.str method))
      (hp : params = Json.ofOption (Json.lookupField "params" fields))
      (hv : Valid (c.request? method) params) : Envelope c expected fields (.request id method params)
  | error {rawId id raw e} (hr : Json.lookupField "id" fields = some rawId) (hid : ∀ i, id = some i ↔ MessageId.Names rawId i)
      (hm : Json.lookupField "method" fields = none) (he : Json.lookupField "error" fields = some raw)
      (hd : ResponseError.Describes raw e) : Envelope c expected fields (.error id e)
  | result {rawId id value} (hr : Json.lookupField "id" fields = some rawId) (hid : MessageId.Names rawId id)
      (hm : Json.lookupField "method" fields = none) (he : Json.lookupField "error" fields = none)
      (hp : value = Json.ofOption (Json.lookupField "result" fields)) (hv : Valid (expected.find? id) value) :
      Envelope c expected fields (.result id value)

/-- The fields of a payload are those that it carries. -/
theorem body?_eq_some_iff {payload : Bytes} {fields : List (String × Json)} :
    body? payload = some fields ↔ Carries payload fields := by
  unfold body? Carries
  constructor
  · intro h
    split at h
    · rename_i given hp
      split at h
      · rename_i version hv
        split at h
        · rename_i hs
          cases h
          rw [hs] at hv
          exact ⟨hp, hv⟩
        · cases h
      · cases h
    · cases h
  · rintro ⟨hp, hv⟩
    simp [hp, hv, protocolVersion]

/-- Fields ask under an id just if that is found. -/
theorem askerOf_eq_some_iff {fields : List (String × Json)} {id : MessageId} :
    askerOf fields = some id ↔ Asks fields id := by
  unfold askerOf Asks
  cases Json.lookupField "method" fields <;> simp [Option.bind_eq_some_iff, MessageId.ofJson?_eq_some_iff]

/-- Fields answer an id just if that is found. -/
theorem replierOf_eq_some_iff {fields : List (String × Json)} {id : MessageId} :
    replierOf fields = some id ↔ Answers fields id := by
  unfold replierOf Answers
  cases Json.lookupField "method" fields <;> simp [Option.bind_eq_some_iff, MessageId.ofJson?_eq_some_iff]

/-- A payload asks under an id just if that is found. -/
theorem asker?_eq_some_iff {payload : Bytes} {id : MessageId} :
    asker? payload = some id ↔ ∃ fields, Carries payload fields ∧ Asks fields id := by
  simp only [asker?, Option.bind_eq_some_iff, body?_eq_some_iff, askerOf_eq_some_iff]

/-- A payload answers an id just if that is found. -/
theorem replier?_eq_some_iff {payload : Bytes} {id : MessageId} :
    replier? payload = some id ↔ ∃ fields, Carries payload fields ∧ Answers fields id := by
  simp only [replier?, Option.bind_eq_some_iff, body?_eq_some_iff, replierOf_eq_some_iff]

/-- A value passes the check just if it is valid. -/
theorem check_eq_ok_iff {shape : Option Shape} {v : Json} : check shape v = .ok () ↔ Valid shape v := by
  cases shape with
  | none => simp [check, Valid]
  | some s =>
    simp only [check, Valid, Option.mem_def, Option.some.injEq, forall_eq', Shape.admits]
    cases s.read v <;> simp [Except.map, Except.isOk, Except.toBool]

/-- A method is a text. -/
theorem methodOf_eq_some_iff {fields : List (String × Json)} {method : String} :
    methodOf fields = some method ↔ Json.lookupField "method" fields = some (.str method) := by
  unfold methodOf
  cases Json.lookupField "method" fields with
  | none => simp
  | some v => cases v <;> simp [Json.str?]

section Fields

variable {c : ParamsLookup} {expected : Expected} {fields : List (String × Json)} {m : Message}

/-- Fields without an id are taken for the notification that they are. -/
theorem decodeNotification_eq_ok_iff (hid : Json.lookupField "id" fields = none) :
    decodeNotification c fields = .ok m ↔ Envelope c expected fields m := by
  constructor
  · intro h
    unfold decodeNotification at h
    split at h
    · cases h
    · rename_i method hm
      split at h
      · cases h
      · rename_i hc
        cases h
        exact .notification hid (methodOf_eq_some_iff.mp hm) rfl (check_eq_ok_iff.mp hc)
  · intro h
    cases h with
    | notification _ hm hp hv =>
      subst hp
      rw [decodeNotification, methodOf_eq_some_iff.mpr hm]
      simp only [paramsOf, check_eq_ok_iff.mpr hv]
    | request hr | error hr | result hr => simp [hid] at hr

/-- Fields with an id and a method are taken for the request that they are. -/
theorem decodeRequest_eq_ok_iff {rawId : Json} (hr : Json.lookupField "id" fields = some rawId)
    (hm : Json.lookupField "method" fields ≠ none) : decodeRequest c rawId fields = .ok m ↔ Envelope c expected fields m := by
  constructor
  · intro h
    unfold decodeRequest at h
    split at h
    · cases h
    · rename_i id hid
      split at h
      · cases h
      · rename_i method hm
        split at h
        · cases h
        · rename_i hc
          cases h
          exact .request hr (MessageId.ofJson?_eq_some_iff.mp hid) (methodOf_eq_some_iff.mp hm) rfl (check_eq_ok_iff.mp hc)
  · intro h
    cases h with
    | request hr' hid hm' hp hv =>
      obtain rfl := Option.some.inj (hr.symm.trans hr')
      subst hp
      rw [decodeRequest, MessageId.ofJson?_eq_some_iff.mpr hid, methodOf_eq_some_iff.mpr hm']
      simp only [paramsOf, check_eq_ok_iff.mpr hv]
    | notification hid => simp [hr] at hid
    | error _ _ hm' | result _ _ hm' => exact absurd hm' hm

/-- Fields with an id and no method are taken for the answer that they are. -/
theorem decodeResponse_eq_ok_iff (hf : ∀ f ∈ fields, f.2.Proper 126) {rawId : Json}
    (hr : Json.lookupField "id" fields = some rawId) (hm : Json.lookupField "method" fields = none) :
    decodeResponse ((MessageId.ofJson? rawId).bind expected.find?) rawId fields = .ok m ↔ Envelope c expected fields m := by
  constructor
  · intro h
    unfold decodeResponse at h
    split at h
    · rename_i raw he
      split at h
      · rename_i e hd
        cases h
        have hraw : raw.Proper 126 := hf _ (Json.mem_of_lookupField he)
        exact .error hr (fun i => MessageId.ofJson?_eq_some_iff) hm he ((ResponseError.ofJson_eq_ok_iff hraw).mp hd)
      · cases h
      · cases h
    · rename_i he
      split at h
      · cases h
      · rename_i id hid
        simp only at h
        split at h
        · cases h
        · rename_i hc
          cases h
          rw [hid] at hc
          exact .result hr (MessageId.ofJson?_eq_some_iff.mp hid) hm he rfl (check_eq_ok_iff.mp hc)
  · intro h
    cases h with
    | error hr' hid _ he hd =>
      obtain rfl := Option.some.inj (hr.symm.trans hr')
      have hid : MessageId.ofJson? rawId = _ := Option.ext fun i => MessageId.ofJson?_eq_some_iff.trans (hid i).symm
      have hraw := hf _ (Json.mem_of_lookupField he)
      simp only [decodeResponse, he, (ResponseError.ofJson_eq_ok_iff hraw).mpr hd, hid]
    | result hr' hid _ he hp hv =>
      obtain rfl := Option.some.inj (hr.symm.trans hr')
      subst hp
      simp only [decodeResponse, he, MessageId.ofJson?_eq_some_iff.mpr hid, Option.bind_some, check_eq_ok_iff.mpr hv]
    | notification hid => simp [hr] at hid
    | request _ _ hm' => simp [hm] at hm'

/-- The fields of an object of the right version are taken for the message that they are. -/
theorem decodeFields_eq_ok_iff (hf : ∀ f ∈ fields, f.2.Proper 126) :
    (decodeFields c expected fields).1 = .ok m ↔ Envelope c expected fields m := by
  unfold decodeFields
  cases hr : Json.lookupField "id" fields with
  | none => exact decodeNotification_eq_ok_iff hr
  | some rawId =>
    cases hm : Json.lookupField "method" fields with
    | some method => exact decodeRequest_eq_ok_iff hr (by simp [hm])
    | none =>
      have hi : decodeResponse ((MessageId.ofJson? rawId).bind expected.find?) rawId fields = .ok m ↔
          Envelope c expected fields m := decodeResponse_eq_ok_iff hf hr hm
      cases hid : MessageId.ofJson? rawId with
      | none => simpa [hid] using hi
      | some id => simpa [hid] using hi

end Fields

/-- A payload is read by its fields, if it is an object of the right version, and refused otherwise. -/
theorem decode_eq_ok_iff_exists {c : ParamsLookup} {expected : Expected} {payload : Bytes} {m : Message} :
    (decode c expected payload).1 = .ok m ↔ ∃ fields, Carries payload fields ∧ (decodeFields c expected fields).1 = .ok m := by
  unfold decode
  constructor
  · intro h
    split at h
    · cases h
    · rename_i fields hp
      split at h
      · rename_i version hv
        split at h
        · rename_i hs
          rw [hs] at hv
          exact ⟨fields, ⟨hp, hv⟩, h⟩
        · cases h
      · cases h
    · cases h
  · rintro ⟨fields, ⟨hp, hv⟩, h⟩
    simp only [hp, hv, protocolVersion, if_true]
    exact h

/-- A payload is taken for the message that its fields are. -/
theorem decode_eq_ok_iff {c : ParamsLookup} {expected : Expected} {payload : Bytes} {m : Message} :
    (decode c expected payload).1 = .ok m ↔ ∃ fields, Carries payload fields ∧ Envelope c expected fields m := by
  rw [decode_eq_ok_iff_exists]
  refine exists_congr fun fields => and_congr_right fun hc => ?_
  have hp : (Json.obj fields).Proper 127 := Json.parse_proper hc.1
  exact decodeFields_eq_ok_iff hp.2

/-- What is remembered is forgotten by the answer that it is remembered for, and by nothing else. -/
theorem find?_decode_eq_some_iff {c : ParamsLookup} {expected : Expected} {payload : Bytes} {id : MessageId} {shape : Shape} :
    (decode c expected payload).2.find? id = some shape ↔
      expected.find? id = some shape ∧ ¬∃ fields, Carries payload fields ∧ Answers fields id := by
  rw [expected_decode, ← replier?_eq_some_iff]
  cases hr : replier? payload with
  | none => simp
  | some i =>
    simp only [Table.find?_erase, Option.some.injEq]
    by_cases hi : id = i
    · simp [hi]
    · simp [hi, Ne.symm hi]

/-- What the decoder makes of a payload, whatever shapes are looked up and remembered, in three parts.
1. It is read as a message iff it is an object of the right version that is this message.
2. If it is refused, the request that has to be told is the one whose answer the object asks for.
3. Read or refused, what was remembered is kept, but for the request of which the object has the shape of an answer. -/
theorem decode_accepts_envelopes (c : ParamsLookup) (expected : Expected) (payload : Bytes) :
    (∀ m, (decode c expected payload).1 = .ok m ↔ ∃ fields, Carries payload fields ∧ Envelope c expected fields m) ∧
      (∀ f, (decode c expected payload).1 = .error f →
        ∀ id, f.replyId = some id ↔ ∃ fields, Carries payload fields ∧ Asks fields id) ∧
      (∀ id shape, (decode c expected payload).2.find? id = some shape ↔
        expected.find? id = some shape ∧ ¬∃ fields, Carries payload fields ∧ Answers fields id) := by
  refine ⟨fun m => decode_eq_ok_iff, fun f hf id => ?_, fun id shape => find?_decode_eq_some_iff⟩
  have ha : f.replyId = asker? payload := by simpa [hf, asked] using asked_decode c expected payload
  rw [ha, asker?_eq_some_iff]

/-- The fields of a request whose method is null. -/
def namelessFields : List (String × Json) := [("id", .int 7), ("jsonrpc", .str "2.0"), ("method", .null)]

/-- A request whose method is null. -/
def namelessRequest : Bytes := Json.print (.obj namelessFields)

/-- A request without a name is refused, its sender is told, and what is remembered under its id is kept. -/
theorem decode_accepts_envelopes_namelessRequest :
    Carries namelessRequest namelessFields ∧
      (∃ f, (decode Catalogue.untyped (({} : Expected).insert (.num 7) .text) namelessRequest).1 = .error f ∧
        f.replyId = some (.num 7)) ∧
      (decode Catalogue.untyped (({} : Expected).insert (.num 7) .text) namelessRequest).2.find? (.num 7) = some .text :=
  have hc : Carries namelessRequest namelessFields := ⟨Json.parse_print rfl, rfl⟩
  have ha : Asks namelessFields (.num 7) := ⟨.int 7, rfl, .number (by decide), by simp [namelessFields, Json.lookupField]⟩
  have hf : (decode Catalogue.untyped (({} : Expected).insert (.num 7) .text) namelessRequest).1 =
      .error (.invalidRequest (some (.num 7)) .methodNotText) := by
    simp only [decode, hc.1, hc.2, protocolVersion, if_true]
    rfl
  have hn : ¬∃ fields, Carries namelessRequest fields ∧ Answers fields (.num 7) := by
    rintro ⟨fields, hc', _, -, -, hm⟩
    cases hc.1.symm.trans hc'.1
    cases hm
  have h := decode_accepts_envelopes Catalogue.untyped (({} : Expected).insert (.num 7) .text) namelessRequest
  ⟨hc, ⟨_, hf, (h.2.1 _ hf _).mpr ⟨_, hc, ha⟩⟩, (h.2.2 _ _).mpr ⟨rfl, hn⟩⟩

end Message

end Parley
