import Parley.Message.Decode
import Parley.Proofs.Json.RoundTrip

/-!
# Reading written messages

What a request or a notification is read as when it comes as it was written. The id of a request has to be one that the decoder
accepts, which every id of a request that was read is (`MessageId.isAccepted_of_ofJson?`).
-/

namespace Parley

namespace MessageId

/-- The decoder accepts the id: a text, or a whole number of 64 bits. -/
def IsAccepted (id : MessageId) : Prop := ofJson? id.toJson = some id

/-- An id that was read is accepted. -/
theorem isAccepted_of_ofJson? {v : Json} {id : MessageId} (h : ofJson? v = some id) : id.IsAccepted := by
  unfold ofJson? at h
  split at h
  · obtain rfl := Option.some.inj h
    rfl
  · rename_i n
    split at h
    · rename_i hn
      obtain rfl := Option.some.inj h
      exact if_pos hn
    · cases h
  · cases h

/-- An accepted id is read from its written form, however deep it stands. -/
theorem IsAccepted.fits {id : MessageId} (h : id.IsAccepted) (depth : Nat) : id.toJson.fits depth = true := by
  cases id with
  | str s => simp [toJson, Json.fits]
  | num n =>
    have hn : -Nat.pow 2 63 ≤ n ∧ n < Nat.pow 2 63 := by
      by_cases hn : -Nat.pow 2 63 ≤ n ∧ n < Nat.pow 2 63
      · exact hn
      · have h : (if -Nat.pow 2 63 ≤ n ∧ n < Nat.pow 2 63 then some (num n) else none) = some (num n) := h
        rw [if_neg hn] at h
        cases h
    have hm : (Json.maxSignificand : Int) = 2 ^ 64 - 1 := rfl
    have hp : ((Nat.pow 2 63 : Nat) : Int) = 2 ^ 63 := rfl
    simp only [toJson, Json.int, Json.fits, decide_eq_true_eq]
    omega

@[simp] theorem normal_toJson (id : MessageId) : id.toJson.normal = id.toJson := by
  cases id <;> rfl

end MessageId

namespace Message

/-- A text of an object of the right version is read by its fields. -/
theorem decode_of_parse {payload : Bytes} {fields : List (String × Json)} (h : Json.parse payload = .ok (.obj fields))
    (hv : Json.lookupField "jsonrpc" fields = some (.str protocolVersion)) (c : ParamsLookup) (expected : Expected) :
    decode c expected payload = decodeFields c expected fields := by
  simp [decode, h, hv]

/-- The fields of a written message, in the order in which they are read. -/
theorem parse_encode {m : Message} (h : m.fields.all (fun f => f.2.fits 126) = true) :
    Json.parse m.encode = .ok (.obj (Json.normalFields [] m.fields)) :=
  Json.parse_print h

/-- Params that are written are found, and params that are not written are null. -/
theorem paramsOf_normalFields (params : Json) {seen : List (String × Json)} (h : Json.lookupField "params" seen = none) :
    paramsOf (Json.normalFields seen (paramsField params)) = params.normal := by
  cases params <;>
    simp [paramsOf, paramsField, Json.normalFields, Json.normal, Json.lookupField_insertField, Json.ofOption, h]

/-- The params that are written leave the other fields as they are. -/
theorem lookupField_normalFields {name : String} (h : name ≠ "params") (params : Json) (seen : List (String × Json)) :
    Json.lookupField name (Json.normalFields seen (paramsField params)) = Json.lookupField name seen := by
  cases params <;> simp [paramsField, Json.normalFields, Json.lookupField_insertField, h]

theorem paramsField_fits {params : Json} (h : params.fits 126 = true) :
    (paramsField params).all (fun f => f.2.fits 126) = true := by
  cases params <;> simp_all [paramsField]

/-- A written request is read as the request, if its params have the shape of the method. -/
theorem decode_request {c : ParamsLookup} {id : MessageId} (hid : id.IsAccepted) {method : String} {params : Json}
    (hp : params.fits 126 = true) (hs : (check (c.request? method) params.normal) = .ok ()) (expected : Expected) :
    decode c expected (request id method params).encode = (.ok (.request id method params.normal), expected) := by
  have hf : (request id method params).fields.all (fun f => f.2.fits 126) = true := by
    simp [fields, hid.fits, Json.fits, paramsField_fits hp]
  have hid : MessageId.ofJson? id.toJson = some id := hid
  rw [decode_of_parse (parse_encode hf)]
  · simp [decodeFields, decodeRequest, methodOf, fields, Json.normalFields, lookupField_normalFields, paramsOf_normalFields,
      Json.lookupField_insertField, Json.normal, Json.str?, hid, hs]
  · simp [fields, Json.normalFields, lookupField_normalFields, Json.lookupField_insertField, Json.normal]

/-- A written notification is read as the notification, if its params have the shape of the method, and refused otherwise. -/
theorem decode_notification {c : ParamsLookup} {method : String} {params : Json} {payload : Bytes}
    (hp : Json.parse payload = .ok (.obj (Json.normalFields [] (notification method params).fields))) (expected : Expected) :
    decode c expected payload =
      (match check (c.notification? method) params.normal with
        | .ok () => .ok (.notification method params.normal)
        | .error m => .error (.invalidParams none method m), expected) := by
  rw [decode_of_parse hp]
  · cases hs : check (c.notification? method) params.normal <;>
      simp [decodeFields, decodeNotification, methodOf, fields, Json.normalFields, lookupField_normalFields,
        paramsOf_normalFields, Json.lookupField_insertField, Json.normal, Json.str?, hs]
  · simp [fields, Json.normalFields, lookupField_normalFields, Json.lookupField_insertField, Json.normal]

end Message

end Parley
