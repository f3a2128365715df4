import Parley.Message.Decode

/-!
# Whom a payload concerns

Which request a payload is about, by its JSON alone. The fields of an object of the right version ask for an answer under their
id if there is a method among them (`Message.asker?`), and answer a request of ours otherwise (`Message.replier?`). The decoder
finds the same, whether or not it can read the payload (`asked_decode`, `told_decode`).
-/

namespace Parley.Message

/-- The fields of a payload that is an object of the right version. -/
def body? (payload : Bytes) : Option (List (String × Json)) :=
  match Json.parse payload with
  | .ok (.obj fields) =>
    match Json.lookupField "jsonrpc" fields with
    | some (.str version) => if version = protocolVersion then some fields else none
    | _ => none
  | _ => none

/-- The id under which fields ask for an answer. -/
def askerOf (fields : List (String × Json)) : Option MessageId :=
  if (Json.lookupField "method" fields).isSome then (Json.lookupField "id" fields).bind MessageId.ofJson? else none

/-- The id of the request of ours that fields answer. -/
def replierOf (fields : List (String × Json)) : Option MessageId :=
  if (Json.lookupField "method" fields).isSome then none else (Json.lookupField "id" fields).bind MessageId.ofJson?

/-- The id under which a payload asks for an answer, whether or not it can be read as a request. -/
def asker? (payload : Bytes) : Option MessageId := (body? payload).bind askerOf

/-- The id of the request of ours that a payload answers, whether or not it can be read as an answer. -/
def replier? (payload : Bytes) : Option MessageId := (body? payload).bind replierOf

/-- Who has to be told of the outcome, by what was read: the sender of a request, or of a fault in one. -/
def asked : Except DecodeFault Message → Option MessageId
  | .ok (.request id _ _) => some id
  | .ok _ => none
  | .error f => f.replyId

/-- Which request of ours has its outcome, by what was read: the one that is answered, well or not. -/
def told : Except DecodeFault Message → Option MessageId
  | .ok (.result id _) => some id
  | .ok (.error id _) => id
  | .error (.invalidResponse id _) => some id
  | _ => none

/-- Both parties of what was read. -/
def parties (d : Except DecodeFault Message) : Option MessageId × Option MessageId := (asked d, told d)

/-- A request is read for the id in its fields, and a fault in it is told to that id. -/
theorem parties_decodeRequest (c : ParamsLookup) (rawId : Json) (fields : List (String × Json)) :
    parties (decodeRequest c rawId fields) = (MessageId.ofJson? rawId, none) := by
  unfold decodeRequest
  cases MessageId.ofJson? rawId with
  | none => rfl
  | some id =>
    simp only
    cases methodOf fields with
    | none => rfl
    | some method =>
      simp only
      cases check (c.request? method) (paramsOf fields) <;> rfl

/-- A notification concerns no request, whether or not it can be read. -/
theorem parties_decodeNotification (c : ParamsLookup) (fields : List (String × Json)) :
    parties (decodeNotification c fields) = (none, none) := by
  unfold decodeNotification
  cases methodOf fields with
  | none => rfl
  | some method =>
    simp only
    cases check (c.notification? method) (paramsOf fields) <;> rfl

/-- An answer is for the request of its id, whether or not it can be read. -/
theorem parties_decodeResponse (shape : Option Shape) (rawId : Json) (fields : List (String × Json)) :
    parties (decodeResponse shape rawId fields) = (none, MessageId.ofJson? rawId) := by
  unfold decodeResponse
  cases Json.lookupField "error" fields with
  | some raw =>
    simp only
    cases ResponseError.ofJson raw <;> cases MessageId.ofJson? rawId <;> rfl
  | none =>
    simp only
    cases MessageId.ofJson? rawId with
    | none => rfl
    | some id =>
      simp only
      cases check shape (Json.ofOption (Json.lookupField "result" fields)) <;> rfl

/-- Whether fields ask or answer is a matter of the method among them. -/
theorem parties_decodeFields (c : ParamsLookup) (expected : Expected) (fields : List (String × Json)) :
    parties (decodeFields c expected fields).1 = (askerOf fields, replierOf fields) := by
  unfold decodeFields askerOf replierOf
  cases Json.lookupField "id" fields with
  | none => simp [parties_decodeNotification]
  | some rawId =>
    by_cases hm : (Json.lookupField "method" fields).isSome
    · simp [hm, parties_decodeRequest]
    · cases hid : MessageId.ofJson? rawId <;> simp [hm, hid, parties_decodeResponse]

/-- The decoder finds the parties of a payload. -/
theorem parties_decode (c : ParamsLookup) (expected : Expected) (payload : Bytes) :
    parties (decode c expected payload).1 = (asker? payload, replier? payload) := by
  unfold asker? replier? body? decode
  cases Json.parse payload with
  | error e => rfl
  | ok v =>
    cases v with
    | obj fields =>
      simp only
      cases Json.lookupField "jsonrpc" fields with
      | none => rfl
      | some version =>
        cases version with
        | str version =>
          simp only
          split
          · exact parties_decodeFields c expected fields
          · rfl
        | _ => rfl
    | _ => rfl

/-- The decoder answers for exactly the payloads that ask. -/
theorem asked_decode (c : ParamsLookup) (expected : Expected) (payload : Bytes) :
    asked (decode c expected payload).1 = asker? payload :=
  congrArg Prod.fst (parties_decode c expected payload)

/-- The decoder hands on exactly the payloads that answer requests of ours. -/
theorem told_decode (c : ParamsLookup) (expected : Expected) (payload : Bytes) :
    told (decode c expected payload).1 = replier? payload :=
  congrArg Prod.snd (parties_decode c expected payload)

/-- Reading a payload uses up what was remembered for the request of ours that it answers, and nothing else. -/
theorem expected_decode (c : ParamsLookup) (expected : Expected) (payload : Bytes) :
    (decode c expected payload).2 =
      match replier? payload with
      | some id => expected.erase id
      | none => expected := by
  unfold replier? body? decode
  cases Json.parse payload with
  | error e => rfl
  | ok v =>
    cases v with
    | obj fields =>
      simp only
      cases Json.lookupField "jsonrpc" fields with
      | none => rfl
      | some version =>
        cases version with
        | str version =>
          simp only
          split
          · simp only [decodeFields, Option.bind_some, replierOf]
            cases Json.lookupField "id" fields with
            | none => simp
            | some rawId =>
              by_cases hm : (Json.lookupField "method" fields).isSome
              · simp [hm]
              · cases hid : MessageId.ofJson? rawId <;> simp [hm, hid]
          · rfl
        | _ => rfl
    | _ => rfl

/-- A payload is read by what is expected of the request of ours that it answers, whatever else is expected. -/
theorem decode_fst_congr {c : ParamsLookup} {expected expected' : Expected} {payload : Bytes}
    (h : ∀ id, replier? payload = some id → expected.find? id = expected'.find? id) :
    (decode c expected payload).1 = (decode c expected' payload).1 := by
  unfold replier? body? at h
  unfold decode
  split
  · rfl
  · rename_i fields hp
    rw [hp] at h
    simp only at h ⊢
    split
    · rename_i version hv
      rw [hv] at h
      split
      · rename_i hs
        simp only [hs, if_true, Option.bind_some, replierOf] at h
        unfold decodeFields
        split
        · rfl
        · rename_i rawId hid
          rw [hid] at h
          split
          · rfl
          · rename_i hm
            rw [if_neg hm] at h
            split
            · rfl
            · rename_i id hi
              exact congrArg (decodeResponse · rawId fields) (h id hi)
      · rfl
    · rfl
  · rfl

end Parley.Message
