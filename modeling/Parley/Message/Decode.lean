import Parley.Json.Parser
import Parley.Message.Basic
import Parley.Schema.Catalogue
import Parley.Table

/-!
# Reading messages

The kind of a message follows from the fields it has: with an id and a method it is a request, with an id alone the answer to
one, and without an id a notification. Params are checked against the shape that is looked up for the method. The result of a
request of ours is checked against the shape that was remembered when the request was sent, and an answer uses up what was
remembered, whether or not it can be read.
-/

namespace Parley

/-- The shapes that the results of our unanswered requests must have. -/
abbrev Expected := Table MessageId Shape

/-- What keeps a JSON object from being a message. -/
inductive RequestFault where
  | notAnObject
  | requestId (found : Json)
  | methodNotText
  | noMethod
  | malformedError (m : Mismatch)
  | resultId (found : Json)
  deriving Repr

/-- The wording of such a fault. -/
def RequestFault.message : RequestFault → String
  | .notAnObject => "message is not a JSON object"
  | .requestId found => "request id must be a string or integer, got " ++ found.render
  | .methodNotText => "method must be a string"
  | .noMethod => "notification without a method"
  | .malformedError m => "malformed error object: " ++ m.message
  | .resultId found => "result id must be a string or integer, got " ++ found.render

/-- Why a payload is not a message. -/
inductive DecodeFault where
  | parse (e : Json.ParseError)
  | version (found : Option String)
  | invalidRequest (id : Option MessageId) (fault : RequestFault)
  | invalidParams (id : Option MessageId) (method : String) (m : Mismatch)
  | invalidResponse (id : MessageId) (m : Mismatch)
  deriving Repr

namespace DecodeFault

/-- A text that may be missing, as it is shown. -/
def describe : Option String → String
  | none => "None"
  | some s => "Some(" ++ Text.quoted s ++ ")"

/-- The name of a kind of fault. -/
def kind : DecodeFault → String
  | .parse _ => "Parse"
  | .version _ => "VersionMismatch"
  | .invalidRequest .. => "InvalidRequest"
  | .invalidParams .. => "InvalidParams"
  | .invalidResponse .. => "InvalidResponse"

/-- The wording of a fault. -/
def message : DecodeFault → String
  | .parse e => "Parse error: " ++ e.message
  | .version found => "Unsupported JSON-RPC version: " ++ describe found
  | .invalidRequest _ fault => "Invalid request: " ++ fault.message
  | .invalidParams _ method m => "Invalid params for '" ++ method ++ "': " ++ m.message
  | .invalidResponse id m => "Invalid response to request " ++ id.text ++ ": " ++ m.message

/-- The request that has to be told of the fault. -/
def replyId : DecodeFault → Option MessageId
  | .invalidRequest id _ | .invalidParams id _ _ => id
  | _ => none

/-- The code of a fault. -/
def code : DecodeFault → ErrorCode
  | .parse _ => .parseError
  | .version _ | .invalidRequest .. => .invalidRequest
  | .invalidParams .. => .invalidParams
  | .invalidResponse .. => .internalError

/-- What the sender is told of the fault. -/
def toResponseError (f : DecodeFault) : ResponseError := .of f.code f.message

end DecodeFault

namespace ResponseError

/-- The shape of an error object. -/
def shape : Shape :=
  Shape.struct "ResponseError" [Shape.req "code" Shape.i32, Shape.req "message" .text, Shape.omissible "data" .any]

/-- The error that a JSON value describes. Data that is null is no data. -/
def ofJson (v : Json) : Except Mismatch ResponseError := do
  let v ← shape.read v
  return ⟨((v.field? "code").bind Json.int?).getD 0, ((v.field? "message").bind Json.str?).getD "", v.field? "data"⟩

end ResponseError

namespace Message

/-- Checks a payload against a shape that may be known for it. -/
def check (shape : Option Shape) (v : Json) : Except Mismatch Unit :=
  match shape with
  | some s => (s.read v).map fun _ => ()
  | none => .ok ()

/-- The method that the fields name. -/
def methodOf (fields : List (String × Json)) : Option String := (Json.lookupField "method" fields).bind Json.str?

/-- The params in the fields, null if there are none. -/
def paramsOf (fields : List (String × Json)) : Json := Json.ofOption (Json.lookupField "params" fields)

/-- Reads a request. -/
def decodeRequest (c : ParamsLookup) (rawId : Json) (fields : List (String × Json)) : Except DecodeFault Message :=
  match MessageId.ofJson? rawId with
  | none => .error (.invalidRequest none (.requestId rawId))
  | some id =>
    match methodOf fields with
    | none => .error (.invalidRequest (some id) .methodNotText)
    | some method =>
      match check (c.request? method) (paramsOf fields) with
      | .error m => .error (.invalidParams (some id) method m)
      | .ok () => .ok (.request id method (paramsOf fields))

/-- Reads a notification. -/
def decodeNotification (c : ParamsLookup) (fields : List (String × Json)) : Except DecodeFault Message :=
  match methodOf fields with
  | none => .error (.invalidRequest none .noMethod)
  | some method =>
    match check (c.notification? method) (paramsOf fields) with
    | .error m => .error (.invalidParams none method m)
    | .ok () => .ok (.notification method (paramsOf fields))

/-- Reads an answer, of which `shape` was remembered. -/
def decodeResponse (shape : Option Shape) (rawId : Json) (fields : List (String × Json)) : Except DecodeFault Message :=
  match Json.lookupField "error" fields with
  | some raw =>
    match ResponseError.ofJson raw, MessageId.ofJson? rawId with
    | .ok e, id => .ok (.error id e)
    | .error m, some id => .error (.invalidResponse id m)
    | .error m, none => .error (.invalidRequest none (.malformedError m))
  | none =>
    match MessageId.ofJson? rawId with
    | none => .error (.invalidRequest none (.resultId rawId))
    | some id =>
      let value := Json.ofOption (Json.lookupField "result" fields)
      match check shape value with
      | .error m => .error (.invalidResponse id m)
      | .ok () => .ok (.result id value)

/-- Reads the fields of a message of the right version, and gives what is still expected afterwards. -/
def decodeFields (c : ParamsLookup) (expected : Expected) (fields : List (String × Json)) :
    Except DecodeFault Message × Expected :=
  match Json.lookupField "id" fields with
  | none => (decodeNotification c fields, expected)
  | some rawId =>
    if (Json.lookupField "method" fields).isSome then (decodeRequest c rawId fields, expected)
    else
      match MessageId.ofJson? rawId with
      | none => (decodeResponse none rawId fields, expected)
      | some id => (decodeResponse (expected.find? id) rawId fields, expected.erase id)

/-- Reads a message, and gives what is still expected afterwards. -/
def decode (c : ParamsLookup) (expected : Expected) (payload : Bytes) : Except DecodeFault Message × Expected :=
  match Json.parse payload with
  | .error e => (.error (.parse e), expected)
  | .ok (.obj fields) =>
    match Json.lookupField "jsonrpc" fields with
    | some (.str version) =>
      if version = protocolVersion then decodeFields c expected fields
      else (.error (.version (some version)), expected)
    | _ => (.error (.version none), expected)
  | .ok _ => (.error (.invalidRequest none .notAnObject), expected)

end Message

end Parley
