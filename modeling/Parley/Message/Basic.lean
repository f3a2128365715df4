import Parley.Message.Id
import Parley.Frame.Framer

/-!
# Messages

A message is a notification, a request, or the answer to a request: a result or an error. `Message.fields` says which fields a
message is written with, and in which order; `Message.encode` writes it, with a header block where the transport needs one.
-/

namespace Parley

/-- The codes with a meaning of their own. -/
inductive ErrorCode where
  | parseError
  | invalidRequest
  | methodNotFound
  | invalidParams
  | internalError
  | serverNotInitialized
  | unknownErrorCode
  | requestFailed
  | serverCancelled
  | contentModified
  | requestCancelled
  deriving DecidableEq, Repr

/-- The number of a code. -/
def ErrorCode.number : ErrorCode → Int
  | .parseError => -32700
  | .invalidRequest => -32600
  | .methodNotFound => -32601
  | .invalidParams => -32602
  | .internalError => -32603
  | .serverNotInitialized => -32002
  | .unknownErrorCode => -32001
  | .requestFailed => -32803
  | .serverCancelled => -32802
  | .contentModified => -32801
  | .requestCancelled => -32800

/-- The name of a code. -/
def ErrorCode.name : ErrorCode → String
  | .parseError => "ParseError"
  | .invalidRequest => "InvalidRequest"
  | .methodNotFound => "MethodNotFound"
  | .invalidParams => "InvalidParams"
  | .internalError => "InternalError"
  | .serverNotInitialized => "ServerNotInitialized"
  | .unknownErrorCode => "UnknownErrorCode"
  | .requestFailed => "RequestFailed"
  | .serverCancelled => "ServerCancelled"
  | .contentModified => "ContentModified"
  | .requestCancelled => "RequestCancelled"

/-- The codes. -/
def ErrorCode.all : List ErrorCode :=
  [.parseError, .invalidRequest, .methodNotFound, .invalidParams, .internalError, .serverNotInitialized, .unknownErrorCode,
   .requestFailed, .serverCancelled, .contentModified, .requestCancelled]

/-- The code of a name. -/
def ErrorCode.ofName? (name : String) : Option ErrorCode := ErrorCode.all.find? fun c => c.name = name

/-- The numbers reserved for errors of servers. -/
def ErrorCode.isServerError (number : Int) : Bool := -32099 ≤ number && number ≤ -32000

/-- What an error answer says. -/
structure ResponseError where
  code : Int
  message : String
  data : Option Json := none
  deriving BEq, Repr

namespace ResponseError

/-- An error with a code of its own and no data. -/
def of (code : ErrorCode) (message : String) : ResponseError := ⟨code.number, message, none⟩

/-- The error in a sentence. -/
def text (e : ResponseError) : String := e.message ++ " (code " ++ toString e.code ++ ")"

/-- The error says that the request was cancelled, by either side. -/
def isCancellation (e : ResponseError) : Bool :=
  e.code == ErrorCode.requestCancelled.number || e.code == ErrorCode.serverCancelled.number

/-- The fields of an error, in the order in which they are written. -/
def fields (e : ResponseError) : List (String × Json) :=
  [("code", .int e.code), ("message", .str e.message)] ++
    match e.data with
    | some v => [("data", v)]
    | none => []

/-- The error as it is written. -/
def render (e : ResponseError) : String := Json.render (.obj e.fields)

end ResponseError

/-- A message. An error may answer no request in particular. -/
inductive Message where
  | notification (method : String) (params : Json)
  | request (id : MessageId) (method : String) (params : Json)
  | result (id : MessageId) (value : Json)
  | error (id : Option MessageId) (error : ResponseError)
  deriving BEq, Repr

/-- The version that every message carries. -/
def protocolVersion : String := "2.0"

namespace Message

/-- The kind of a message. -/
def kind : Message → String
  | .notification .. => "notification"
  | .request .. => "request"
  | .result .. => "result"
  | .error .. => "error"

/-- The id of a message that has one. -/
def id? : Message → Option MessageId
  | .notification .. => none
  | .request id .. => some id
  | .result id _ => some id
  | .error id _ => id

/-- The method of a message that has one. -/
def method? : Message → Option String
  | .notification method _ => some method
  | .request _ method _ => some method
  | .result .. => none
  | .error .. => none

/-- Params that are null are not written. -/
def paramsField : Json → List (String × Json)
  | .null => []
  | params => [("params", params)]

/-- The fields of a message, in the order in which they are written. -/
def fields (m : Message) : List (String × Json) :=
  ("jsonrpc", .str protocolVersion) ::
    match m with
    | .notification method params => ("method", .str method) :: paramsField params
    | .request id method params => ("id", id.toJson) :: ("method", .str method) :: paramsField params
    | .result id value => [("id", id.toJson), ("result", value)]
    | .error id e => [("id", Json.ofOption (id.map MessageId.toJson)), ("error", .obj e.fields)]

/-- The text of a message. -/
def encode (m : Message) : Bytes := Json.print (.obj m.fields)

/-- A message as it is handed to the transport. -/
def write (framed : Bool) (m : Message) : Bytes :=
  if framed then Frame.frame m.encode else m.encode

end Message

end Parley
