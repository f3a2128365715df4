import Parley.Json.Parser
import Parley.Message.Reply
import Parley.Schema.Basic

/-!
# Failures

How a request of ours can fail (`PeerFailure`), and how a handler can fail (`Failure`). A handler fails on purpose when it
declares an error, refuses its params or is cancelled; such failures are told to the peer as they are, all others as internal
errors.
-/

namespace Parley

/-- Why a value could not be written or read. -/
inductive PayloadFault where
  | syntaxError (e : Json.ParseError)
  | mismatch (m : Mismatch)
  | keyNotText
  deriving Repr

/-- The wording of such a fault. -/
def PayloadFault.message : PayloadFault → String
  | .syntaxError e => e.message
  | .mismatch m => m.message
  | .keyNotText => "key must be a string"

/-- How a request of ours fails. -/
inductive PeerFailure where
  /-- The peer answered with an error. -/
  | response (e : ResponseError)
  /-- The connection closed before the answer. -/
  | closed
  /-- We cancelled the request. -/
  | cancelled
  /-- The request could not be written. -/
  | serialization (f : PayloadFault)
  /-- The answer could not be read. -/
  | deserialization (f : PayloadFault)
  deriving Repr

namespace PeerFailure

/-- The wording of a failure. -/
def message : PeerFailure → String
  | .response e => "Peer returned an error: " ++ e.text
  | .closed => "Connection closed"
  | .cancelled => "Request cancelled"
  | .serialization f => "Failed to serialize request: " ++ f.message
  | .deserialization f => "Failed to deserialize result: " ++ f.message

/-- Either side cancelled the request. -/
def isCancelled : PeerFailure → Bool
  | .cancelled => true
  | .response e => e.isCancellation
  | _ => false

/-- The name of a kind of failure. -/
def kind : PeerFailure → String
  | .response _ => "Response"
  | .closed => "ConnectionClosed"
  | .cancelled => "Cancelled"
  | .serialization _ => "Serialization"
  | .deserialization _ => "Deserialization"

/-- The record of a failure: its kind, its wording, whether either side cancelled, and what the peer answered. -/
def toJson (f : PeerFailure) : Json :=
  Json.object <|
    [("error", .str f.kind), ("message", .str f.message), ("cancelled", .bool f.isCancelled)] ++
      match f with
      | .response e => [("response", Json.object e.fields)]
      | _ => []

end PeerFailure

/-- What becomes of a request of ours. -/
abbrev PeerReply := Except PeerFailure Json

/-- Reads the result of a request of ours as a value of a shape. -/
def PeerReply.typed (shape : Shape) (r : PeerReply) : PeerReply :=
  match r with
  | .error f => .error f
  | .ok v =>
    match shape.read v with
    | .ok v => .ok v
    | .error m => .error (.deserialization (.mismatch m))

/-- The record of what became of a request of ours. -/
def PeerReply.toJson : PeerReply → Json
  | .ok v => Json.object [("ok", v)]
  | .error f => f.toJson

/-- How a handler fails. -/
inductive Failure where
  /-- An error for the peer, as it is. -/
  | declared (e : ResponseError)
  | invalidParams (text : String)
  | cancelled
  /-- The handler broke off. -/
  | panicked (text : String)
  /-- The result could not be written. -/
  | serialization (f : PayloadFault)
  /-- A request of the handler to the peer failed. -/
  | peer (f : PeerFailure)
  | failed (text : String)
  deriving Repr

/-- What becomes of a call of a handler. -/
abbrev Outcome := Except Failure Json

/-- The outcome of a handler that passes on what became of a request. -/
def PeerReply.toOutcome (r : PeerReply) : Outcome := r.mapError .peer

namespace Failure

/-- The wording of a failure. -/
def message : Failure → String
  | .declared e => e.text
  | .invalidParams text => "Invalid params: " ++ text
  | .cancelled => "Request cancelled"
  | .panicked text => "Handler panicked: " ++ text
  | .serialization f => "Serialization error: " ++ f.message
  | .peer f => "Peer request failed: " ++ f.message
  | .failed text => text

/-- The handler failed on purpose. -/
def isDeclared : Failure → Bool
  | .declared _ | .invalidParams _ | .cancelled => true
  | _ => false

/-- What the peer is told of a failure. -/
def toResponseError (id : Option MessageId) : Failure → ResponseError
  | .declared e => e
  | .invalidParams text => .of .invalidParams text
  | .cancelled => Reply.cancellation id
  | f => .of .internalError f.message

end Failure

end Parley
