import Parley.Message.Basic

/-!
# Replies

The answers that a connection gives on its own.
-/

namespace Parley.Reply

/-- The answer to a request that was served. -/
def success (id : MessageId) (value : Json) : Message := .result id value

/-- The answer to a request that failed. -/
def failure (id : Option MessageId) (e : ResponseError) : Message := .error id e

/-- The answer to a request for an unknown method. -/
def methodNotFound (id : MessageId) (method : String) : Message :=
  failure (some id) (.of .methodNotFound ("Method not found: " ++ method))

/-- What is said of a request that was cancelled. -/
def cancellation (id : Option MessageId) : ResponseError :=
  .of .requestCancelled <|
    match id with
    | some id => "Request with id \"" ++ id.text ++ "\" is canceled"
    | none => "Request is canceled"

/-- The answer to a request that was cancelled. -/
def cancelled (id : MessageId) : Message := failure (some id) (cancellation (some id))

/-- The answer to a request that comes after `shutdown`. -/
def shuttingDown (id : MessageId) : Message := failure (some id) (.of .invalidRequest "Server is shutting down")

/-- The answer to a request whose id is that of a request still served. -/
def duplicate (id : MessageId) : Message :=
  failure (some id) (.of .invalidRequest ("Request id \"" ++ id.text ++ "\" is already in flight"))

/-- The answer to a command request that names no command. -/
def commandNotNamed (id : MessageId) : Message :=
  failure (some id) (.of .invalidParams "executeCommand params must name a command")

/-- The answer to a request for an unknown command. -/
def commandNotFound (id : MessageId) (name : String) : Message :=
  failure (some id) (.of .invalidParams ("Command not found: " ++ name))

end Parley.Reply
