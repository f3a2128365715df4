import Parley.Ledger.Incoming
import Parley.Ledger.Outgoing
import Parley.Message.Decode
import Parley.Registry
import Parley.Writer

/-!
# Connections

One side of a conversation, as a machine without input or output of its own: payloads go in one by one, messages are queued for
a writer, and work for handlers comes out as jobs whose outcomes are handed back. This module has the state of a connection and
what our side does with it: sending requests and notifications, cancelling requests, tearing the connection down.
-/

namespace Parley

/-- The life of a connection, which only goes forward. -/
inductive Lifecycle where
  | active
  | shuttingDown
  | exited
  deriving DecidableEq, Repr

/-- The name of a stage of life. -/
def Lifecycle.name : Lifecycle → String
  | .active => "Active"
  | .shuttingDown => "ShuttingDown"
  | .exited => "Exited"

/-- What kind of failure is reported. -/
inductive ReportKind where
  | decode
  | featureRequest
  | featureNotification
  | transport
  deriving DecidableEq, Repr

/-- The name of a kind of failure. -/
def ReportKind.name : ReportKind → String
  | .decode => "Decode"
  | .featureRequest => "FeatureRequest"
  | .featureNotification => "FeatureNotification"
  | .transport => "Transport"

/-- A failure that the connection dealt with on its own. -/
structure Report where
  kind : ReportKind
  message : String
  deriving DecidableEq, Repr

/-- The state of a connection. -/
structure Connection where
  /-- How the handlers of each method and command are run. -/
  routes : Registry Mode := {}
  /-- The shapes of payloads. -/
  catalogue : Catalogue := {}
  lifecycle : Lifecycle := .active
  /-- The code recorded when `exit` was processed. -/
  exitCode : Option Int := none
  /-- The requests of the peer that are being served. -/
  incoming : Incoming := {}
  /-- Our requests that wait for answers. -/
  outgoing : Outgoing := {}
  /-- The shapes of the results of our requests. -/
  expected : Expected := {}
  /-- What the writer has not taken yet. -/
  queue : List (Outbound Message) := []
  /-- The writer still takes what is queued. -/
  writable : Bool := true
  /-- The failures reported so far. -/
  reports : List Report := []
  /-- How many ids were made for requests of ours. -/
  minted : Nat := 0

namespace Connection

/-- Nothing more can be exchanged with the peer. -/
def isClosed (c : Connection) : Bool := c.outgoing.closed || !c.writable

/-- A token has fired. -/
def isFired (c : Connection) (t : Token) : Bool := c.incoming.isFired t

/-- Reports a failure. -/
def report (c : Connection) (kind : ReportKind) (message : String) : Connection :=
  { c with reports := c.reports ++ [⟨kind, message⟩] }

/-- Queues something for the writer, which is lost once the writer is gone. -/
def enqueue (c : Connection) (item : Outbound Message) : Connection :=
  if c.writable then { c with queue := c.queue ++ [item] } else c

/-- Queues a message for the writer. -/
def send (c : Connection) (m : Message) : Connection := c.enqueue (.frame m)

/-- Forgets which shape the result of a request must have. -/
def forget (c : Connection) (id : MessageId) : Connection := { c with expected := c.expected.erase id }

/-- Remembers which shape the result of a request must have, if the catalogue knows one. -/
def expect (c : Connection) (id : MessageId) (method : String) : Connection :=
  match c.catalogue.result? method with
  | some shape => { c with expected := c.expected.insert id shape }
  | none => c

/-- Answers a request of ours. -/
def resolve (c : Connection) (id : MessageId) (r : PeerReply) : Connection :=
  { c with outgoing := (c.outgoing.resolve id r).2 }

/-- Twelve digits of a number, in hexadecimal. -/
def idDigits (n : Nat) : String :=
  let digits := Nat.toDigits 16 n
  String.ofList (List.replicate (12 - digits.length) '0' ++ digits)

/-- The id of our `n`-th request: a text in the form of a random identifier, different for every `n` in reach. -/
def mintedId (n : Nat) : MessageId := .str ("00000000-0000-4000-8000-" ++ idDigits n)

/-- A character may stand at a place of a random identifier: dashes part it, and a digit says that it is random. -/
def isIdChar (c : Char) (place : Nat) : Bool :=
  if [8, 13, 18, 23].contains place then c = '-'
  else if place = 14 then c = '4'
  else if place = 19 then ['8', '9', 'a', 'b'].contains c
  else c.isDigit || ('a' ≤ c && c ≤ 'f')

/-- A text begins with a random identifier, as the ids of our requests are. -/
def beginsWithId (cs : List Char) : Bool :=
  (cs.take 36).length = 36 && (cs.take 36).zipIdx.all fun (c, place) => isIdChar c place

/-- Sends a request under an id and gives its handle. If it cannot be sent, the handle is answered at once. -/
def requestAs (c : Connection) (id : MessageId) (method : String) (params : Json) : Nat × Connection :=
  match c.outgoing.register? id method with
  | none =>
    let (handle, outgoing) := c.outgoing.settled (.error .closed)
    (handle, { c with outgoing })
  | some (handle, outgoing) =>
    let c := { c with outgoing }.expect id method
    if c.writable then (handle, c.send (.request id method params))
    else (handle, (c.forget id).resolve id (.error .closed))

/-- Sends a request under an id of its own and gives its handle. -/
def request (c : Connection) (method : String) (params : Json) : Nat × Connection :=
  { c with minted := c.minted + 1 }.requestAs (mintedId c.minted) method params

/-- Sends a notification; false if the writer is gone. -/
def notify (c : Connection) (method : String) (params : Json) : Bool × Connection :=
  (c.writable, c.send (.notification method params))

/-- The notification that cancels a request. -/
def cancelMethod : String := "$/cancelRequest"

/-- Fails a request of ours as cancelled and asks the peer to cancel it; false if the writer is gone. -/
def cancelRequest (c : Connection) (id : MessageId) : Bool × Connection :=
  ((c.resolve id (.error .cancelled)).forget id).notify cancelMethod (Json.object [("id", id.toJson)])

/-- Releases everything that depends on the connection: our requests fail, those of the peer are cancelled and their replies
will not be sent, and the writer is asked to close. -/
def teardown (c : Connection) : Connection :=
  { c with
    outgoing := c.outgoing.closeAll.2
    expected := {}
    incoming := c.incoming.purge.2.close }.enqueue .close

/-- The writer is gone: what was queued is lost. -/
def dropWriter (c : Connection) : Connection := { c with queue := [], writable := false }

/-- How a connection is shown. -/
def describe (c : Connection) (workers : Nat) : String :=
  "Dispatcher \x7b state: " ++ c.lifecycle.name ++ ", pending_work: " ++ toString c.incoming.size ++
    ", pending_requests: " ++ toString c.outgoing.size ++ ", max_workers: " ++ toString workers ++ " \x7d"

end Connection

end Parley
